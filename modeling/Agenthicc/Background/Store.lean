/-
Agenthicc.Background.Store — the registry of background sessions: what its
events mean, and the operations that write them.

Section 1 is the replay: `applyEvent` on one event, `foldEvent` over the
records of all sessions, and `EventFolder`, which defers heartbeats. Section 2
is what an `updated` event carries. Sections 3 and 4 are the operations. An
operation is a `Prog`: it reads the record outside the registry lock
(`get`) and does its checks and its append inside (`locked`), so that other
processes can act in between.

An event is the JSON object of its line. An integer that no float holds would
raise `OverflowError` out of the replay; here it leaves the record as it is.
No event that the store writes has one, since it writes floats as floats.

Left out: the notification descriptor of an `updated` event, which no replay
reads, and the moves of artifact directories, whose outcome is an argument.
-/
import Agenthicc.Background.Model

namespace Agenthicc.Background

open Python

/-! ## 1. Replay -/

/-- The pairs of a value that is a mapping. -/
def mappingOf : Json → List (String × Json)
  | .obj kvs => kvs
  | _ => []

/-- `event.get("payload")` as a mapping. -/
def payloadOf (event : Json) : List (String × Json) := mappingOf (event.get "payload")

/-- `_event_session_id`. -/
def eventSessionId (event : Json) : String :=
  match Json.lookup "session_id" (payloadOf event) with
  | some (.str session_id) => session_id
  | _ => ""

/-- `_event_sequence`. -/
def eventSequence (event : Json) : Option Int :=
  match event.get "seq" with
  | .int n => some n
  | _ => none

/-- `len(changes) == 1 and name in changes`. -/
def onlyKey (name : String) (changes : List (String × Json)) : Bool :=
  !changes.isEmpty && changes.all fun p => p.1 = name

/-- The keyword arguments that a decoded mapping stands for. -/
def jsonChanges (changes : List (String × Json)) : String → Option Arg := fun name =>
  (Json.lookup name changes).map .json

/-- The fields that a `deleted` event sets. -/
def deletedChanges (py : Interp) (current : BackgroundSession) (payload : List (String × Json))
    (timestamp : PyFloat) : List (String × Json) :=
  [("status", .str "deleted"),
    ("trash_dir", .str (pyStr py ((Json.lookup "trash_dir" payload).getD (.str current.trash_dir)))),
    ("artifact_dir", .str ""),
    ("last_active", .float timestamp),
    ("delete_operation_id", .str (pyStr py
      ((Json.lookup "operation_id" payload).getD (.str current.delete_operation_id)))),
    ("delete_phase", .str "completed"),
    ("delete_error", .str "")]

/-- `_apply_event`: the session after the event, or `none` when it changes
nothing. `now` is the clock that a deletion without a timestamp reads. -/
def applyEvent (py : Interp) (now : PyFloat) (current : Option BackgroundSession) (event : Json) :
    Option BackgroundSession :=
  let payload := payloadOf event
  let event_type := event.get "event_type"
  if event_type = .str "created" then BackgroundSession.fromMapping py payload
  else
    match current with
    | none => none
    | some current =>
        if event_type = .str "updated" then
          let changes := mappingOf ((Json.lookup "changes" payload).getD .null)
          if onlyKey "last_active" changes then
            match asFloat py ((Json.lookup "last_active" changes).getD .null) with
            | some (some x) => some (current.withLastActive x)
            | _ => none
          else current.evolve py (jsonChanges changes)
        else if event_type = .str "deleted" then
          match asFloat py (event.get "timestamp") with
          | some timestamp => current.evolve py (jsonChanges
              (deletedChanges py current payload (timestamp.getD now)))
          | none => none
        else if event_type = .str "priority_changed" then
          match (Json.lookup "previous" payload).getD .null,
              (Json.lookup "current" payload).getD .null with
          | .str previous_priority, .str current_priority =>
              match PriorityChange.fromMapping py (.obj [
                  ("previous", .str previous_priority),
                  ("current", .str current_priority),
                  ("changed_at", event.get "timestamp"),
                  ("changed_by", (Json.lookup "changed_by" payload).getD .null)]) with
              | some change => current.evolve py fun name =>
                  if name = "priority" then some (.json (.str (StrEnum.value change.current)))
                  else if name = "priority_history" then
                    some (.items ((lastN 32 (current.priority_history ++ [change])).map .change))
                  else none
              | none => none
          | _, _ => none
        else none

/-- The records of all sessions after one event. -/
def foldEvent (py : Interp) (now : PyFloat) (records : Dict String BackgroundSession)
    (event : Json) : Dict String BackgroundSession :=
  if eventSessionId event = "" then records
  else
    match applyEvent py now (records.get? (eventSessionId event)) event with
    | some updated => records.set (eventSessionId event) updated
    | none => records

/-- The plain left fold over a log. -/
def foldEvents (py : Interp) (now : PyFloat) (records : Dict String BackgroundSession)
    (events : List Json) : Dict String BackgroundSession :=
  events.foldl (foldEvent py now) records

/-- `_EventFolder`: the records met so far and the newest heartbeat of each
session that has one to apply. -/
structure EventFolder where
  records : Dict String BackgroundSession := .empty
  pending : Dict String PyFloat := .empty

namespace EventFolder

/-- The activity of a heartbeat: the one change of an `updated` event. -/
def heartbeat? (py : Interp) (event : Json) : Option PyFloat :=
  let changes := mappingOf ((Json.lookup "changes" (payloadOf event)).getD .null)
  if event.get "event_type" = .str "updated" ∧ onlyKey "last_active" changes then
    (asFloat py ((Json.lookup "last_active" changes).getD .null)).join
  else none

/-- The folder with the record of a session loaded, if it has none yet. -/
def load (folder : EventFolder) (lookup : String → Option BackgroundSession) (session_id : String) :
    EventFolder :=
  match folder.records.get? session_id, lookup session_id with
  | none, some loaded => { folder with records := folder.records.set session_id loaded }
  | _, _ => folder

/-- The folder with the deferred heartbeat of a session applied to it. -/
def flush (folder : EventFolder) (session_id : String) : EventFolder :=
  match folder.pending.get? session_id, folder.records.get? session_id with
  | some activity, some current =>
      { records := folder.records.set session_id (current.withLastActive activity),
        pending := folder.pending.pop session_id }
  | _, _ => { folder with pending := folder.pending.pop session_id }

/-- `apply(event)`. -/
def apply (py : Interp) (now : PyFloat) (lookup : String → Option BackgroundSession)
    (folder : EventFolder) (event : Json) : EventFolder :=
  let session_id := eventSessionId event
  if session_id = "" then folder
  else
    let created := event.get "event_type" = .str "created"
    let folder := if created then folder else folder.load lookup session_id
    match heartbeat? py event, folder.records.get? session_id with
    | some activity, some _ => { folder with pending := folder.pending.set session_id activity }
    | _, _ =>
        -- a creation starts the record anew, whatever was deferred
        let folder :=
          if created then { folder with pending := folder.pending.pop session_id }
          else folder.flush session_id
        match applyEvent py now (folder.records.get? session_id) event with
        | some updated => { folder with records := folder.records.set session_id updated }
        | none => folder

/-- `finish()`. -/
def finish (folder : EventFolder) : Dict String BackgroundSession :=
  folder.pending.items.foldl (fun records p =>
    match records.get? p.1 with
    | some current => records.set p.1 (current.withLastActive p.2)
    | none => records) folder.records

end EventFolder

/-! ## 2. What an update records -/

/-- `before != after` of two optional values with their own equality. -/
def optionEq {α : Type} (eq : α → α → Bool) : Option α → Option α → Bool
  | none, none => true
  | some x, some y => eq x y
  | _, _ => false

/-- `==` of two lists, element by element. -/
def listEq {α : Type} (eq : α → α → Bool) : List α → List α → Bool
  | [], [] => true
  | x :: xs, y :: ys => eq x y && listEq eq xs ys
  | _, _ => false

/-- `==` of the two serialized attempts. -/
def BackgroundAttempt.same (a b : BackgroundAttempt) : Bool :=
  optionEq PyFloat.same a.started_at b.started_at
    && optionEq PyFloat.same a.completed_at b.completed_at
    && { a with started_at := none, completed_at := none }
      = { b with started_at := none, completed_at := none }

def PriorityChange.same (a b : PriorityChange) : Bool :=
  a.changed_at.same b.changed_at && { a with changed_at := .zero } = { b with changed_at := .zero }

/-- `==` of two values of a type where it is plain equality. -/
def eqOf (α : Type) [DecidableEq α] (x y : α) : Bool := x = y

namespace FieldKind

/-- `==` of the two serialized values. A float that is not a number differs
from itself, except inside a container, where it is the same object. -/
def numEq : (k : FieldKind) → k.Value → k.Value → Bool
  | .str _, x, y | .bounded _, x, y => eqOf String x y
  | .optStr, x, y | .optBounded _, x, y => eqOf (Option String) x y
  | .float, x, y | .amount, x, y => PyFloat.numEq x y
  | .optFloat, x, y => optionEq PyFloat.numEq x y
  | .int, x, y | .count, x, y => eqOf Int x y
  | .optInt, x, y => eqOf (Option Int) x y
  | .bool, x, y => eqOf Bool x y
  | .optBool, x, y => eqOf (Option Bool) x y
  | .strings _, x, y => eqOf (List String) x y
  | .status, x, y => eqOf SessionStatus x y
  | .priority, x, y => eqOf QueuePriority x y
  | .dispatchState, x, y => eqOf QueueDispatchState x y
  | .modeStatus, x, y => eqOf ModeApplicationStatus x y
  | .attempts, x, y => listEq BackgroundAttempt.same x y
  | .priorityChanges, x, y => listEq PriorityChange.same x y

end FieldKind

/-- The fields that `to_dict` serializes differently, with their new values. -/
def differing (previous updated : BackgroundSession) : List (String × Json) :=
  (Field.all.filter fun f => !f.kind.numEq (previous.value f) (updated.value f)).map fun f =>
    (f.name, f.kind.dump (updated.value f))

theorem nodup_differing (previous updated : BackgroundSession) :
    ((differing previous updated).map Prod.fst).Nodup := by
  rw [differing, List.map_map]
  exact Field.nodup_names.sublist (List.filter_sublist.map Field.name)

/-- `_changed_fields`. -/
def changedFields (previous updated : BackgroundSession) : Dict String Json :=
  let changes : Dict String Json := ⟨differing previous updated, nodup_differing previous updated⟩
  -- replay needs the status with the name: a name alone is a pending request
  let changes :=
    if (changes.get? "mode_name").isSome then
      changes.set "mode_application_status"
        (Field.mode_application_status.kind.dump (updated.value .mode_application_status))
    else changes
  changes.set "last_active" (.float updated.last_active)

/-! ## 3. Locked sections -/

def sessionNotFound (session_id : String) : PyError := .raised "SessionNotFound" session_id

def invalidTransition (message : String) : PyError := .raised "InvalidSessionTransition" message

/-- What a caller of `update` expects to find; `none` expects nothing. -/
structure Expected where
  status : Option SessionStatus := none
  lease_token : Option String := none
  attempt : Option Int := none
  last_active : Option PyFloat := none
  dispatch_state : Option QueueDispatchState := none
  delete_operation_id : Option String := none

/-- The expectations in the order they are checked. -/
def Expected.check (expected : Expected) (current : BackgroundSession) : Except PyError Unit :=
  if expected.status.any (· ≠ current.status) then
    .error (invalidTransition ("Expected " ++ (expected.status.map StrEnum.value).getD ""
      ++ ", found " ++ StrEnum.value current.status))
  else if expected.lease_token.any (current.lease_token ≠ ·) then
    .error (invalidTransition "Background worker lease is stale")
  else if expected.attempt.any (current.attempt ≠ ·) then
    .error (invalidTransition "Background worker attempt is stale")
  else if expected.last_active.any fun x => !current.last_active.numEq x then
    .error (invalidTransition "Background session activity changed during recovery")
  else if expected.dispatch_state.any (current.dispatch_state ≠ ·) then
    .error (invalidTransition "Background dispatch state changed during recovery")
  else if expected.delete_operation_id.any (current.delete_operation_id ≠ ·) then
    .error (invalidTransition "Delete operation is not the current owner")
  else .ok ()

/-- The names that are no fields. -/
def unknownFields (changes : Dict String Arg) : List String :=
  (changes.items.map Prod.fst).filter fun name => name ∉ Field.all.map Field.name

/-- Whether an applied mode is attested by the running attempt. -/
def modeAttested (expected : Expected) (current : BackgroundSession) (changes : Dict String Arg) :
    Bool :=
  decide (current.status = .running) && decide (expected.status = some .running)
    && expected.lease_token.any (· ≠ "")
    && (match changes.get? "mode_name" with
      | some (.json (.str name)) => decide (name ≠ "")
      | _ => false)
    && (match expected.attempt, changes.get? "mode_application_attempt" with
      | some attempt, some (.json (.int applied)) => decide (applied = attempt)
      | _, _ => false)

/-- `changes[name] = changes[name][:limit]` where it is a string. -/
def truncated (name : String) (limit : Nat) (changes : Dict String Arg) : Dict String Arg :=
  match changes.get? name with
  | some (.json (.str s)) => changes.set name (.json (.str (strTake limit s)))
  | _ => changes

/-- The keyword arguments as `update` hands them to `evolve`: the times it
fills in and the two texts it cuts. -/
def prepared (clock : Nat → PyFloat) (current : BackgroundSession) (changes : Dict String Arg) :
    Dict String Arg :=
  let changes :=
    match changes.get? "status" with
    | some value =>
        if value = .json (.str (StrEnum.value current.status)) then changes
        else changes.setdefault "state_changed_at" (.json (.float (clock 0)))
    | none => changes
  (truncated "error" 2000 (truncated "latest_activity" 512 changes)).setdefault "last_active"
    (.json (.float (clock 1)))

/-- The payload of an `updated` event. -/
def updatedPayload (session_id : String) (current updated : BackgroundSession) :
    List (String × Json) :=
  [("session_id", .str session_id), ("changes", .obj (changedFields current updated).items)]
    ++ if current.status = updated.status then []
      else [("previous_status", .str (StrEnum.value current.status)),
        ("current_status", .str (StrEnum.value updated.status))]

def overflow : PyError := .raised "OverflowError" "int too large to convert to float"

/-- The body of `update` under the lock, on the record found there. -/
def updateRecord (py : Interp) (clock : Nat → PyFloat) (expected : Expected)
    (changes : Dict String Arg) (current : BackgroundSession) : Except PyError BackgroundSession :=
  match expected.check current with
  | .error exc => .error exc
  | .ok () =>
      if unknownFields changes ≠ [] then
        .error (.valueError ("Unknown background session fields: ["
          ++ strJoin ", " ((unknownFields changes).mergeSort.map py.strRepr) ++ "]"))
      else if changes.get? "mode_application_status" = some (.json (.str "applied"))
          ∧ modeAttested expected current changes = false then
        .error (invalidTransition
          "Mode application must be attested by the current running worker attempt")
      else
        match current.evolve py (prepared clock current changes).get? with
        | some updated => .ok updated
        | none => .error overflow

/-- An operation under the registry lock. What depends on artifact directories
is given as the outcome of their moves. -/
inductive Section where
  | create (session : BackgroundSession)
  | update (expected : Expected) (changes : Dict String Arg)
  | changePriority (priority : QueuePriority) (changed_by : String)
  | recordWorkerExit (expected_attempt : Option Int) (details : List (String × Json))
  | delete (force : Bool) (operation_id : String) (trash : Except PyError String)
  | restoreDeleted (artifact_dir : Except PyError String)

/-- What a section appends: the type and the payload of an event. -/
structure Write where
  event_type : String
  payload : List (String × Json)

/-- `current` with the fields of a finished deletion. -/
def deletedRecord (py : Interp) (current : BackgroundSession) (trash operation_id : String) :
    Option BackgroundSession :=
  current.evolve py (jsonChanges [("status", .str "deleted"), ("artifact_dir", .str ""),
    ("trash_dir", .str trash), ("delete_operation_id", .str operation_id),
    ("delete_phase", .str "completed"), ("delete_error", .str "")])

/-- `current` with the fields of a restored session. -/
def restoredRecord (py : Interp) (current : BackgroundSession) (artifact_dir : String) :
    Option BackgroundSession :=
  current.evolve py (jsonChanges [("status", .str "completed"), ("artifact_dir", .str artifact_dir),
    ("trash_dir", .str ""), ("delete_operation_id", .str ""), ("delete_phase", .str ""),
    ("delete_error", .str ""), ("delete_requested_at", .null), ("delete_attempt", .int 0),
    ("latest_activity", .str "Restored from trash")])

/-- `get(session_id, include_deleted=True)` under the lock. -/
def withFound {α : Type} (session_id : String) (found : Option BackgroundSession)
    (body : BackgroundSession → Except PyError α) : Except PyError α :=
  match found with
  | none => .error (sessionNotFound session_id)
  | some current => body current

/-- The body of `delete` once the artifacts are in the trash. -/
def finishDelete (py : Interp) (session_id operation_id trash : String)
    (current : BackgroundSession) :
    Except PyError (Option BackgroundSession × Option Write) :=
  let operation := if operation_id = "" then current.delete_operation_id else operation_id
  match deletedRecord py current trash operation with
  | none => .error overflow
  | some deleted => .ok (some deleted, some ⟨"deleted", [("session_id", .str session_id),
      ("trash_dir", .str trash), ("operation_id", .str operation)]⟩)

/-- The record a section returns and what it appends, from the record found
under the lock. `change_priority` returns what it reads back after its append;
that is `none` here. -/
def Section.run (py : Interp) (clock : Nat → PyFloat) (session_id : String)
    (found : Option BackgroundSession) : Section →
    Except PyError (Option BackgroundSession × Option Write)
  | .create session =>
      if found.any (·.status ≠ .deleted) then
        .error (.valueError ("Background session already exists: " ++ session.session_id))
      else .ok (some session, some ⟨"created", session.toDict⟩)
  | .update expected changes =>
      withFound session_id found fun current =>
        match updateRecord py clock expected changes current with
        | .error exc => .error exc
        | .ok updated =>
            .ok (some updated, some ⟨"updated", updatedPayload session_id current updated⟩)
  | .changePriority priority changed_by =>
      withFound session_id found fun current =>
        if current.status ∉ ACTIVE_STATUSES then
          .error (invalidTransition ("Cannot change priority of " ++ StrEnum.value current.status
            ++ " session"))
        else if current.priority = priority then .ok (some current, none)
        else
          .ok (none, some ⟨"priority_changed", [("session_id", .str session_id),
            ("previous", .str (StrEnum.value current.priority)),
            ("current", .str (StrEnum.value priority)),
            ("changed_by", .str (strTake 128 changed_by))]⟩)
  | .recordWorkerExit expected_attempt details =>
      withFound session_id found fun current =>
        if expected_attempt.any (current.attempt ≠ ·) then
          .error (invalidTransition "Background worker attempt is stale")
        else .ok (some current, some ⟨"worker_exited", ("session_id", .str session_id) :: details⟩)
  | .delete force operation_id trash =>
      withFound session_id found fun current =>
        if current.status = .deleted then
          if operation_id = "" ∨ current.delete_operation_id = ""
              ∨ current.delete_operation_id = operation_id then
            .ok (some current, none)
          else .error (invalidTransition "Session was deleted by another operation")
        else if current.status ∈ ACTIVE_STATUSES ∧ force = false then
          .error (invalidTransition "Cancel the active session before deleting it")
        else if operation_id ≠ "" ∧ current.delete_operation_id ≠ ""
            ∧ current.delete_operation_id ≠ operation_id then
          .error (invalidTransition "Delete operation is not the current owner")
        else
          match trash with
          | .error exc => .error exc
          | .ok trash => finishDelete py session_id operation_id trash current
  | .restoreDeleted artifact_dir =>
      withFound session_id found fun current =>
        if current.status ≠ .deleted ∨ current.trash_dir = "" then
          .error (invalidTransition "Session is not in recoverable trash")
        else
          match artifact_dir with
          | .error exc => .error exc
          | .ok artifact_dir =>
              match restoredRecord py current artifact_dir with
              | none => .error overflow
              | some restored => .ok (some restored, some ⟨"updated",
                  [("session_id", .str session_id),
                    ("changes", .obj (changedFields current restored).items)]⟩)

/-- The record that `_append` writes. -/
def eventRecord (seq : Int) (timestamp : PyFloat) (w : Write) : Json :=
  .obj [("seq", .int seq), ("event_type", .str w.event_type), ("timestamp", .float timestamp),
    ("payload", .obj w.payload)]

/-! ## 4. Operations -/

/-- An operation on one session. Between two steps other processes act. -/
inductive Prog (α : Type) where
  | done (a : α)
  | raise (exc : PyError)
  /-- A read outside the lock. -/
  | get (next : Option BackgroundSession → Prog α)
  /-- A section under the lock; what it raises ends the operation. -/
  | locked (op : Section) (next : BackgroundSession → Prog α)

namespace Prog

def bind {α β : Type} (f : α → Prog β) : Prog α → Prog β
  | done a => f a
  | raise exc => raise exc
  | get next => get fun r => bind f (next r)
  | locked op next => locked op fun r => bind f (next r)

instance : Monad Prog where
  pure := done
  bind p f := p.bind f

/-- A locked section as an operation. -/
def atomically (op : Section) : Prog BackgroundSession := locked op done

/-- `get(session_id, include_deleted=include_deleted)`. -/
def lookup (session_id : String) (include_deleted : Bool) : Prog BackgroundSession :=
  get fun
    | none => raise (sessionNotFound session_id)
    | some record =>
        if record.status = .deleted ∧ include_deleted = false then
          raise (sessionNotFound session_id)
        else done record

end Prog

/-- Keyword arguments, each named once. -/
def kwargs (items : List (String × Arg)) (h : (items.map Prod.fst).Nodup) : Dict String Arg :=
  ⟨items, h⟩

def textArg (s : String) : Arg := .json (.str s)

def statusArg (status : SessionStatus) : Arg := .json (.str (StrEnum.value status))

section Operations

variable (py : Interp) (clock : Nat → PyFloat) (session_id : String)

/-- `update`. -/
def update (expected : Expected) (changes : Dict String Arg) : Prog BackgroundSession :=
  .atomically (.update expected changes)

def FINISHED_STATUSES : List SessionStatus := [.completed, .failed, .cancelled]

/-- Statuses that end an attempt. -/
def ENDED_STATUSES : List SessionStatus := [.completed, .failed, .cancelled, .orphaned]

/-- Whether the history has no summary of the current attempt yet. -/
def unarchived (current : BackgroundSession) : Bool :=
  decide (0 < current.attempt) && !current.attempt_history.any (·.attempt = current.attempt)

def historyArg (current : BackgroundSession) (snapshot : BackgroundAttempt) : Arg :=
  .items ((lastN ATTEMPT_HISTORY_LIMIT (current.attempt_history ++ [snapshot])).map .attempt)

/-- The keyword arguments with the status, and the time it was completed at. -/
def statusChanges (target : SessionStatus) (changes : Dict String Arg) : Dict String Arg :=
  let changes := changes.set "status" (statusArg target)
  if target ∈ FINISHED_STATUSES then
    changes.setdefault "completed_at" (.json (.float (clock 2)))
  else changes

/-- The keyword arguments of the `update` that a transition to another status
ends in. -/
def transitionChanges (current : BackgroundSession) (target : SessionStatus)
    (changes : Dict String Arg) : Except PyError (Dict String Arg) :=
  let changes := statusChanges clock target changes
  if target ∈ ENDED_STATUSES ∧ unarchived current then
    match current.evolve py changes.get? with
    | none => .error overflow
    | some snapshot => .ok (changes.set "attempt_history"
        (historyArg current (BackgroundAttempt.fromSession snapshot)))
  else if target ∈ [SessionStatus.starting, .retrying]
      ∧ current.status ∈ .archived :: ENDED_STATUSES ∧ unarchived current then
    -- a terminal record written before attempt history existed
    .ok (changes.set "attempt_history"
      (historyArg current (BackgroundAttempt.fromSession current)))
  else .ok changes

/-- `transition`. -/
def transition (target : SessionStatus) (expected : Expected) (changes : Dict String Arg) :
    Prog BackgroundSession := do
  let current ← Prog.lookup session_id true
  if current.status = target then update expected changes
  else if current.status = .deleted then
    .raise (invalidTransition "Deleted background sessions cannot change state")
  else if legalTransition current.status target = false then
    .raise (invalidTransition ("Cannot transition " ++ StrEnum.value current.status ++ " → "
      ++ StrEnum.value target))
  else
    match transitionChanges py clock current target changes with
    | .ok changes => update expected changes
    | .error exc => .raise exc

/-- The scheduler's hold on a queued session, checked before a claim. -/
def dispatchCheck (current : BackgroundSession) (dispatch_token : Option String) :
    Except PyError Unit :=
  if current.dispatch_state = .pending ∧ dispatch_token.getD "" = "" then
    .error (invalidTransition "Queued session has not been claimed by the scheduler")
  else if current.dispatch_state = .claimed then
    if dispatch_token.getD "" = "" ∨ dispatch_token ≠ some current.dispatch_token then
      .error (invalidTransition "Background dispatch lease is stale")
    else .ok ()
  else if dispatch_token.any (· ≠ current.dispatch_token) then
    .error (invalidTransition "Background dispatch lease is stale")
  else .ok ()

/-- The fields that a claim sets on the record it runs. -/
def claimChanges (pid : Int) (lease_token : String) (dispatch_token : Option String)
    (current : BackgroundSession) : Dict String Arg :=
  kwargs [
    ("worker_pid", .json (.int pid)),
    ("lease_token", textArg lease_token),
    ("attempt", .json (.int (current.attempt + 1))),
    ("started_at", .json (.float ((BackgroundAttempt.orFloat current.started_at none).getD (clock 3)))),
    ("worker_started_at", .json (.float (clock 4))),
    ("worker_finished_at", .json .null),
    ("worker_exit_code", .json .null),
    ("worker_exit_reason", textArg ""),
    ("worker_finalization_attempts", .json (.int 0)),
    ("worker_cleanup_error", textArg ""),
    ("completed_at", .json .null),
    ("error", .json .null),
    ("failure_category", textArg ""),
    ("cancellation_reason", textArg ""),
    ("exit_reason", textArg ""),
    ("attempt_started_at", .json (.float (clock 5))),
    ("heartbeat_stale", .json (.bool false)),
    ("mode_name", textArg ""),
    ("mode_application_status", textArg "pending"),
    ("mode_application_attempt", .json (.int (current.attempt + 1))),
    ("mode_application_error", textArg ""),
    ("latest_activity", textArg "Worker started"),
    ("last_active", .json (.float (clock 5))),
    ("dispatch_state", textArg (if dispatch_token.isSome then "started"
      else StrEnum.value current.dispatch_state))] (by simp)

/-- `claim`. -/
def claim (pid : Int) (lease_token : String) (dispatch_token : Option String) :
    Prog BackgroundSession := do
  let current ← Prog.lookup session_id false
  match dispatchCheck current dispatch_token with
  | .error exc => .raise exc
  | .ok () =>
      let current ←
        if current.status = .queued ∨ current.status = .retrying then
          transition py clock session_id .starting {} .empty
        else if current.status = .starting ∨ current.status = .orphaned then .done current
        else .raise (invalidTransition ("Cannot claim " ++ StrEnum.value current.status
          ++ " session"))
      transition py clock session_id .running
        { status := some current.status, attempt := some current.attempt }
        (claimChanges clock pid lease_token dispatch_token current)

/-- `heartbeat`; the totals it is given replace those of the record. -/
def heartbeat (lease_token : String) (attempt : Option Int) (phase activity : String)
    (tokens_in tokens_out : Option Int) (cost_usd : Option PyFloat) : Prog BackgroundSession := do
  let current ← Prog.lookup session_id false
  update { status := some current.status, lease_token := some lease_token, attempt := attempt }
    (kwargs [
      ("current_phase", textArg (if phase = "" then current.value .current_phase else phase)),
      ("latest_activity", textArg (if activity = "" then current.latest_activity else activity)),
      ("last_active", .json (.float (clock 3))),
      ("heartbeat_stale", .json (.bool false)),
      ("tokens_in", .json (.int (tokens_in.getD (current.value .tokens_in)))),
      ("tokens_out", .json (.int (tokens_out.getD (current.value .tokens_out)))),
      ("cost_usd", .json (.float (cost_usd.getD (current.value .cost_usd))))] (by simp))

/-- `mark_orphaned`. -/
def markOrphaned (expected : Expected) : Prog BackgroundSession := do
  let current ← Prog.lookup session_id false
  if current.status ∈ ACTIVE_STATUSES then
    transition py clock session_id .orphaned expected (kwargs [("latest_activity",
      textArg (if current.status = .cancelling then "Cancellation cleanup expired"
        else "Worker disappeared"))] (by simp))
  else .done current

/-- `archive`. -/
def archive : Prog BackgroundSession := transition py clock session_id .archived {} .empty

/-- `restore_archive`. -/
def restoreArchive : Prog BackgroundSession := do
  let current ← Prog.lookup session_id false
  if current.status ≠ .archived then
    .raise (invalidTransition "Only archived sessions can be restored")
  else
    update {} (kwargs [("status", statusArg .completed), ("latest_activity", textArg "Restored")]
      (by simp))

/-- `create`. -/
def create (session : BackgroundSession) : Prog BackgroundSession := .atomically (.create session)

/-- `delete`. -/
def delete (force : Bool) (operation_id : String) (trash : Except PyError String) :
    Prog BackgroundSession := .atomically (.delete force operation_id trash)

/-- `restore_deleted`. -/
def restoreDeleted (artifact_dir : Except PyError String) : Prog BackgroundSession :=
  .atomically (.restoreDeleted artifact_dir)

/-- `change_priority`. -/
def changePriority (priority : QueuePriority) (changed_by : String) : Prog BackgroundSession :=
  .atomically (.changePriority priority changed_by)

end Operations

/-! ## 5. Running an operation -/

/-- The record of the registry after an event. -/
def recordAfter (py : Interp) (now : PyFloat) (found : Option BackgroundSession) (event : Json) :
    Option BackgroundSession := (applyEvent py now found event).or found

/-- What a section returns, and the event it appended. -/
structure Outcome where
  result : Except PyError BackgroundSession
  record : Option BackgroundSession
  event : Option Json

/-- A section on the record of the registry. -/
def Section.perform (py : Interp) (clock : Nat → PyFloat) (seq : Int) (session_id : String)
    (found : Option BackgroundSession) (op : Section) : Outcome :=
  match op.run py clock session_id found with
  | .error exc => ⟨.error exc, found, none⟩
  | .ok (returned, none) =>
      ⟨returned.elim (.error (sessionNotFound session_id)) .ok, found, none⟩
  | .ok (returned, some w) =>
      let event := eventRecord seq (clock 6) w
      let record := recordAfter py (clock 6) found event
      ⟨(returned.or record).elim (.error (sessionNotFound session_id)) .ok, record, some event⟩

/-- An operation that no other process interrupts: what it returns and the
record of the registry after it. -/
def Prog.alone {α : Type} (py : Interp) (clock : Nat → PyFloat) (seq : Int) (session_id : String) :
    Option BackgroundSession → Prog α → Except PyError α × Option BackgroundSession
  | found, .done a => (.ok a, found)
  | found, .raise exc => (.error exc, found)
  | found, .get next => (next found).alone py clock seq session_id found
  | found, .locked op next =>
      let outcome := op.perform py clock seq session_id found
      match outcome.result with
      | .ok r => (next r).alone py clock (seq + 1) session_id outcome.record
      | .error exc => (.error exc, outcome.record)

end Agenthicc.Background
