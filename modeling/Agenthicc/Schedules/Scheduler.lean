/-
Agenthicc.Schedules.Scheduler — the scheduler's pass and the operations of
the schedule manager, as programs over the operations of the store.

`dispatch` and `background_lookup` are parameters, as they are in the source.
A dispatcher also writes the worktree and the base commit into the row that
it is given, always with the state PREPARING.
-/
import Agenthicc.Schedules.Store

namespace Agenthicc.Schedules

open Python Background Tasks Tables

def SCHEDULE_NAMESPACE : String := "0f783d2e-bdde-45fb-b782-7a5e5cd7a602"
def SESSION_NAMESPACE : String := "5a2df5fa-56d3-4cc4-90e5-1e3f6e82b6a9"

def occurrenceSessionId (env : Env) (occurrence_id : String) : String :=
  env.uuid5 SESSION_NAMESPACE occurrence_id

/-- `except (ScheduleConflict, ScheduleNotFound)`. -/
def lostRace (exc : PyError) : Bool :=
  exc.className = "ScheduleConflict" ∨ exc.className = "ScheduleNotFound"

/-- An update whose result is not used. -/
def writeOccurrence (occurrence_id : String) (now : Time) (changes : OccurrenceChanges) :
    Prog (Except PyError Unit) := do
  let updated ← updateOccurrence occurrence_id now none changes
  pure (updated.map fun _ => ())

/-! ## 1. Due cursors -/

/-- The state of a due occurrence under the policy, and the queued occurrence
that takes the tick instead. -/
def dueState (schedule : Schedule) (inflight : List Occurrence) : OccurrenceState × String :=
  if schedule.coalesce_policy = .skip ∧ inflight ≠ [] then (.skipped, "")
  else if schedule.coalesce_policy = .queueOne ∧ inflight ≠ [] then
    match inflight.find? (·.state = .queued) with
    | some queued => (.queued, queued.occurrence_id)
    | none => (.queued, "")
  else if schedule.coalesce_policy = .allowBounded
      ∧ (inflight.length : Int) ≥ schedule.max_in_flight then (.skipped, "")
  else (.awaitingService, "")

def stableKey (schedule : Schedule) (previous : Time) : String :=
  "scheduled:" ++ schedule.schedule_id ++ ":" ++ toString schedule.revision ++ ":"
    ++ fixed6 previous

def dueClaim (env : Env) (schedule : Schedule) (previous : Time) (next_run : Option Time)
    (inflight : List Occurrence) (now : Time) : Claim :=
  let (state, coalesce_target) := dueState schedule inflight
  let stable_key := stableKey schedule previous
  let occurrence_id := env.uuid5 SCHEDULE_NAMESPACE stable_key
  { schedule := schedule
    expected_due_at := previous
    next_run_at := next_run
    occurrence_id := occurrence_id
    occurrence_key := stable_key
    session_id := if state = .skipped then "" else occurrenceSessionId env occurrence_id
    state := state
    now := now
    coalesce_target_id := coalesce_target }

/-- A skipped tick gets its reason. -/
def noteSkipped (now : Time) : Except PyError Occurrence → Prog (Except PyError Unit)
  | .error exc => pure (.error exc)
  | .ok occurrence =>
      if occurrence.state = .skipped then
        writeOccurrence occurrence.occurrence_id now {
          outcome := some [("reason", .json (.str "coalesced_or_concurrency_policy"))] }
      else pure (.ok ())

/-- A pause, a revision or another owner won the compare-and-swap. -/
def unlessLost : Except PyError Unit → Except PyError Unit
  | .error exc => if lostRace exc then .ok () else .error exc
  | .ok () => .ok ()

def claimOne (env : Env) (now : Time) (schedule : Schedule) : Prog (Except PyError Unit) :=
  match schedule.next_run_at with
  | none => pure (.ok ())
  | some previous =>
      match nextRunAfter env schedule.recurrence_kind schedule.recurrence_spec schedule.timezone
          previous now with
      | .error exc => pure (.error exc)
      | .ok next_run => do
          let inflight ← Task.ask (Op.inflightFor schedule.schedule_id)
          let claimed ← claimDueOccurrence (dueClaim env schedule previous next_run inflight now)
          let noted ← noteSkipped now claimed
          pure (unlessLost noted)

/-- `_claim_due`. -/
def claimDue (env : Env) (now : Time) : Prog (Except PyError Unit) := do
  let due ← Task.ask (Op.dueSchedules now)
  Task.each (claimOne env now) due

/-! ## 2. Reconciliation -/

/-- The state that a background status stands for. -/
def reconciledState (status : SessionStatus) : Option OccurrenceState :=
  let status := casefold (StrEnum.value status)
  if status ∈ ["completed", "complete", "succeeded"] then some .completed
  else if status ∈ ["failed", "error"] then some .failed
  else if status ∈ ["cancelled", "canceled", "deleted"] then some .cancelled
  else if status ∈ ["queued", "starting", "running", "waiting_approval", "waiting_input"] then
    some (if status ∈ ["queued", "starting"] then .waitingCapacity else .running)
  else none

abbrev Lookup := String → Except PyError (Option BackgroundSession)

def outcomeOf (session : BackgroundSession) : Mapping :=
  [("background_status", .json (.str (casefold (StrEnum.value session.status)))),
    ("worker_exit_reason", .json (.str (strTake 256 session.worker_exit_reason))),
    ("worker_exit_code", .json (Json.ofOptInt (session.value .worker_exit_code))),
    ("completed_at", .json (Json.ofOptFloat (session.value .completed_at)))]

/-- What reconciliation writes into a row; `none` where it goes on. -/
def reconciled (lookup : Lookup) (occurrence : Occurrence) : Option OccurrenceChanges :=
  if occurrence.session_id = "" ∨ occurrence.state ∉ [.running, .waitingCapacity] then none
  else
    match lookup occurrence.session_id with
    | .error _ | .ok none => none
    | .ok (some session) =>
        match reconciledState session.status with
        | none => none
        | some state =>
            if state = occurrence.state then none
            else some {
              state := some state
              outcome := some (outcomeOf session)
              error := some (strTake 1000 (session.error.getD "")) }

def reconcileOne (now : Time) (lookup : Lookup) (occurrence : Occurrence) :
    Prog (Except PyError Unit) :=
  match reconciled lookup occurrence with
  | none => pure (.ok ())
  | some changes => writeOccurrence occurrence.occurrence_id now changes

/-- `_reconcile_background`. -/
def reconcileBackground (now : Time) (background_lookup : Option Lookup) :
    Prog (Except PyError Unit) :=
  match background_lookup with
  | none => pure (.ok ())
  | some lookup => do
      match ← Task.ask (Op.listOccurrences none 5000) with
      | .error exc => pure (.error exc)
      | .ok rows => Task.each (reconcileOne now lookup) rows

/-! ## 3. Dispatch -/

/-- What `dispatch` came to: a receipt, with its status if it has one, or an
exception. -/
inductive DispatchResult where
  | receipt (status : Option String)
  | raised (className text : String)

/-- A write of the dispatcher into the row that it was given. -/
structure DispatchWrite where
  now : Time
  worktree : Option Mapping := none
  base_commit : Option String := none

/-- One call of `dispatch`, and the clock behind it. -/
structure Dispatch where
  writes : List DispatchWrite := []
  result : DispatchResult
  now : Time
  accepted_at : Time

abbrev Dispatcher := Schedule → Occurrence → Dispatch

def DispatchWrite.changes (write : DispatchWrite) : OccurrenceChanges where
  state := some .preparing
  worktree := write.worktree
  base_commit := write.base_commit

/-- The writes of a dispatcher; one that fails raises out of it. -/
def runWrites (occurrence_id : String) (writes : List DispatchWrite) : Prog (Except PyError Unit) :=
  Task.each (fun write => writeOccurrence occurrence_id write.now write.changes) writes

/-- `str(exc)` of what the store raises. -/
def excText : PyError → String
  | .keyError key => "'" ++ key ++ "'"
  | .attributeError message | .typeError message | .valueError message | .osError message
  | .raised _ message => message

/-- What is written after `dispatch` returned or raised. -/
def dispatched (schedule : Schedule) (claimed : Occurrence) (accepted_at : Time) :
    DispatchResult → OccurrenceChanges
  | .raised className text =>
      let folded := (casefold text).toList
      { state := some (if contains "worker limit reached".toList folded
            ∨ contains "queue is full".toList folded then .waitingCapacity else .blocked)
        receipt := some [("session_id", .json (.str claimed.session_id)),
          ("dispatch_attempted", .json (.bool true))]
        error := some (strTake 1000 (className ++ ": " ++ text)) }
  | .receipt status =>
      let background_status := casefold (status.getD "running")
      { state := some (if background_status ∈ ["queued", "starting"] then .waitingCapacity
            else .running)
        receipt := some [("accepted", .json (.bool true)), ("accepted_at", .time accepted_at),
          ("session_id", .json (.str claimed.session_id)),
          ("background_status", .json (.str background_status)),
          ("schedule_revision", .json (.int schedule.revision))]
        error := some "" }

/-- What the policy makes of a pending occurrence beside the others in
flight. -/
inductive Verdict where
  | wait | skip | dispatch
  deriving DecidableEq

def verdict (schedule : Schedule) (state : OccurrenceState) (others : List Occurrence) : Verdict :=
  if state = .queued ∧ others ≠ [] then .wait
  else if schedule.coalesce_policy = .allowBounded
      ∧ (others.length : Int) ≥ schedule.max_in_flight then .wait
  else if schedule.coalesce_policy = .skip ∧ others ≠ [] then .skip
  else if schedule.coalesce_policy = .queueOne ∧ state ≠ .queued ∧ others ≠ [] then .wait
  else .dispatch

def claimedDispatch (dispatch : Dispatcher) (schedule : Schedule) (claimed : Occurrence) :
    Prog (Except PyError Unit) := do
  let call := dispatch schedule claimed
  let written ← runWrites claimed.occurrence_id call.writes
  let result :=
    match written with
    | .ok () => call.result
    | .error exc => .raised exc.className (excText exc)
  writeOccurrence claimed.occurrence_id call.now
    (dispatched schedule claimed call.accepted_at result)

def dispatchOne (now : Time) (dispatch : Dispatcher) (occurrence : Occurrence) :
    Prog (Except PyError Unit) := do
  match ← Task.ask (Op.getRevision occurrence.schedule_id occurrence.schedule_revision) with
  | .error _ =>
      writeOccurrence occurrence.occurrence_id now {
        state := some .blocked
        error := some "schedule revision is missing; dispatch stopped safely" }
  | .ok schedule => do
      let inflight ← Task.ask (Op.inflightFor schedule.schedule_id)
      let others := inflight.filter (·.occurrence_id ≠ occurrence.occurrence_id)
      match verdict schedule occurrence.state others with
      | .wait => pure (.ok ())
      | .skip =>
          writeOccurrence occurrence.occurrence_id now {
            state := some .skipped
            outcome := some [("reason", .json (.str "another_occurrence_is_in_flight"))]
            error := some "" }
      | .dispatch => do
          let claimed ← updateOccurrence occurrence.occurrence_id now (some PENDING_STATES)
            { state := some .preparing, error := some "" }
          match claimed with
          | .error exc =>
              pure (if exc.className = "ScheduleConflict" then .ok () else .error exc)
          | .ok claimed => claimedDispatch dispatch schedule claimed

/-- `_dispatch_pending_exclusive`. -/
def dispatchPendingExclusive (now : Time) (dispatch : Dispatcher) : Prog (Except PyError Unit) := do
  match ← Task.ask (Op.listOccurrences (some PENDING_STATES) 1000) with
  | .error exc => pure (.error exc)
  | .ok rows => Task.each (dispatchOne now dispatch) rows

/-- `_dispatch_pending`. -/
def dispatchPending (now : Time) (dispatch : Dispatcher) : Prog (Except PyError Unit) := do
  let entered ← Task.ask Op.lockDispatch
  if entered then do
    let result ← dispatchPendingExclusive now dispatch
    Task.ask Op.unlockDispatch
    pure result
  else pure (.ok ())

/-- `tick`. -/
def tick (env : Env) (now : Time) (dispatch : Dispatcher) (background_lookup : Option Lookup) :
    Prog (Except PyError Unit) := do
  match ← reconcileBackground now background_lookup with
  | .error exc => pure (.error exc)
  | .ok () =>
      match ← claimDue env now with
      | .error exc => pure (.error exc)
      | .ok () => dispatchPending now dispatch

/-! ## 4. The manager -/

/-- `ScheduleManager.create`, with the identity that it draws. -/
def managerCreate (env : Env) (schedule_id : String) (fields : Fields) (creator : String)
    (now : Time) : Prog (Except PyError Unit) :=
  let fields := { fields with
    permission_ceiling := env.canonicalModeName fields.permission_ceiling }
  let built : Except PyError Schedule := do
    if fields.permission_ceiling ∉ ["Safe", "Plan", "Yolo"] then
      throw (.valueError "permission ceiling must be Safe, Plan, or Yolo")
    validateRecurrence env fields.recurrence_kind fields.recurrence_spec fields.timezone
    let first_run ← firstRunAt env fields.recurrence_kind fields.recurrence_spec fields.timezone now
    let definition ← Definition.checked fields
    checkText (strTake 256 creator) "creator" true 256
    pure {
      schedule_id := schedule_id
      definition := definition
      next_run_at := some first_run
      enabled := false
      creator := strTake 256 creator
      revision := 1
      created_at := now
      updated_at := now }
  match built with
  | .error exc => pure (.error exc)
  | .ok schedule => Task.ask (Op.create schedule)

/-- The revision that `pause`, `resume`, `delete` and `update` make of the
schedule they read; `none` where they leave it. -/
def revised (schedule_id : String)
    (change : Schedule → Except PyError (Option (Time × ScheduleChanges))) :
    Prog (Except PyError Schedule) := do
  match ← Task.ask (Op.get schedule_id) with
  | .error exc => pure (.error exc)
  | .ok schedule =>
      match change schedule with
      | .error exc => pure (.error exc)
      | .ok none => pure (.ok schedule)
      | .ok (some (now, changes)) => Task.ask (Op.revise schedule_id schedule.revision now changes)

def pause (schedule_id : String) (now : Time) : Prog (Except PyError Schedule) :=
  revised schedule_id fun schedule =>
    if schedule.enabled then .ok (some (now, { enabled := some false })) else .ok none

def resume (env : Env) (schedule_id confirm_next_run : String) (now : Time) :
    Prog (Except PyError Schedule) :=
  revised schedule_id fun schedule => do
    if schedule.recurrence_kind = .once ∧ schedule.next_run_at = none then
      throw (.valueError "one-shot schedule has already run and cannot be resumed")
    let expected ← formatTimestamp env schedule.next_run_at schedule.timezone
    if confirm_next_run = "" ∨ confirm_next_run ≠ expected then
      throw (.valueError ("schedule remains paused; confirm the displayed next run with "
        ++ "--confirm-next-run " ++ env.strRepr expected))
    pure (if schedule.enabled then none else some (now, { enabled := some true }))

/-- `delete`. The clock is read twice. -/
def delete (schedule_id : String) (clock : Nat → Time) : Prog (Except PyError Schedule) :=
  revised schedule_id fun _ =>
    .ok (some (clock 0, { enabled := some false, deleted_at := some (clock 1) }))

/-- `update`. The clock is read twice. -/
def update (env : Env) (schedule_id : String) (changes : ScheduleChanges) (clock : Nat → Time) :
    Prog (Except PyError Schedule) :=
  revised schedule_id fun schedule => do
    let kind := changes.recurrence_kind.getD schedule.recurrence_kind
    let spec := changes.recurrence_spec.getD schedule.recurrence_spec
    let zone := changes.timezone.getD schedule.timezone
    validateRecurrence env kind spec zone
    let mode := changes.permission_ceiling.map env.canonicalModeName
    if (mode.map fun mode => decide (mode ∉ ["Safe", "Plan", "Yolo"])).getD false then
      throw (.valueError "permission ceiling must be Safe, Plan, or Yolo")
    let next_run ← firstRunAt env kind spec zone (clock 0)
    pure (some (clock 1, { changes with
      permission_ceiling := mode
      next_run_at := some next_run
      enabled := some false
      deleted_at := none }))

/-- `run_now`, with the identity that it draws. -/
def runNow (env : Env) (schedule_id occurrence_id actor : String) (now : Time) :
    Prog (Except PyError Occurrence) := do
  match ← Task.ask (Op.get schedule_id) with
  | .error exc => pure (.error exc)
  | .ok schedule => createManualOccurrence {
      schedule := schedule
      occurrence_id := occurrence_id
      occurrence_key := "manual:" ++ occurrence_id
      scheduled_for := now
      session_id := occurrenceSessionId env occurrence_id
      now := now
      actor := actor
      receipt := [("accepted", .json (.bool true)), ("accepted_at", .time now)] }

/-- The occurrence that a retry inserts. -/
def retryRow (env : Env) (snapshot : Schedule) (original : Occurrence) (occurrence_id_new : String)
    (actor : String) (now : Time) : Occurrence where
  occurrence_id := occurrence_id_new
  schedule_id := snapshot.schedule_id
  schedule_revision := snapshot.revision
  occurrence_key := "retry:" ++ occurrence_id_new
  kind := "retry"
  scheduled_for := now
  created_at := now
  updated_at := now
  state := .awaitingService
  session_id := occurrenceSessionId env occurrence_id_new
  retry_of := original.occurrence_id
  attempt := original.attempt + 1
  receipt := some [("accepted", .json (.bool true)), ("accepted_at", .time now),
    ("accepted_by", .json (.str actor)), ("retry_of", .json (.str original.occurrence_id)),
    ("session_id", .json (.str (occurrenceSessionId env occurrence_id_new)))]

/-- `retry`, with the identity that it draws. -/
def retry (env : Env) (schedule_id occurrence_id occurrence_id_new actor : String) (now : Time) :
    Prog (Except PyError Occurrence) := do
  match ← Task.ask (Op.getOccurrence occurrence_id) with
  | .error exc => pure (.error exc)
  | .ok original =>
      if original.schedule_id ≠ schedule_id then
        pure (.error (.valueError "occurrence does not belong to this schedule"))
      else if original.state ∉ [.failed, .blocked] then
        pure (.error (.valueError "only failed or blocked occurrences may be retried"))
      else
        match ← Task.ask (Op.getRevision schedule_id original.schedule_revision) with
        | .error exc => pure (.error exc)
        | .ok snapshot =>
            if snapshot.deleted then
              pure (.error (.valueError "cannot retry an occurrence from a deleted schedule"))
            else createOccurrence (retryRow env snapshot original occurrence_id_new actor now)

/-! ## 5. The system -/

/-- What the processes of the installation run. -/
inductive Job where
  | tick (now : Time) (dispatch : Dispatcher) (background_lookup : Option Lookup)
  | create (schedule_id : String) (fields : Fields) (creator : String) (now : Time)
  | pause (schedule_id : String) (now : Time)
  | resume (schedule_id confirm_next_run : String) (now : Time)
  | delete (schedule_id : String) (clock : Nat → Time)
  | update (schedule_id : String) (changes : ScheduleChanges) (clock : Nat → Time)
  | runNow (schedule_id occurrence_id actor : String) (now : Time)
  | retry (schedule_id occurrence_id occurrence_id_new actor : String) (now : Time)

def Job.prog (env : Env) : Job → Prog Unit
  | .tick now dispatch lookup => Task.forget (Schedules.tick env now dispatch lookup)
  | .create schedule_id fields creator now =>
      Task.forget (managerCreate env schedule_id fields creator now)
  | .pause schedule_id now => Task.forget (Schedules.pause schedule_id now)
  | .resume schedule_id confirm_next_run now =>
      Task.forget (Schedules.resume env schedule_id confirm_next_run now)
  | .delete schedule_id clock => Task.forget (Schedules.delete schedule_id clock)
  | .update schedule_id changes clock => Task.forget (Schedules.update env schedule_id changes clock)
  | .runNow schedule_id occurrence_id actor now =>
      Task.forget (Schedules.runNow env schedule_id occurrence_id actor now)
  | .retry schedule_id occurrence_id occurrence_id_new actor now =>
      Task.forget (Schedules.retry env schedule_id occurrence_id occurrence_id_new actor now)

def system (env : Env) : System Op Op.Reply Store Job where
  perform := perform env
  job := Job.prog env
  died := died

/-- Any number of schedulers, managers and users on an installation that
started empty. -/
def after (env : Env) (actions : List (Action Job)) : Store :=
  ((system env).run { state := {} } actions).state

end Agenthicc.Schedules
