/-
Agenthicc.Schedules.BackgroundDispatch — the dispatcher of
`build_background_dispatcher` on the registry of background sessions.

The store of schedules and the registry are two stores: every operation on one
of them is a step of its own, so a process may die between any two. The
section of the supervisor's scheduler lock that ends with the creation of the
session is one operation. Git, the reads of the registry, the admission of a
request and the start of its worker may fail at any time.

Left out: fields of a session that no dispatch reads (title, launch, branch,
parent, base commit), and the recorded launch and request files.
-/
import Agenthicc.Schedules.Scheduler

namespace Agenthicc.Schedules.Installation

open Python Background Tables

/-! ## 1. Sessions and worktrees -/

/-- What dispatch reads of a `BackgroundSession`. -/
structure Session where
  session_id : String
  cwd : String
  workflow_name : String
  intent : String
  requested_mode_name : Option String
  requested_profile_name : String
  idempotency_key : String
  owner_id : String
  task_id : String
  status : SessionStatus := .queued
  deriving DecidableEq

def jsonText : Option Datum → String
  | some (.json (.str s)) => s
  | _ => ""

/-- A `WorktreeRecord`; `other` are the fields that dispatch does not read. -/
structure WorktreeRecord where
  worktree_id : String
  path : String
  branch : String
  other : Mapping

def WorktreeRecord.toMapping (r : WorktreeRecord) : Mapping :=
  ("worktree_id", .json (.str r.worktree_id)) :: ("path", .json (.str r.path))
    :: ("branch", .json (.str r.branch)) :: r.other

/-- `WorktreeRecord.from_mapping`. -/
def WorktreeRecord.fromMapping (value : Mapping) : Except PyError WorktreeRecord :=
  let worktree_id := jsonText (value.lookup "worktree_id")
  if worktree_id = "" then .error (.valueError "worktree record requires worktree_id")
  else .ok {
    worktree_id := worktree_id
    path := jsonText (value.lookup "path")
    branch := jsonText (value.lookup "branch")
    other := value }

/-- Calls of the `WorktreeManager` of a repository, its constructor first. -/
inductive GitCall where
  | manager
  | ensureClean
  | head
  | create (base_commit worktree_id branch : String)

abbrev GitCall.Reply : GitCall → Type
  | .manager | .ensureClean => Unit
  | .head => String
  -- The path of the worktree, and the other fields of its record.
  | .create _ _ _ => String × Mapping

/-- The arguments of `supervisor.submit`. -/
structure Submission where
  intent : String
  workflow_name : String
  cwd : String
  session_id : String
  set_overrides : List String
  task_id : String
  mode_name : Option String
  idempotency_key : String
  requested_profile_name : String

/-- The schedules' platform, and everything around the dispatcher by the number
of operations before. -/
structure Site where
  env : Env
  uuid5_hex : ∀ name_space name, env.uuid5 name_space name ≠ ""
  /-- The repository of a schedule, which all its revisions share. -/
  repository_root : String → String
  /-- `str(Path(…).resolve())`. -/
  resolve : String → String
  owner_id : String
  queue_enabled : Bool
  time : Nat → Time
  git : Nat → String → (call : GitCall) → Except PyError call.Reply
  /-- What a read of the registry raises. -/
  unreadable : Nat → Option PyError
  /-- What keeps a new request out: no capacity, a full queue, an `OSError`. -/
  admission : Nat → List Session → Except PyError Unit
  /-- What the start of a worker comes to. -/
  launch : Nat → Session → Except PyError SessionStatus

/-! ## 2. The two stores -/

/-- What a dispatch did for an occurrence, newest first. -/
inductive Event where
  | submitted (occurrence_id : String)
  /-- `store.create`, with the session that was accepted. -/
  | created (occurrence_id : String) (session : Session)
  /-- The occurrence was marked as one that could not be dispatched. -/
  | failed (occurrence_id : String)
  deriving DecidableEq

structure State where
  store : Store := {}
  sessions : Table Session String Session.session_id := .empty
  ticks : Nat := 0
  log : List Event := []

variable (site : Site)

/-- The profile of a request: its own, or the last override that names one. -/
def Submission.profile (r : Submission) : String :=
  if r.requested_profile_name ≠ "" then r.requested_profile_name
  else
    let named := r.set_overrides.reverse.find? fun override =>
      match override.splitOn "=" with
      | key :: _ :: _ => strip key.toList = "execution.profile".toList
      | _ => false
    match named with
    | some override =>
        let value := strip (("=".intercalate (override.splitOn "=").tail).toList)
        strTake 128 (String.ofList ((value.dropWhile (· ∈ ['"', '\''])).reverse.dropWhile
          (· ∈ ['"', '\''])).reverse)
    | none => ""

/-- The session that `submit` creates. -/
def Submission.session (r : Submission) : Session where
  session_id := r.session_id
  cwd := site.resolve r.cwd
  workflow_name := r.workflow_name
  intent := r.intent
  requested_mode_name := r.mode_name.map (strTake 128)
  requested_profile_name := strTake 128 r.profile
  idempotency_key := strTake 256 (String.ofList (strip r.idempotency_key.toList))
  owner_id := strTake 256 site.owner_id
  task_id := r.task_id

/-- The checks of `submit` on its arguments. -/
def Submission.validate (r : Submission) : Except PyError Unit := do
  if strip r.intent.toList = [] then throw (.valueError "Background intent must not be empty")
  if r.idempotency_key.length > 256 then
    throw (.valueError "idempotency_key must be a string of at most 256 characters")
  if r.requested_profile_name.length > 128 then
    throw (.valueError "requested_profile_name must be a string of at most 128 characters")

/-- `_existing_idempotent_request`. -/
def Submission.existing (r : Submission) (sessions : List Session) :
    Except PyError (Option Session) :=
  let key := String.ofList (strip r.idempotency_key.toList)
  if key = "" then .ok none
  else
    match sessions.find? fun s => s.idempotency_key = key ∧ s.owner_id = site.owner_id with
    | none => .ok none
    | some s =>
        if s.cwd ≠ site.resolve r.cwd ∨ s.intent ≠ r.intent ∨ s.workflow_name ≠ r.workflow_name
            ∨ s.requested_mode_name ≠ r.mode_name ∨ s.requested_profile_name ≠ r.profile then
          .error (.valueError "idempotency key was already used for a different background request")
        else .ok (some s)

/-- What the section of the scheduler lock comes to: a session that was there,
or one that is to be created. -/
inductive Acceptance where
  | existing (session : Session)
  | new (session : Session)

def Submission.accepted (r : Submission) (s : State) : Except PyError Acceptance := do
  r.validate
  match ← r.existing site s.sessions.rows with
  | some session => pure (.existing session)
  | none =>
      if (s.sessions.find? r.session_id).isSome then
        throw (.valueError ("Background session already exists: " ++ r.session_id))
      site.admission s.ticks s.sessions.rows
      pure (.new (r.session site))

/-! ## 3. Operations -/

inductive Op where
  | schedule (o : Schedules.Op)
  | time
  | git (occurrence_id repository : String) (call : GitCall)
  /-- `background_store.get(…, include_deleted=True)` before anything is
  submitted. -/
  | lookup (occurrence_id session_id : String)
  /-- `submit`, up to the creation of the session. -/
  | accept (r : Submission)
  /-- The start of its worker, by `_launch` or `_dispatch_pending_locked`. -/
  | launch (session : Session)
  /-- `store.get(…, include_deleted=True)` of an accepted session. -/
  | reread (occurrence_id session_id : String)
  /-- The `update_occurrence` that marks an occurrence as not dispatched. -/
  | fail (occurrence_id : String) (now : Time) (changes : OccurrenceChanges)
  /-- A write of the registry by anyone else. -/
  | write (session_id : String) (change : Session → Session)
  /-- `store.create` by anyone else. -/
  | createOther (session : Session)

abbrev Op.Reply : Op → Type
  | .schedule o => o.Reply
  | .time => Time
  | .git _ _ call => Except PyError call.Reply
  | .lookup _ _ => Option Session
  | .accept _ => Except PyError Acceptance
  | .launch _ => Except PyError Session
  | .reread _ _ => Except PyError Session
  | .fail _ _ _ => Except PyError Unit
  | .write _ _ | .createOther _ => Unit

namespace State

/-- A change of the record of a session, which keeps its identity. -/
def update (s : State) (session_id : String) (change : Session → Session) : State :=
  match s.sessions.find? session_id with
  | none => s
  | some session =>
      { s with sessions := s.sessions.set { change session with session_id := session_id } }

def accept (s : State) (r : Submission) : State × Except PyError Acceptance :=
  let submitted := { s with log := .submitted r.task_id :: s.log }
  match r.accepted site s with
  | .error exc => (submitted, .error exc)
  | .ok (.existing session) => (submitted, .ok (.existing session))
  | .ok (.new session) =>
      ({ submitted with
          sessions := s.sessions.set session
          log := .created r.task_id session :: submitted.log }, .ok (.new session))

def launch (s : State) (session : Session) : State × Except PyError Session :=
  match site.launch s.ticks session with
  | .error exc => (s, .error exc)
  | .ok status =>
      (s.update session.session_id fun s => { s with status := status },
        .ok { session with status := status })

def reread (s : State) (session_id : String) : Except PyError Session :=
  match site.unreadable s.ticks, s.sessions.find? session_id with
  | some exc, _ => .error exc
  | none, some session => .ok session
  | none, none => .error (.raised "SessionNotFound" session_id)

def createOther (s : State) (session : Session) : State :=
  match s.sessions.find? session.session_id with
  | some existing =>
      if existing.status = .deleted then { s with sessions := s.sessions.set session } else s
  | none => { s with sessions := s.sessions.set session }

end State

/-- What an operation does, apart from the clock. -/
def apply (p : Nat) (s : State) : (o : Op) → State × o.Reply
  | .schedule o =>
      ({ s with store := (Schedules.perform site.env p s.store o).1 },
        (Schedules.perform site.env p s.store o).2)
  | .time => (s, site.time s.ticks)
  | .git _ repository call => (s, site.git s.ticks repository call)
  | .lookup _ session_id => (s, (s.reread site session_id).toOption)
  | .accept r => s.accept site r
  | .launch session => s.launch site session
  | .reread _ session_id => (s, s.reread site session_id)
  | .fail occurrence_id now changes =>
      ({ s with
          store := (Schedules.perform site.env p s.store (.updateRow occurrence_id now none changes)).1
          log := .failed occurrence_id :: s.log },
        (Schedules.perform site.env p s.store (.updateRow occurrence_id now none changes)).2)
  | .write session_id change => (s.update session_id change, ())
  | .createOther session => (s.createOther session, ())

def perform (p : Nat) (s : State) (o : Op) : State × o.Reply :=
  apply site p { s with ticks := s.ticks + 1 } o

/-! ## 4. Dispatch -/

abbrev Prog (α : Type) := Tasks.Task Op Op.Reply α

/-- A program of the store of schedules. -/
def lift {α : Type} : Schedules.Prog α → Prog α
  | .done a => .done a
  | .call o next => .call (.schedule o) fun r => lift (next r)

/-- A call, and what follows it unless it raises. -/
def andThen {α β : Type} (call : Prog (Except PyError α)) (next : α → Prog (Except PyError β)) :
    Prog (Except PyError β) := do
  match ← call with
  | .error exc => pure (.error exc)
  | .ok a => next a

def git (occurrence_id repository : String) (call : GitCall) : Prog (Except PyError call.Reply) :=
  Tasks.Task.ask (Op.git occurrence_id repository call)

def preparing (worktree : Option Mapping) (base_commit : String) : OccurrenceChanges where
  state := some .preparing
  worktree := worktree
  base_commit := some base_commit

/-- `store.update_occurrence(…, state=PREPARING)`. -/
def prepared (occurrence_id : String) (worktree : Option Mapping) (base_commit : String) :
    Prog (Except PyError Occurrence) := do
  let now ← Tasks.Task.ask Op.time
  lift (updateOccurrence occurrence_id now none (preparing worktree base_commit))

/-- `if not base_commit:`. -/
def withBase (repository : String) (isolated : Bool) (occurrence : Occurrence) :
    Prog (Except PyError Occurrence) :=
  if occurrence.base_commit ≠ "" then pure (.ok occurrence)
  else
    andThen (if isolated then git occurrence.occurrence_id repository .ensureClean
      else pure (.ok ())) fun _ =>
    andThen (git occurrence.occurrence_id repository .head) fun base_commit =>
    prepared occurrence.occurrence_id none base_commit

/-- The `worktree_id` of an occurrence. -/
def worktreeIdentity (schedule : Schedule) (occurrence : Occurrence) : String :=
  strTake 16 (site.env.uuid5 SCHEDULE_NAMESPACE
    (schedule.schedule_id ++ ":" ++ occurrence.occurrence_id))

def worktreeBranch (schedule : Schedule) (occurrence : Occurrence) : String :=
  "agenthicc/schedule-" ++ strTake 12 schedule.schedule_id ++ "/"
    ++ strTake 20 occurrence.occurrence_id

/-- The worktree of an occurrence, recorded or new. -/
def withWorktree (repository : String) (schedule : Schedule) (occurrence : Occurrence) :
    Prog (Except PyError WorktreeRecord) :=
  match occurrence.worktree with
  | some value => pure (WorktreeRecord.fromMapping value)
  | none =>
      let worktree_id := worktreeIdentity site schedule occurrence
      let branch := worktreeBranch schedule occurrence
      andThen (git occurrence.occurrence_id repository
        (.create occurrence.base_commit worktree_id branch)) fun created =>
      let record : WorktreeRecord :=
        { worktree_id := worktree_id, path := created.1, branch := branch, other := created.2 }
      andThen (prepared occurrence.occurrence_id (some record.toMapping) occurrence.base_commit)
        fun _ => pure (.ok record)

/-- The directory that the session works in. -/
def workingDirectory (schedule : Schedule) (occurrence : Occurrence) :
    Prog (Except PyError String) :=
  let repository := site.resolve (site.repository_root schedule.schedule_id)
  andThen (git occurrence.occurrence_id repository .manager) fun _ =>
  if casefold schedule.definition.permission_ceiling ≠ "plan" then
    andThen (withBase repository true occurrence) fun occurrence =>
    andThen (withWorktree site repository schedule occurrence) fun record =>
    pure (.ok record.path)
  else
    andThen (withBase repository false occurrence) fun _ => pure (.ok repository)

/-- The request of an occurrence. -/
def submission (schedule : Schedule) (occurrence_id working_directory : String) : Submission where
  intent := schedule.definition.prompt
  workflow_name := schedule.definition.workflow_name
  cwd := working_directory
  session_id := occurrenceSessionId site.env occurrence_id
  set_overrides := ["execution.profile=" ++ schedule.definition.profile_name]
  task_id := occurrence_id
  mode_name := some schedule.definition.permission_ceiling
  idempotency_key := "schedule:" ++ schedule.schedule_id ++ ":" ++ occurrence_id
  requested_profile_name := schedule.definition.profile_name

/-- `submit`, after the session was accepted. -/
def started (occurrence_id : String) : Acceptance → Prog (Except PyError Session)
  | .existing session => pure (.ok session)
  | .new session =>
      if site.queue_enabled then do
        -- A dispatch that fails is logged; the request is in the queue.
        let _ ← Tasks.Task.ask (Op.launch session)
        Tasks.Task.ask (Op.reread occurrence_id session.session_id)
      else Tasks.Task.ask (Op.launch session)

def submit (r : Submission) : Prog (Except PyError Session) :=
  andThen (Tasks.Task.ask (Op.accept r)) (started site r.task_id)

/-- The session is the one of the request. -/
def Session.serves (session : Session) (schedule : Schedule) (cwd : String) : Prop :=
  session.cwd = cwd ∧ session.workflow_name = schedule.definition.workflow_name
    ∧ session.intent = schedule.definition.prompt
    ∧ session.requested_mode_name = some schedule.definition.permission_ceiling
    ∧ session.requested_profile_name = schedule.definition.profile_name

instance (session : Session) (schedule : Schedule) (cwd : String) :
    Decidable (session.serves schedule cwd) := inferInstanceAs (Decidable (_ ∧ _ ∧ _ ∧ _ ∧ _))

/-- `dispatch`: the status of the session. -/
def dispatch (schedule : Schedule) (occurrence : Occurrence) :
    Prog (Except PyError SessionStatus) :=
  andThen (workingDirectory site schedule occurrence) fun working_directory => do
    let expected_session := occurrenceSessionId site.env occurrence.occurrence_id
    if occurrence.session_id ≠ "" ∧ occurrence.session_id ≠ expected_session then
      pure (.error (.raised "RuntimeError" "schedule occurrence session identity failed validation"))
    else do
      match ← Tasks.Task.ask (Op.lookup occurrence.occurrence_id expected_session) with
      | some existing =>
          if existing.serves schedule (site.resolve working_directory) then
            pure (.ok existing.status)
          else
            pure (.error (.raised "RuntimeError"
              "deterministic background session ID is occupied by another request"))
      | none =>
          andThen (submit site (submission site schedule occurrence.occurrence_id working_directory))
            fun session => pure (.ok session.status)

/-- The update of an occurrence that could not be dispatched. -/
def reportFailure (occurrence_id : String) (now : Time) (changes : OccurrenceChanges) :
    Prog (Except PyError Unit) := do
  match ← Tasks.Task.ask (Op.fail occurrence_id now changes) with
  | .error exc => pure (.error exc)
  | .ok () => do
      let updated ← Tasks.Task.ask (Op.schedule (.getOccurrence occurrence_id))
      pure (updated.map fun _ => ())

/-- The dispatch of a claimed occurrence, and its receipt. -/
def claimedDispatch (schedule : Schedule) (claimed : Occurrence) : Prog (Except PyError Unit) := do
  let result ← dispatch site schedule claimed
  let now ← Tasks.Task.ask Op.time
  match result with
  | .error exc =>
      reportFailure claimed.occurrence_id now
        (dispatched schedule claimed now (.raised exc.className (excText exc)))
  | .ok status => do
      let accepted_at ← Tasks.Task.ask Op.time
      lift (writeOccurrence claimed.occurrence_id now
        (dispatched schedule claimed accepted_at (.receipt (some (StrEnum.value status)))))

/-- A row of `_dispatch_pending_exclusive`. -/
def dispatchOne (now : Time) (occurrence : Occurrence) : Prog (Except PyError Unit) := do
  match ← Tasks.Task.ask (Op.schedule
      (.getRevision occurrence.schedule_id occurrence.schedule_revision)) with
  | .error _ =>
      reportFailure occurrence.occurrence_id now {
        state := some .blocked
        error := some "schedule revision is missing; dispatch stopped safely" }
  | .ok schedule => do
      let inflight ← Tasks.Task.ask (Op.schedule (.inflightFor schedule.schedule_id))
      let others := inflight.filter (·.occurrence_id ≠ occurrence.occurrence_id)
      match verdict schedule occurrence.state others with
      | .wait => pure (.ok ())
      | .skip =>
          lift (writeOccurrence occurrence.occurrence_id now {
            state := some .skipped
            outcome := some [("reason", .json (.str "another_occurrence_is_in_flight"))]
            error := some "" })
      | .dispatch => do
          let claimed ← lift (updateOccurrence occurrence.occurrence_id now (some PENDING_STATES)
            { state := some .preparing, error := some "" })
          match claimed with
          | .error exc =>
              pure (if exc.className = "ScheduleConflict" then .ok () else .error exc)
          | .ok claimed => claimedDispatch site schedule claimed

/-- `_dispatch_pending_exclusive`. -/
def dispatchPendingExclusive (now : Time) : Prog (Except PyError Unit) :=
  andThen (Tasks.Task.ask (Op.schedule (.listOccurrences (some PENDING_STATES) 1000))) fun rows =>
  Tasks.Task.each (dispatchOne site now) rows

/-- `_dispatch_pending`. -/
def dispatchPending (now : Time) : Prog (Except PyError Unit) := do
  let entered ← Tasks.Task.ask (Op.schedule .lockDispatch)
  if entered then do
    let result ← dispatchPendingExclusive site now
    Tasks.Task.ask (Op.schedule .unlockDispatch)
    pure result
  else pure (.ok ())

/-- `tick`, whatever `background_lookup` answers. -/
def tick (now : Time) (background_lookup : Option Lookup) : Prog (Except PyError Unit) :=
  andThen (lift (reconcileBackground now background_lookup)) fun _ =>
  andThen (lift (claimDue site.env now)) fun _ =>
  dispatchPending site now

/-! ## 5. The system -/

/-- The jobs that dispatch nothing. -/
def Manages : Schedules.Job → Prop
  | .tick _ _ _ => False
  | _ => True

inductive Job where
  | tick (now : Time) (background_lookup : Option Lookup)
  | manage (job : Schedules.Job) (h : Manages job)
  /-- Anything else that happens to a session: it runs, ends, is deleted. -/
  | write (session_id : String) (change : Session → Session)
  /-- A session of someone else. -/
  | createOther (session : Session)

def Job.prog : Job → Prog Unit
  | .tick now lookup => Tasks.Task.forget (Installation.tick site now lookup)
  | .manage job _ => lift (job.prog site.env)
  | .write session_id change => Tasks.Task.ask (Op.write session_id change)
  | .createOther session => Tasks.Task.ask (Op.createOther session)

def died (p : Nat) (s : State) : State := { s with store := Schedules.died p s.store }

def system : Tasks.System Op Op.Reply State Job where
  perform := perform site
  job := Job.prog site
  died := died

/-- Any number of schedulers, users and background sessions on a site that
started empty. -/
def after (actions : List (Tasks.Action Job)) : State :=
  ((system site).run { state := {} } actions).state

end Agenthicc.Schedules.Installation
