/-
Agenthicc.Schedules.Store — the tables of the schedule database, and the
reads and transactions of `ScheduleStore` on them.

Each operation is one SQLite read or transaction. `updateOccurrence`,
`createOccurrence`, `createManualOccurrence` and `claimDueOccurrence` are the
methods; where they read back what they wrote, that read is an operation of
its own. The audit table is left out: nothing reads it.
-/
import Agenthicc.Library.Table
import Agenthicc.Library.Tasks
import Agenthicc.Schedules.Recurrence

namespace Agenthicc.Schedules

open Python Background Tasks Tables

def notFound (text : String) : PyError := .raised "ScheduleNotFound" text
def conflict (text : String) : PyError := .raised "ScheduleConflict" text
def integrityError : PyError := .raised "IntegrityError" "constraint failed"

/-! ## 1. Tables -/

structure Store where
  schedules : Table Schedule String Schedule.schedule_id := .empty
  /-- The definition of every revision of a schedule. -/
  revisions : Table Schedule (String × Nat) fun s => (s.schedule_id, s.revision) := .empty
  occurrences : Table Occurrence String Occurrence.occurrence_id := .empty
  /-- The process that holds the dispatch lock. -/
  dispatch_lock : Option Nat := none

/-- The arguments of `update_occurrence` that its callers pass. -/
structure OccurrenceChanges where
  state : Option OccurrenceState := none
  worktree : Option Mapping := none
  base_commit : Option String := none
  receipt : Option Mapping := none
  outcome : Option Mapping := none
  error : Option String := none

def OccurrenceChanges.apply (changes : OccurrenceChanges) (row : Occurrence) : Occurrence :=
  { row with
    state := changes.state.getD row.state
    worktree := changes.worktree.or row.worktree
    base_commit := changes.base_commit.getD row.base_commit
    receipt := changes.receipt.or row.receipt
    outcome := changes.outcome.or row.outcome
    error := changes.error.getD row.error }

/-- The arguments of `revise` that its callers pass. -/
structure ScheduleChanges where
  workflow_name : Option String := none
  prompt : Option String := none
  profile_name : Option String := none
  permission_ceiling : Option String := none
  recurrence_kind : Option RecurrenceKind := none
  recurrence_spec : Option String := none
  timezone : Option String := none
  coalesce_policy : Option CoalescePolicy := none
  max_in_flight : Option Int := none
  next_run_at : Option Time := none
  enabled : Option Bool := none
  deleted_at : Option Time := none

def ScheduleChanges.fields (changes : ScheduleChanges) (f : Fields) : Fields where
  workflow_name := changes.workflow_name.getD f.workflow_name
  prompt := changes.prompt.getD f.prompt
  profile_name := changes.profile_name.getD f.profile_name
  permission_ceiling := changes.permission_ceiling.getD f.permission_ceiling
  recurrence_kind := changes.recurrence_kind.getD f.recurrence_kind
  recurrence_spec := changes.recurrence_spec.getD f.recurrence_spec
  timezone := changes.timezone.getD f.timezone
  coalesce_policy := changes.coalesce_policy.getD f.coalesce_policy
  max_in_flight := changes.max_in_flight.getD f.max_in_flight

/-- The schedule that a revision makes. -/
def ScheduleChanges.revised (changes : ScheduleChanges) (current : Schedule)
    (definition : Definition) (now : Time) : Schedule :=
  { current with
    definition := definition
    next_run_at := changes.next_run_at.or current.next_run_at
    enabled := changes.enabled.getD current.enabled
    deleted_at := changes.deleted_at.or current.deleted_at
    revision := current.revision + 1
    updated_at := now }

/-- The arguments of `claim_due_occurrence`. -/
structure Claim where
  schedule : Schedule
  expected_due_at : Time
  next_run_at : Option Time
  occurrence_id : String
  occurrence_key : String
  session_id : String
  state : OccurrenceState
  now : Time
  coalesce_target_id : String := ""

/-- The schedule row is still the one that the claimer read. -/
def Claim.Current (claim : Claim) (row : Schedule) : Prop :=
  row.revision = claim.schedule.revision ∧ row.next_run_at = some claim.expected_due_at
    ∧ row.enabled = true ∧ row.deleted_at = none

instance (claim : Claim) : DecidablePred claim.Current := fun _ =>
  inferInstanceAs (Decidable (_ ∧ _ ∧ _ ∧ _))

/-- The row that a claim inserts. -/
def Claim.row (claim : Claim) : Occurrence where
  occurrence_id := claim.occurrence_id
  schedule_id := claim.schedule.schedule_id
  schedule_revision := claim.schedule.revision
  occurrence_key := claim.occurrence_key
  kind := "scheduled"
  scheduled_for := claim.expected_due_at
  created_at := claim.now
  updated_at := claim.now
  state := claim.state
  session_id := claim.session_id
  receipt := some [("session_id", .json (.str claim.session_id)), ("claimed_at", .time claim.now)]

/-- The schedule row with its cursor moved on. -/
def Claim.advanced (claim : Claim) (row : Schedule) : Schedule :=
  { row with next_run_at := claim.next_run_at, updated_at := claim.now }

/-- A queued occurrence that takes one more tick. -/
def Claim.coalesced (claim : Claim) (row : Occurrence) : Occurrence :=
  { row with
    coalesced_count := row.coalesced_count + 1
    scheduled_for := claim.expected_due_at
    updated_at := claim.now }

/-- The arguments of `create_manual_occurrence`. -/
structure ManualRequest where
  schedule : Schedule
  occurrence_id : String
  occurrence_key : String
  scheduled_for : Time
  session_id : String
  now : Time
  actor : String
  receipt : Mapping

/-- The row that an admitted request inserts. -/
def ManualRequest.row (request : ManualRequest) (state : OccurrenceState) : Occurrence where
  occurrence_id := request.occurrence_id
  schedule_id := request.schedule.schedule_id
  schedule_revision := request.schedule.revision
  occurrence_key := request.occurrence_key
  kind := "manual"
  scheduled_for := request.scheduled_for
  created_at := request.now
  updated_at := request.now
  state := state
  session_id := request.session_id
  receipt := some (request.receipt ++
    [("scheduler_state",
        .json (.str (if state = .queued then "queued" else "awaiting_service"))),
      ("accepted_by", .json (.str request.actor)),
      ("session_id", .json (.str request.session_id))])

namespace Store

/-! ## 2. Reads -/

/-- `SELECT * … WHERE state IN (…) ORDER BY created_at, occurrence_id LIMIT ?`. -/
def rowsBefore (s : Store) (states : Option (List OccurrenceState)) (limit : Nat) :
    List Occurrence :=
  window Occurrence.le (s.occurrences.rows.filter fun row =>
    match states with
    | none | some [] => true
    | some states => decide (row.state ∈ states)) limit

def listOccurrences (s : Store) (states : Option (List OccurrenceState)) (limit : Nat) :
    Except PyError (List Occurrence) :=
  if 1 ≤ limit ∧ limit ≤ 5000 then .ok (s.rowsBefore states limit)
  else .error (.valueError "occurrence list limit must be between 1 and 5000")

/-- The rows of a schedule in an active state. -/
def active (s : Store) (schedule_id : String) : List Occurrence :=
  s.occurrences.rows.filter fun row =>
    row.schedule_id = schedule_id ∧ row.state ∈ ACTIVE_OCCURRENCE_STATES

def inflightFor (env : Env) (s : Store) (schedule_id : String) : List Occurrence :=
  env.scan (s.active schedule_id)

def Due (now : Time) (schedule : Schedule) : Prop :=
  schedule.enabled = true ∧ schedule.deleted_at = none ∧ ∃ x ∈ schedule.next_run_at, x ≤ now

instance (now : Time) : DecidablePred (Due now) := fun _ =>
  inferInstanceAs (Decidable (_ ∧ _ ∧ _))

def dueSchedules (s : Store) (now : Time) (limit : Nat) : List Schedule :=
  window Schedule.le (s.schedules.rows.filter fun schedule => Due now schedule) limit

def get (s : Store) (schedule_id : String) : Except PyError Schedule :=
  match s.schedules.find? schedule_id with
  | some schedule =>
      if schedule.deleted_at = none then .ok schedule else .error (notFound schedule_id)
  | none => .error (notFound schedule_id)

def getRevision (s : Store) (schedule_id : String) (revision : Nat) : Except PyError Schedule :=
  match s.revisions.find? (schedule_id, revision) with
  | some schedule => .ok schedule
  | none =>
      .error (notFound ("revision " ++ toString revision ++ " of schedule " ++ schedule_id))

def getOccurrence (s : Store) (occurrence_id : String) : Except PyError Occurrence :=
  match s.occurrences.find? occurrence_id with
  | some row => .ok row
  | none => .error (notFound ("occurrence " ++ occurrence_id))

def withKey (s : Store) (occurrence_key : String) : Option Occurrence :=
  s.occurrences.rows.find? fun row => row.occurrence_key = occurrence_key

def getOccurrenceByKey (s : Store) (occurrence_key : String) : Except PyError Occurrence :=
  match s.withKey occurrence_key with
  | some row => .ok row
  | none => .error (notFound ("occurrence key " ++ occurrence_key))

/-! ## 3. Transactions -/

def setRow (s : Store) (row : Occurrence) : Store :=
  { s with occurrences := s.occurrences.set row }

def setSchedule (s : Store) (schedule : Schedule) : Store :=
  { s with schedules := s.schedules.set schedule }

/-- An `INSERT`, under the primary key, the unique key and the foreign key. -/
def insertRow (s : Store) (row : Occurrence) : Except PyError Store :=
  if (s.occurrences.find? row.occurrence_id).isSome ∨ (s.withKey row.occurrence_key).isSome
      ∨ (s.schedules.find? row.schedule_id).isNone then
    .error integrityError
  else .ok (s.setRow row)

/-- `INSERT INTO schedule_revisions`, of `_insert_audit`. -/
def insertRevision (s : Store) (schedule : Schedule) : Except PyError Store :=
  if (s.revisions.find? (schedule.schedule_id, schedule.revision)).isSome then
    .error integrityError
  else .ok { s with revisions := s.revisions.set schedule }

/-- `create`. -/
def create (s : Store) (schedule : Schedule) : Except PyError Store :=
  if (s.schedules.find? schedule.schedule_id).isSome then
    .error (conflict ("schedule already exists: " ++ schedule.schedule_id))
  else
    match (s.setSchedule schedule).insertRevision schedule with
    | .ok s => .ok s
    | .error _ => .error (conflict ("schedule already exists: " ++ schedule.schedule_id))

/-- `revise`. -/
def revise (s : Store) (schedule_id : String) (expected_revision : Nat) (now : Time)
    (changes : ScheduleChanges) : Except PyError (Store × Schedule) := do
  let current ← s.get schedule_id
  if current.revision ≠ expected_revision then
    throw (conflict ("schedule revision changed: expected " ++ toString expected_revision
      ++ ", found " ++ toString current.revision))
  let definition ← Definition.fromFields (changes.fields current.definition.toFields)
  let updated := changes.revised current definition now
  let s ← (s.setSchedule updated).insertRevision updated
  pure (s, updated)

/-- The `UPDATE` of `update_occurrence`. -/
def updateRow (s : Store) (occurrence_id : String) (now : Time)
    (expected_states : Option (List OccurrenceState)) (changes : OccurrenceChanges) :
    Except PyError Store :=
  match s.occurrences.find? occurrence_id with
  | some row =>
      if (expected_states.map fun states => decide (row.state ∈ states)).getD true then
        .ok (s.setRow { changes.apply row with updated_at := now })
      else .error (conflict ("occurrence " ++ occurrence_id ++ " changed before update"))
  | none => .error (conflict ("occurrence " ++ occurrence_id ++ " changed before update"))

/-- The admission of a run-now request under the policy of its schedule. -/
def admission (schedule : Schedule) (inflight_states : List OccurrenceState) :
    Except PyError OccurrenceState :=
  match schedule.coalesce_policy with
  | .skip =>
      if inflight_states ≠ [] then
        .error (.valueError "this schedule already has an in-flight occurrence (policy: skip)")
      else .ok .awaitingService
  | .queueOne =>
      if inflight_states.any (· ∈ [OccurrenceState.awaitingService, .queued]) then
        .error (.valueError "this schedule already has its one pending queued occurrence")
      else if inflight_states.any (· ∈ [OccurrenceState.preparing, .waitingCapacity, .running]) then
        .ok .queued
      else .ok .awaitingService
  | .allowBounded =>
      if (inflight_states.length : Int) ≥ schedule.max_in_flight then
        .error (.valueError "schedule max_in_flight has been reached")
      else .ok .awaitingService

/-- The transaction of `create_manual_occurrence`. -/
def insertManual (s : Store) (request : ManualRequest) : Except PyError Store := do
  let current ← s.get request.schedule.schedule_id
  if current.revision ≠ request.schedule.revision then
    throw (conflict "schedule definition changed before run-now admission")
  let state ← admission request.schedule ((s.active request.schedule.schedule_id).map (·.state))
  s.insertRow (request.row state)

/-- The transaction of `claim_due_occurrence`. -/
def claimDue (s : Store) (claim : Claim) : Except PyError (Store × Occurrence) :=
  let stale :=
    match s.withKey claim.occurrence_key with
    | some existing => .ok (s, existing)
    | none => .error (conflict "schedule cursor changed before due occurrence claim")
  match s.schedules.find? claim.schedule.schedule_id with
  | none => stale
  | some row =>
      if ¬ claim.Current row then stale
      else
        let advanced := s.setSchedule (claim.advanced row)
        if claim.coalesce_target_id ≠ "" then
          match s.occurrences.find? claim.coalesce_target_id with
          | some target =>
              if target.state = .queued then
                .ok (advanced.setRow (claim.coalesced target), claim.coalesced target)
              else .error (conflict "queued occurrence changed before coalescing")
          | none => .error (conflict "queued occurrence changed before coalescing")
        else (advanced.insertRow claim.row).map fun s => (s, claim.row)

end Store

/-! ## 4. Operations -/

inductive Op where
  | dueSchedules (now : Time)
  | inflightFor (schedule_id : String)
  | listOccurrences (states : Option (List OccurrenceState)) (limit : Nat)
  | get (schedule_id : String)
  | getRevision (schedule_id : String) (revision : Nat)
  | getOccurrence (occurrence_id : String)
  | getOccurrenceByKey (occurrence_key : String)
  | create (schedule : Schedule)
  | revise (schedule_id : String) (expected_revision : Nat) (now : Time)
      (changes : ScheduleChanges)
  | updateRow (occurrence_id : String) (now : Time)
      (expected_states : Option (List OccurrenceState)) (changes : OccurrenceChanges)
  | insertRow (row : Occurrence)
  | insertManual (request : ManualRequest)
  | claimDue (claim : Claim)
  /-- Entering the dispatch lock, which is not waited for, and leaving it. -/
  | lockDispatch
  | unlockDispatch

abbrev Op.Reply : Op → Type
  | .dueSchedules _ => List Schedule
  | .inflightFor _ => List Occurrence
  | .listOccurrences _ _ => Except PyError (List Occurrence)
  | .get _ | .getRevision _ _ | .revise _ _ _ _ => Except PyError Schedule
  | .getOccurrence _ | .getOccurrenceByKey _ | .claimDue _ => Except PyError Occurrence
  | .create _ | .updateRow _ _ _ _ | .insertRow _ | .insertManual _ => Except PyError Unit
  | .lockDispatch => Bool
  | .unlockDispatch => Unit

/-- A transaction: it commits, or raises and leaves the store as it was. -/
def commit {α : Type} (s : Store) : Except PyError (Store × α) → Store × Except PyError α
  | .ok (s', a) => (s', .ok a)
  | .error exc => (s, .error exc)

def perform (env : Env) (p : Nat) (s : Store) : (o : Op) → Store × o.Reply
  | .dueSchedules now => (s, s.dueSchedules now 500)
  | .inflightFor schedule_id => (s, s.inflightFor env schedule_id)
  | .listOccurrences states limit => (s, s.listOccurrences states limit)
  | .get schedule_id => (s, s.get schedule_id)
  | .getRevision schedule_id revision => (s, s.getRevision schedule_id revision)
  | .getOccurrence occurrence_id => (s, s.getOccurrence occurrence_id)
  | .getOccurrenceByKey occurrence_key => (s, s.getOccurrenceByKey occurrence_key)
  | .create schedule => commit s ((s.create schedule).map (·, ()))
  | .revise schedule_id expected_revision now changes =>
      commit s (s.revise schedule_id expected_revision now changes)
  | .updateRow occurrence_id now expected_states changes =>
      commit s ((s.updateRow occurrence_id now expected_states changes).map (·, ()))
  | .insertRow row => commit s ((s.insertRow row).map (·, ()))
  | .insertManual request => commit s ((s.insertManual request).map (·, ()))
  | .claimDue claim => commit s (s.claimDue claim)
  | .lockDispatch =>
      match s.dispatch_lock with
      | none => ({ s with dispatch_lock := some p }, true)
      | some _ => (s, false)
  | .unlockDispatch => ({ s with dispatch_lock := none }, ())

/-- The operating system drops the lock of a process that dies. -/
def died (p : Nat) (s : Store) : Store :=
  if s.dispatch_lock = some p then { s with dispatch_lock := none } else s

/-! ## 5. Methods of the store -/

abbrev Prog (α : Type) := Task Op Op.Reply α

/-- `update_occurrence`. -/
def updateOccurrence (occurrence_id : String) (now : Time)
    (expected_states : Option (List OccurrenceState)) (changes : OccurrenceChanges) :
    Prog (Except PyError Occurrence) := do
  match ← Task.ask (Op.updateRow occurrence_id now expected_states changes) with
  | .error exc => pure (.error exc)
  | .ok () => Task.ask (Op.getOccurrence occurrence_id)

/-- What an `INSERT` that broke a constraint goes on with. -/
def onIntegrityError (occurrence_key : String) : Prog (Except PyError Occurrence) := do
  match ← Task.ask (Op.getOccurrenceByKey occurrence_key) with
  | .ok row => pure (.ok row)
  | .error _ => pure (.error (conflict "schedule occurrence was already claimed"))

/-- What the insert of a row is followed by. -/
def afterInsert (occurrence_id occurrence_key : String) :
    Except PyError Unit → Prog (Except PyError Occurrence)
  | .error exc =>
      if exc = integrityError then onIntegrityError occurrence_key else pure (.error exc)
  | .ok () => Task.ask (Op.getOccurrence occurrence_id)

/-- `create_occurrence`. -/
def createOccurrence (row : Occurrence) : Prog (Except PyError Occurrence) := do
  let inserted ← Task.ask (Op.insertRow row)
  afterInsert row.occurrence_id row.occurrence_key inserted

/-- `create_manual_occurrence`. -/
def createManualOccurrence (request : ManualRequest) : Prog (Except PyError Occurrence) := do
  let inserted ← Task.ask (Op.insertManual request)
  afterInsert request.occurrence_id request.occurrence_key inserted

/-- `claim_due_occurrence`. -/
def claimDueOccurrence (claim : Claim) : Prog (Except PyError Occurrence) := do
  match ← Task.ask (Op.claimDue claim) with
  | .error exc =>
      if exc = integrityError then onIntegrityError claim.occurrence_key else pure (.error exc)
  | .ok row => pure (.ok row)

end Agenthicc.Schedules
