/-
Agenthicc.Background.Model — the background-session record and the three
functions that every stored copy of it goes through: `evolve`, `to_dict` and
`from_mapping`.

The record has some seventy fields of a few kinds. `FieldKind` says once how a
kind is evolved, written and read back; `Field` has one constructor for each
field of the source, in the order `to_dict` writes them, and `Field.kind` gives
its kind with its own default and limit. What a single field does differently
is in `evolve` and `fromMapping` themselves: the effective mode and its
application status are coupled, a legacy `pid` stands in for `worker_pid`, and
the attempt a mode was applied to has a default of its own.

A member of a string enumeration is the string it stands for wherever a value
of any type may be given. `none` in place of a record is the exception a
reader or `evolve` raises (a record without an ID, or an integer that no float
holds).
-/
import Agenthicc.Python.Dict
import Agenthicc.Python.Builtins

namespace Agenthicc.Background

open Python

/-! ## 1. Vocabularies -/

/-- An enumeration whose members are strings. -/
class StrEnum (α : Type) where
  members : List α
  value : α → String
  complete : ∀ a, a ∈ members
  injective : ∀ a b, value a = value b → a = b

/-- `Enum(text)`; `none` is its `ValueError`. -/
def StrEnum.ofValue? {α : Type} [StrEnum α] (text : String) : Option α :=
  (StrEnum.members : List α).find? fun a => StrEnum.value a = text

@[simp] theorem StrEnum.ofValue?_value {α : Type} [StrEnum α] (a : α) :
    StrEnum.ofValue? (StrEnum.value a) = some a := by
  cases h : (StrEnum.members : List α).find? fun b => StrEnum.value b = StrEnum.value a with
  | none =>
    have hnone := List.find?_eq_none.mp h a (StrEnum.complete a)
    simp at hnone
  | some b =>
    have hb := List.find?_some h
    rw [decide_eq_true_eq] at hb
    rw [StrEnum.ofValue?, h, StrEnum.injective b a hb]

inductive SessionStatus where
  | queued | starting | running | waitingApproval | waitingInput | retrying | cancelling
  | completed | failed | cancelled | orphaned | archived | deleted
  deriving DecidableEq

instance : StrEnum SessionStatus where
  members := [.queued, .starting, .running, .waitingApproval, .waitingInput, .retrying,
    .cancelling, .completed, .failed, .cancelled, .orphaned, .archived, .deleted]
  value
    | .queued => "queued"
    | .starting => "starting"
    | .running => "running"
    | .waitingApproval => "waiting_approval"
    | .waitingInput => "waiting_input"
    | .retrying => "retrying"
    | .cancelling => "cancelling"
    | .completed => "completed"
    | .failed => "failed"
    | .cancelled => "cancelled"
    | .orphaned => "orphaned"
    | .archived => "archived"
    | .deleted => "deleted"
  complete a := by cases a <;> decide
  injective a b h := by cases a <;> cases b <;> first | rfl | exact absurd h (by decide)

/-- Resolution state for a session's requested/effective runtime mode. -/
inductive ModeApplicationStatus where
  | pending | applied | failed
  deriving DecidableEq

instance : StrEnum ModeApplicationStatus where
  members := [.pending, .applied, .failed]
  value
    | .pending => "pending"
    | .applied => "applied"
    | .failed => "failed"
  complete a := by cases a <;> decide
  injective a b h := by cases a <;> cases b <;> first | rfl | exact absurd h (by decide)

/-- Small stable priority vocabulary for background admission. -/
inductive QueuePriority where
  | urgent | normal | low
  deriving DecidableEq

instance : StrEnum QueuePriority where
  members := [.urgent, .normal, .low]
  value
    | .urgent => "urgent"
    | .normal => "normal"
    | .low => "low"
  complete a := by cases a <;> decide
  injective a b h := by cases a <;> cases b <;> first | rfl | exact absurd h (by decide)

/-- Durable scheduler state, separate from the worker lifecycle status. -/
inductive QueueDispatchState where
  | legacy | pending | claimed | launched | started | cancelled | failed
  deriving DecidableEq

instance : StrEnum QueueDispatchState where
  members := [.legacy, .pending, .claimed, .launched, .started, .cancelled, .failed]
  value
    | .legacy => "legacy"
    | .pending => "pending"
    | .claimed => "claimed"
    | .launched => "launched"
    | .started => "started"
    | .cancelled => "cancelled"
    | .failed => "failed"
  complete a := by cases a <;> decide
  injective a b h := by cases a <;> cases b <;> first | rfl | exact absurd h (by decide)

/-- `_status`, `_queue_priority`, `_queue_dispatch_state` and
`_mode_application_status`: the member a value names, or a default. -/
def enumOr {α : Type} [StrEnum α] (dflt : α) : Json → α
  | .str text => (StrEnum.ofValue? text).getD dflt
  | _ => dflt

/-- The member a keyword argument names, or a default; the current one where
no argument is given. -/
def evolvedEnum (α : Type) [StrEnum α] (dflt cur : α) (v : Option Json) : α :=
  (v.map (enumOr dflt)).getD cur

def readEnum (α : Type) [StrEnum α] (dflt : α) (v : Option Json) : α :=
  enumOr dflt (v.getD .null)

def dumpEnum (α : Type) [StrEnum α] (a : α) : Json := .str (StrEnum.value a)

def ACTIVE_STATUSES : List SessionStatus :=
  [.queued, .starting, .running, .waitingApproval, .waitingInput, .retrying, .cancelling]

def ATTEMPT_HISTORY_LIMIT : Nat := 16

/-- The row of `_TRANSITIONS` for a status. -/
def transitionsFrom : SessionStatus → List SessionStatus
  | .queued => [.starting, .cancelling, .cancelled, .orphaned, .failed]
  | .starting => [.queued, .running, .cancelling, .orphaned, .failed]
  | .running =>
      [.waitingApproval, .waitingInput, .retrying, .cancelling, .completed, .failed, .orphaned]
  | .waitingApproval => [.running, .cancelling]
  | .waitingInput => [.running, .cancelling]
  | .retrying => [.queued, .starting, .cancelling, .orphaned, .failed]
  | .cancelling => [.cancelled, .orphaned]
  | .completed => [.starting, .archived]
  | .failed => [.retrying, .starting, .archived]
  | .cancelled => [.starting, .archived]
  | .orphaned => [.starting, .cancelling, .archived]
  | .archived => [.starting, .completed, .failed]
  | .deleted => []

/-- `legal_transition`. -/
def legalTransition (current target : SessionStatus) : Bool :=
  (transitionsFrom current).contains target

/-! ## 2. Values -/

/-- `float(value) if isinstance(value, (int, float)) and not isinstance(value, bool)`;
the inner `none` is the other branch, the outer one `OverflowError`. -/
def asFloat (py : Interp) : Json → Option (Option PyFloat)
  | .int n => (py.floatOfInt n).map some
  | .float x => some (some x)
  | _ => some none

/-- `_count`. -/
def countOf : Json → Int
  | .int n => if 0 < n then n else 0
  | _ => 0

/-- `_amount`. -/
def amountOf (py : Interp) (v : Json) : Option PyFloat :=
  (asFloat py v).map fun
    | some x => if x.isPositiveFinite then x else .zero
    | none => .zero

/-- `items[-n:]`. -/
def lastN {α : Type} (n : Nat) (items : List α) : List α := items.drop (items.length - n)

/-- `value[:n] if isinstance(value, str) else ""`. -/
def boundedText (n : Nat) : Json → String
  | .str s => strTake n s
  | _ => ""

/-- `value[:n] if isinstance(value, str) else None`. -/
def optBoundedText (n : Nat) : Json → Option String
  | .str s => some (strTake n s)
  | _ => none

/-- `value if isinstance(value, int) and not isinstance(value, bool) else None`. -/
def intOf : Json → Option Int
  | .int n => some n
  | _ => none

def Json.ofOptInt : Option Int → Json
  | none => .null
  | some n => .int n

def Json.ofOptFloat : Option PyFloat → Json
  | none => .null
  | some x => .float x

def Json.ofOptBool : Option Bool → Json
  | none => .null
  | some b => .bool b

/-- A mode name counts only while it is applied, and an applied state needs
one. -/
def coupleMode (mode_name : String) (status : ModeApplicationStatus) :
    String × ModeApplicationStatus :=
  if status ≠ .applied then ("", status)
  else if mode_name = "" then ("", .pending)
  else (mode_name, .applied)

/-- The application status of a record that has none of its own. -/
def legacyModeStatus (mode_name : String) : ModeApplicationStatus :=
  if mode_name = "" then .pending else .applied

/-- Bounded summary of one finished attempt for a background session. -/
structure BackgroundAttempt where
  attempt : Int
  status : SessionStatus
  started_at : Option PyFloat := none
  completed_at : Option PyFloat := none
  error : Option String := none
  failure_category : String := ""
  exit_reason : String := ""
  worker_exit_code : Option Int := none
  latest_activity : String := ""
  requested_mode_name : Option String := none
  mode_name : String := ""
  mode_application_status : ModeApplicationStatus := .pending
  mode_application_error : String := ""
  deriving DecidableEq

namespace BackgroundAttempt

def fromMapping (py : Interp) (value : Json) : Option BackgroundAttempt := do
  let mode_name := boundedText 128 (value.get "mode_name")
  let mode := coupleMode mode_name
    (enumOr (legacyModeStatus mode_name) (value.get "mode_application_status"))
  let started_at ← asFloat py (value.get "started_at")
  let completed_at ← asFloat py (value.get "completed_at")
  return {
    attempt := (intOf (value.getD "attempt" (.int 0))).getD 0
    status := enumOr .failed (value.get "status")
    started_at := started_at
    completed_at := completed_at
    error := optBoundedText 2000 (value.get "error")
    failure_category := boundedText 128 (value.get "failure_category")
    exit_reason := boundedText 128 (value.get "exit_reason")
    worker_exit_code := intOf (value.get "worker_exit_code")
    latest_activity := boundedText 512 (value.get "latest_activity")
    requested_mode_name := optBoundedText 128 (value.get "requested_mode_name")
    mode_name := mode.1
    mode_application_status := mode.2
    mode_application_error := boundedText 1024 (value.get "mode_application_error") }

def toDict (a : BackgroundAttempt) : Json :=
  .obj [
    ("attempt", .int a.attempt),
    ("status", .str (StrEnum.value a.status)),
    ("started_at", Json.ofOptFloat a.started_at),
    ("completed_at", Json.ofOptFloat a.completed_at),
    ("error", .ofOptStr a.error),
    ("failure_category", .str a.failure_category),
    ("exit_reason", .str a.exit_reason),
    ("worker_exit_code", Json.ofOptInt a.worker_exit_code),
    ("latest_activity", .str a.latest_activity),
    ("requested_mode_name", .ofOptStr a.requested_mode_name),
    ("mode_name", .str a.mode_name),
    ("mode_application_status", .str (StrEnum.value a.mode_application_status)),
    ("mode_application_error", .str a.mode_application_error)]

end BackgroundAttempt

/-- One durable priority audit entry for a background session. -/
structure PriorityChange where
  previous : QueuePriority
  current : QueuePriority
  changed_at : PyFloat
  changed_by : String := "local-user"
  deriving DecidableEq

namespace PriorityChange

def fromMapping (py : Interp) (value : Json) : Option PriorityChange := do
  let changed_at ← asFloat py (value.get "changed_at")
  return {
    previous := enumOr .normal (value.get "previous")
    current := enumOr .normal (value.get "current")
    changed_at := changed_at.getD .zero
    changed_by := (optBoundedText 128 (value.get "changed_by")).getD "local-user" }

def toDict (c : PriorityChange) : Json :=
  .obj [
    ("previous", .str (StrEnum.value c.previous)),
    ("current", .str (StrEnum.value c.current)),
    ("changed_at", .float c.changed_at),
    ("changed_by", .str c.changed_by)]

end PriorityChange

/-- An element of a list or tuple given to `evolve`. -/
inductive Item where
  | json (v : Json)
  | attempt (a : BackgroundAttempt)
  | change (c : PriorityChange)
  deriving DecidableEq

/-- A keyword argument of `evolve`: a plain value, or a list or tuple that
holds records. -/
inductive Arg where
  | json (v : Json)
  | items (items : List Item)
  deriving DecidableEq

/-- The elements of a value that is a list or tuple. -/
def Arg.items? : Arg → Option (List Item)
  | .json (.arr xs) => some (xs.map .json)
  | .json _ => none
  | .items xs => some xs

/-- The plain value; a list of records is none of the other types. -/
def Arg.plain : Arg → Json
  | .json v => v
  | .items _ => .arr []

def Item.str? : Item → Option String
  | .json (.str s) => some s
  | _ => none

/-- `_string_tuple`. -/
def stringTuple (v : Arg) : List String :=
  match v.items? with
  | some xs => if xs.all fun x => x.str?.isSome then xs.filterMap Item.str? else []
  | none => []

/-- The attempt an element stands for; the outer `none` is `OverflowError`. -/
def Item.attempt? (py : Interp) : Item → Option (Option BackgroundAttempt)
  | .attempt a => some (some a)
  | .json (.obj kvs) => (BackgroundAttempt.fromMapping py (.obj kvs)).map some
  | _ => some none

def Item.change? (py : Interp) : Item → Option (Option PriorityChange)
  | .change c => some (some c)
  | .json (.obj kvs) => (PriorityChange.fromMapping py (.obj kvs)).map some
  | _ => some none

/-! ## 3. Kinds of fields -/

inductive FieldKind where
  /-- `_str`; the default is the one of `from_mapping`. -/
  | str (dflt : String)
  /-- `_bounded_str`. -/
  | bounded (limit : Nat)
  | optStr
  | optBounded (limit : Nat)
  | float
  /-- `_clearable_float`. -/
  | optFloat
  | int
  | optInt
  | bool
  | optBool
  | strings (limit : Option Nat)
  | count
  | amount
  | status
  | priority
  | dispatchState
  | modeStatus
  | attempts
  | priorityChanges

namespace FieldKind

abbrev Value : FieldKind → Type
  | .str _ | .bounded _ => String
  | .optStr | .optBounded _ => Option String
  | .float | .amount => PyFloat
  | .optFloat => Option PyFloat
  | .int | .count => Int
  | .optInt => Option Int
  | .bool => Bool
  | .optBool => Option Bool
  | .strings _ => List String
  | .status => SessionStatus
  | .priority => QueuePriority
  | .dispatchState => QueueDispatchState
  | .modeStatus => ModeApplicationStatus
  | .attempts => List BackgroundAttempt
  | .priorityChanges => List PriorityChange

/-- `items[-limit:]` where the field has a limit. -/
def limited : Option Nat → List String → List String
  | none, items => items
  | some n, items => lastN n items

/-- What `evolve` makes of a field: its value now and the argument given for
it, if one is. -/
def evolved (py : Interp) : (k : FieldKind) → k.Value → Option Arg → Option k.Value
  | .str _, cur, v =>
      match v with
      | some (.json (.str s)) => some s
      | _ => some cur
  | .bounded limit, cur, v =>
      match v with
      | some (.json (.str s)) => some (strTake limit s)
      | some _ => some cur
      | none => some (strTake limit cur)
  | .optStr, cur, v =>
      match v with
      | some (.json (.str s)) => some (some s)
      | some (.json .null) => some none
      | _ => some cur
  | .optBounded limit, cur, v =>
      match v with
      | some (.json .null) => some none
      | some (.json (.str s)) => some (some (strTake limit s))
      | some _ => some (some (cur.getD ""))
      | none => some (cur.map (strTake limit))
  | .float, cur, v =>
      match v with
      | some v => (asFloat py v.plain).map fun x => (x.getD cur).orZero
      | none => some cur.orZero
  | .optFloat, cur, v =>
      match v with
      | some (.json .null) => some none
      | some v => (asFloat py v.plain).map fun x => x.or cur
      | none => some cur
  | .int, cur, v =>
      match v with
      | some (.json (.int n)) => some n
      | _ => some cur
  | .optInt, cur, v =>
      match v with
      | some (.json (.int n)) => some (some n)
      | some (.json .null) => some none
      | _ => some cur
  | .bool, cur, v =>
      match v with
      | some (.json (.bool b)) => some b
      | _ => some cur
  | .optBool, cur, v =>
      match v with
      | some (.json (.bool b)) => some (some b)
      | some (.json .null) => some none
      | _ => some cur
  | .strings limit, cur, v => some (limited limit ((v.map stringTuple).getD cur))
  | .count, cur, v => some (countOf ((v.map Arg.plain).getD (.int cur)))
  | .amount, cur, v => amountOf py ((v.map Arg.plain).getD (.float cur))
  | .status, cur, v => some (evolvedEnum SessionStatus .failed cur (v.map Arg.plain))
  | .priority, cur, v => some (evolvedEnum QueuePriority cur cur (v.map Arg.plain))
  | .dispatchState, cur, v => some (evolvedEnum QueueDispatchState cur cur (v.map Arg.plain))
  | .modeStatus, cur, v => some (evolvedEnum ModeApplicationStatus cur cur (v.map Arg.plain))
  | .attempts, cur, v =>
      match v with
      | some v =>
          (((v.items?.getD []).mapM (Item.attempt? py)).map fun xs =>
            lastN ATTEMPT_HISTORY_LIMIT (xs.filterMap id))
      | none => some (lastN ATTEMPT_HISTORY_LIMIT cur)
  | .priorityChanges, cur, v =>
      match v with
      | some v =>
          (((v.items?.getD []).mapM (Item.change? py)).map fun xs => lastN 32 (xs.filterMap id))
      | none => some (lastN 32 cur)

/-- What `to_dict` writes. -/
def dump : (k : FieldKind) → k.Value → Json
  | .str _, x | .bounded _, x => .str x
  | .optStr, x | .optBounded _, x => .ofOptStr x
  | .float, x | .amount, x => .float x
  | .optFloat, x => Json.ofOptFloat x
  | .int, x | .count, x => .int x
  | .optInt, x => Json.ofOptInt x
  | .bool, x => .bool x
  | .optBool, x => Json.ofOptBool x
  | .strings _, x => .arr (x.map .str)
  | .status, x => dumpEnum SessionStatus x
  | .priority, x => dumpEnum QueuePriority x
  | .dispatchState, x => dumpEnum QueueDispatchState x
  | .modeStatus, x => dumpEnum ModeApplicationStatus x
  | .attempts, x => .arr (x.map BackgroundAttempt.toDict)
  | .priorityChanges, x => .arr (x.map PriorityChange.toDict)

/-- The elements of a decoded list that are mappings, read one by one. -/
def readMappings {α : Type} (limit : Nat) (fromMapping : Json → Option α) (v : Json) :
    Option (List α) :=
  match v with
  | .arr xs => ((lastN limit xs).filter Json.isObj).mapM fromMapping
  | _ => some []

/-- What `from_mapping` reads where the mapping has this value, if it has
one. -/
def read (py : Interp) : (k : FieldKind) → Option Json → Option k.Value
  | .str dflt, v => some (pyStr py (v.getD (.str dflt)))
  | .bounded limit, v => some (boundedText limit (v.getD .null))
  | .optStr, v =>
      match v with
      | some (.str s) => some (some s)
      | _ => some none
  | .optBounded limit, v => some (optBoundedText limit (v.getD .null))
  | .float, v => (asFloat py (v.getD .null)).map fun x => x.getD .zero
  | .optFloat, v => asFloat py (v.getD .null)
  | .int, v => some ((intOf (v.getD .null)).getD 0)
  | .optInt, v => some (intOf (v.getD .null))
  | .bool, v => some (pyTruth py (v.getD (.bool false)))
  | .optBool, v =>
      match v with
      | some (.bool b) => some (some b)
      | _ => some none
  | .strings limit, v => some (limited limit (stringTuple (.json (v.getD .null))))
  | .count, v => some (countOf (v.getD .null))
  | .amount, v => amountOf py (v.getD .null)
  | .status, v => some (readEnum SessionStatus .failed v)
  | .priority, v => some (readEnum QueuePriority .normal v)
  | .dispatchState, v => some (readEnum QueueDispatchState .legacy v)
  | .modeStatus, v => some (readEnum ModeApplicationStatus .pending v)
  | .attempts, v =>
      readMappings ATTEMPT_HISTORY_LIMIT (BackgroundAttempt.fromMapping py) (v.getD (.arr []))
  | .priorityChanges, v =>
      readMappings 32 (PriorityChange.fromMapping py) (v.getD (.arr []))

end FieldKind

/-! ## 4. The fields of a session -/

/-- The fields of `BackgroundSession` behind its ID. -/
inductive Field where
  | title | cwd | workflow_name | intent | status | created_at | started_at | last_active
  | state_changed_at | completed_at | provider | model | source | current_phase | phase_history
  | latest_activity | error | failure_category | cancellation_reason | exit_reason
  | resume_marker | approval_request | approval_decision | approval_item_id | input_request
  | input_value | input_item_id | environment_receipts | worker_pid | detached_goal
  | worker_started_at | worker_finished_at | worker_exit_code | worker_exit_reason
  | worker_finalization_attempts | worker_cleanup_error | lease_token | attempt | retry_count
  | labels | pinned | artifact_dir | trash_dir | original_artifact_dir | parent_session_id
  | run_id | role | task_id | worktree_id | branch | base_commit | delete_operation_id
  | delete_phase | delete_error | delete_requested_at | delete_attempt | mode_name
  | attempt_started_at | attempt_history | heartbeat_stale | requested_mode_name
  | mode_application_status | mode_application_attempt | mode_application_error | priority
  | idempotency_key | owner_id | requested_profile_name | dispatch_state | dispatch_token
  | dispatch_claimed_at | priority_history | tokens_in | tokens_out | cost_usd | retried_from
  | retried_as
  deriving DecidableEq

namespace Field

/-- The order of `to_dict`. -/
def all : List Field :=
  [
    .title, .cwd, .workflow_name, .intent, .status, .created_at, .started_at, .last_active,
    .state_changed_at, .completed_at, .provider, .model, .source, .current_phase, .phase_history,
    .latest_activity, .error, .failure_category, .cancellation_reason, .exit_reason,
    .resume_marker, .approval_request, .approval_decision, .approval_item_id, .input_request,
    .input_value, .input_item_id, .environment_receipts, .worker_pid, .detached_goal,
    .worker_started_at, .worker_finished_at, .worker_exit_code, .worker_exit_reason,
    .worker_finalization_attempts, .worker_cleanup_error, .lease_token, .attempt, .retry_count,
    .labels, .pinned, .artifact_dir, .trash_dir, .original_artifact_dir, .parent_session_id,
    .run_id, .role, .task_id, .worktree_id, .branch, .base_commit, .delete_operation_id,
    .delete_phase, .delete_error, .delete_requested_at, .delete_attempt, .mode_name,
    .attempt_started_at, .attempt_history, .heartbeat_stale, .requested_mode_name,
    .mode_application_status, .mode_application_attempt, .mode_application_error, .priority,
    .idempotency_key, .owner_id, .requested_profile_name, .dispatch_state, .dispatch_token,
    .dispatch_claimed_at, .priority_history, .tokens_in, .tokens_out, .cost_usd, .retried_from,
    .retried_as]

def name : Field → String
  | .title => "title"
  | .cwd => "cwd"
  | .workflow_name => "workflow_name"
  | .intent => "intent"
  | .status => "status"
  | .created_at => "created_at"
  | .started_at => "started_at"
  | .last_active => "last_active"
  | .state_changed_at => "state_changed_at"
  | .completed_at => "completed_at"
  | .provider => "provider"
  | .model => "model"
  | .source => "source"
  | .current_phase => "current_phase"
  | .phase_history => "phase_history"
  | .latest_activity => "latest_activity"
  | .error => "error"
  | .failure_category => "failure_category"
  | .cancellation_reason => "cancellation_reason"
  | .exit_reason => "exit_reason"
  | .resume_marker => "resume_marker"
  | .approval_request => "approval_request"
  | .approval_decision => "approval_decision"
  | .approval_item_id => "approval_item_id"
  | .input_request => "input_request"
  | .input_value => "input_value"
  | .input_item_id => "input_item_id"
  | .environment_receipts => "environment_receipts"
  | .worker_pid => "worker_pid"
  | .detached_goal => "detached_goal"
  | .worker_started_at => "worker_started_at"
  | .worker_finished_at => "worker_finished_at"
  | .worker_exit_code => "worker_exit_code"
  | .worker_exit_reason => "worker_exit_reason"
  | .worker_finalization_attempts => "worker_finalization_attempts"
  | .worker_cleanup_error => "worker_cleanup_error"
  | .lease_token => "lease_token"
  | .attempt => "attempt"
  | .retry_count => "retry_count"
  | .labels => "labels"
  | .pinned => "pinned"
  | .artifact_dir => "artifact_dir"
  | .trash_dir => "trash_dir"
  | .original_artifact_dir => "original_artifact_dir"
  | .parent_session_id => "parent_session_id"
  | .run_id => "run_id"
  | .role => "role"
  | .task_id => "task_id"
  | .worktree_id => "worktree_id"
  | .branch => "branch"
  | .base_commit => "base_commit"
  | .delete_operation_id => "delete_operation_id"
  | .delete_phase => "delete_phase"
  | .delete_error => "delete_error"
  | .delete_requested_at => "delete_requested_at"
  | .delete_attempt => "delete_attempt"
  | .mode_name => "mode_name"
  | .attempt_started_at => "attempt_started_at"
  | .attempt_history => "attempt_history"
  | .heartbeat_stale => "heartbeat_stale"
  | .requested_mode_name => "requested_mode_name"
  | .mode_application_status => "mode_application_status"
  | .mode_application_attempt => "mode_application_attempt"
  | .mode_application_error => "mode_application_error"
  | .priority => "priority"
  | .idempotency_key => "idempotency_key"
  | .owner_id => "owner_id"
  | .requested_profile_name => "requested_profile_name"
  | .dispatch_state => "dispatch_state"
  | .dispatch_token => "dispatch_token"
  | .dispatch_claimed_at => "dispatch_claimed_at"
  | .priority_history => "priority_history"
  | .tokens_in => "tokens_in"
  | .tokens_out => "tokens_out"
  | .cost_usd => "cost_usd"
  | .retried_from => "retried_from"
  | .retried_as => "retried_as"

abbrev kind : Field → FieldKind
  | .title => .str "Background session"
  | .cwd | .workflow_name | .intent | .provider | .model | .current_phase | .latest_activity
  | .failure_category | .cancellation_reason | .exit_reason | .resume_marker | .approval_request
  | .approval_item_id | .input_request | .input_item_id | .worker_exit_reason
  | .worker_cleanup_error | .lease_token | .artifact_dir | .trash_dir | .original_artifact_dir
  | .parent_session_id | .run_id | .role | .task_id | .worktree_id | .branch | .base_commit
  | .delete_operation_id | .delete_phase | .delete_error => .str ""
  | .status => .status
  | .created_at | .last_active | .state_changed_at => .float
  | .started_at | .completed_at | .worker_started_at | .worker_finished_at | .delete_requested_at
  | .attempt_started_at | .dispatch_claimed_at => .optFloat
  | .source => .str "cli"
  | .phase_history | .labels => .strings none
  | .error | .input_value => .optStr
  | .approval_decision => .optBool
  | .environment_receipts => .strings (some 64)
  | .worker_pid | .worker_exit_code => .optInt
  | .detached_goal | .pinned | .heartbeat_stale => .bool
  | .worker_finalization_attempts | .attempt | .retry_count | .delete_attempt
  | .mode_application_attempt => .int
  | .mode_name | .requested_profile_name | .dispatch_token | .retried_from | .retried_as =>
      .bounded 128
  | .attempt_history => .attempts
  | .requested_mode_name => .optBounded 128
  | .mode_application_status => .modeStatus
  | .mode_application_error => .bounded 1024
  | .priority => .priority
  | .idempotency_key | .owner_id => .bounded 256
  | .dispatch_state => .dispatchState
  | .priority_history => .priorityChanges
  | .tokens_in | .tokens_out => .count
  | .cost_usd => .amount

theorem mem_all (f : Field) : f ∈ all := by cases f <;> decide

theorem nodup_names : (all.map name).Nodup := by decide

theorem name_injective {f g : Field} (h : f.name = g.name) : f = g :=
  List.inj_on_of_nodup_map nodup_names (mem_all f) (mem_all g) h

theorem name_ne_session_id (f : Field) : f.name ≠ "session_id" := by cases f <;> decide

instance {p : Field → Prop} [DecidablePred p] : Decidable (∀ f, p f) :=
  decidable_of_iff (∀ f ∈ all, p f) ⟨fun h f => h f (mem_all f), fun h f _ => h f⟩

end Field

/-! ## 5. Sessions -/

/-- One durable background execution and its recoverable metadata. -/
@[ext] structure BackgroundSession where
  session_id : String
  value : (f : Field) → f.kind.Value

namespace BackgroundSession

/-- The values of all fields where none of them raised. -/
def gather (raw : (f : Field) → Option f.kind.Value) : Option ((f : Field) → f.kind.Value) :=
  if h : ∀ f, (raw f).isSome then some fun f => (raw f).get (h f) else none

def status (s : BackgroundSession) : SessionStatus := s.value .status
def mode_name (s : BackgroundSession) : String := s.value .mode_name
def mode_application_status (s : BackgroundSession) : ModeApplicationStatus :=
  s.value .mode_application_status
def attempt (s : BackgroundSession) : Int := s.value .attempt
def lease_token (s : BackgroundSession) : String := s.value .lease_token
def worker_pid (s : BackgroundSession) : Option Int := s.value .worker_pid
def last_active (s : BackgroundSession) : PyFloat := s.value .last_active
def started_at (s : BackgroundSession) : Option PyFloat := s.value .started_at
def priority (s : BackgroundSession) : QueuePriority := s.value .priority
def dispatch_state (s : BackgroundSession) : QueueDispatchState := s.value .dispatch_state
def dispatch_token (s : BackgroundSession) : String := s.value .dispatch_token
def error (s : BackgroundSession) : Option String := s.value .error
def failure_category (s : BackgroundSession) : String := s.value .failure_category
def exit_reason (s : BackgroundSession) : String := s.value .exit_reason
def worker_exit_reason (s : BackgroundSession) : String := s.value .worker_exit_reason
def latest_activity (s : BackgroundSession) : String := s.value .latest_activity
def trash_dir (s : BackgroundSession) : String := s.value .trash_dir
def delete_operation_id (s : BackgroundSession) : String := s.value .delete_operation_id
def delete_phase (s : BackgroundSession) : String := s.value .delete_phase
def attempt_history (s : BackgroundSession) : List BackgroundAttempt := s.value .attempt_history
def priority_history (s : BackgroundSession) : List PriorityChange := s.value .priority_history

/-- The record with another value of one field. -/
def set (s : BackgroundSession) (f : Field) (x : f.kind.Value) : BackgroundSession :=
  { s with value := Function.update s.value f x }

/-- `replace(session, last_active=…)`. -/
def withLastActive (s : BackgroundSession) (x : PyFloat) : BackgroundSession := s.set .last_active x

/-- The effective mode after `evolve`, from the two fields as their kinds
evolve them. A name that arrives without an application status asks for
another mode; it does not prove that the mode was applied. -/
def evolvedMode (s : BackgroundSession) (changes : String → Option Arg) (effective_mode : String)
    (mode_status : ModeApplicationStatus) : String × ModeApplicationStatus :=
  coupleMode effective_mode
    (if (changes "mode_name").isSome ∧ (changes "mode_application_status").isNone
        ∧ effective_mode ≠ s.mode_name
      then .pending else mode_status)

/-- Both mode fields set together. -/
def coupled (value : (f : Field) → f.kind.Value) (mode : String × ModeApplicationStatus) :
    (f : Field) → f.kind.Value :=
  Function.update (Function.update value .mode_name mode.1) .mode_application_status mode.2

/-- `evolve(**changes)`; `changes` are the keyword arguments by name. -/
def evolve (py : Interp) (s : BackgroundSession) (changes : String → Option Arg) :
    Option BackgroundSession :=
  (gather fun f => f.kind.evolved py (s.value f) (changes f.name)).map fun value =>
    ⟨s.session_id,
      coupled value (s.evolvedMode changes (value .mode_name) (value .mode_application_status))⟩

def toDict (s : BackgroundSession) : List (String × Json) :=
  ("session_id", .str s.session_id) :: Field.all.map fun f => (f.name, f.kind.dump (s.value f))

/-- What `from_mapping` reads a field from: `worker_pid` may stand under the
`pid` of early run projections. -/
def mapped (kvs : List (String × Json)) (f : Field) : Option Json :=
  if f = .worker_pid then (Json.lookup f.name kvs).or (Json.lookup "pid" kvs)
  else Json.lookup f.name kvs

/-- The effective mode and its status as `from_mapping` reads them. -/
def mappedMode (kvs : List (String × Json)) : String × ModeApplicationStatus :=
  let mode_name := boundedText 128 ((Json.lookup "mode_name" kvs).getD .null)
  coupleMode mode_name (enumOr (legacyModeStatus mode_name)
    ((Json.lookup "mode_application_status" kvs).getD .null))

/-- The attempt the mode was applied to: the session's own where an applied
mode has none. -/
def mappedModeAttempt (kvs : List (String × Json)) : Int :=
  match (Json.lookup "mode_application_attempt" kvs).getD .null with
  | .int n => n
  | _ =>
      if (mappedMode kvs).2 = .applied then
        (intOf ((Json.lookup "attempt" kvs).getD .null)).getD 0
      else 0

def fromMapping (py : Interp) (kvs : List (String × Json)) : Option BackgroundSession :=
  match Json.lookup "session_id" kvs with
  | some (.str session_id) =>
      if session_id = "" then none
      else
        (gather fun f => f.kind.read py (mapped kvs f)).map fun value =>
          ⟨session_id, Function.update (coupled value (mappedMode kvs)) .mode_application_attempt
            (mappedModeAttempt kvs)⟩
  | _ => none

end BackgroundSession

namespace BackgroundAttempt

/-- `a or b` of two optional floats. -/
def orFloat (a b : Option PyFloat) : Option PyFloat :=
  match a with
  | some x => if x.isZero then b else some x
  | none => b

def fromSession (s : BackgroundSession) : BackgroundAttempt where
  attempt := s.attempt
  status := s.status
  started_at := orFloat (s.value .attempt_started_at) s.started_at
  completed_at := s.value .completed_at
  error := s.error
  failure_category := s.failure_category
  exit_reason := if s.exit_reason = "" then s.worker_exit_reason else s.exit_reason
  worker_exit_code := s.value .worker_exit_code
  latest_activity := s.latest_activity
  requested_mode_name := s.value .requested_mode_name
  mode_name := s.mode_name
  mode_application_status := s.mode_application_status
  mode_application_error := s.value .mode_application_error

end BackgroundAttempt

end Agenthicc.Background
