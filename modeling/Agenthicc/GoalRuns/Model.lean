/-
Agenthicc.GoalRuns.Model — the durable record of a goal run.

A run, its agents, its tasks and its worktrees are four records of the same
make: `_text`, `_timestamp`, `_strings` and the checks of single fields are
codecs, and each record has a schema with one constructor for each field of
the source, in the order `to_dict` writes them. `evolve` writes the record,
lays the changes over it and reads it back. A member of a string enumeration
is the string it stands for where a value of any type may be given, and a
record in a tuple of changes is its mapping.
-/
import Agenthicc.Background.Model
import Agenthicc.Python.Records

namespace Agenthicc.GoalRuns

open Python Background

/-! ## 1. Vocabularies and codecs -/

/-- Coarse product-level status derived from session and workflow evidence. -/
inductive GoalRunStatus where
  | created | queued | starting | planning | running | waiting | needsAttention | integrating
  | verifying | completed | failed | cancelled | lost
  deriving DecidableEq

instance : StrEnum GoalRunStatus where
  members := [.created, .queued, .starting, .planning, .running, .waiting, .needsAttention,
    .integrating, .verifying, .completed, .failed, .cancelled, .lost]
  value
    | .created => "created"
    | .queued => "queued"
    | .starting => "starting"
    | .planning => "planning"
    | .running => "running"
    | .waiting => "waiting"
    | .needsAttention => "needs_attention"
    | .integrating => "integrating"
    | .verifying => "verifying"
    | .completed => "completed"
    | .failed => "failed"
    | .cancelled => "cancelled"
    | .lost => "lost"
  complete a := by cases a <;> decide
  injective a b h := by cases a <;> cases b <;> first | rfl | exact absurd h (by decide)

def overflow : PyError := .raised "OverflowError" "int too large to convert to float"

/-- `_text`. -/
def text (dflt : String) (limit : Nat) (v : Json) : String :=
  match v with
  | .str s => strTake limit s
  | _ => dflt

/-- `_timestamp(value)`. -/
def timestamp (py : Interp) (v : Json) : Except PyError (Option PyFloat) :=
  match asFloat py v with
  | some x => .ok x
  | none => .error overflow

/-- `_strings`. -/
def strings (limit : Nat) : Json → List String
  | .arr items =>
      (items.filterMap fun
        | .str s => some (strTake 512 s)
        | _ => none).take limit
  | _ => []

namespace Fields

theorem length_text {dflt : String} {limit : Nat} (h : dflt.length ≤ limit) (v : Json) :
    (GoalRuns.text dflt limit v).length ≤ limit := by
  cases v with
  | str s => simp [GoalRuns.text, strTake, List.length_take]
  | _ => exact h

def text (dflt : String) (limit : Nat) (h : dflt.length ≤ limit) : Codec String where
  read _ _ v := .ok (GoalRuns.text dflt limit (v.getD .null))
  dump x := .str x
  Normal x := x.length ≤ limit
  read_dump _ _ _ hx := congrArg Except.ok (strTake_eq_self.mpr hx)
  read_normal hv := by
    cases hv
    exact length_text h _

/-- `_text(value, limit=n) if isinstance(value, str) else None`. -/
def optText (limit : Nat) : Codec (Option String) where
  read _ _ v := .ok (optBoundedText limit (v.getD .null))
  dump := Json.ofOptStr
  Normal x := ∀ s, x = some s → s.length ≤ limit
  read_dump _ _ x hx := by
    cases x with
    | none => rfl
    | some s => exact congrArg (Except.ok ∘ some) (strTake_eq_self.mpr (hx s rfl))
  read_normal {_ _ v x} hv := by
    cases hv
    intro s hs
    revert hs
    cases v.getD .null with
    | str t =>
        intro hs
        cases hs
        simp [strTake, List.length_take]
    | _ => intro hs; cases hs

def timestamp : Codec (Option PyFloat) where
  read py _ v := GoalRuns.timestamp py (v.getD .null)
  dump := Json.ofOptFloat
  Normal _ := True
  read_dump _ _ x _ := by cases x <;> rfl
  read_normal _ := trivial

theorem orZero_orZero (x : PyFloat) : x.orZero.orZero = x.orZero := by
  unfold PyFloat.orZero
  by_cases h : x.isZero
  · simp only [h, if_true, ite_self]
  · simp only [h, Bool.false_eq_true, if_false]

/-- `_timestamp(value, 0.0) or 0.0`. -/
def created : Codec PyFloat where
  read py _ v := (GoalRuns.timestamp py (v.getD .null)).map fun x => (x.getD .zero).orZero
  dump x := .float x
  Normal x := x.orZero = x
  read_dump _ _ _ hx := congrArg Except.ok hx
  read_normal {py _ v x} hv := by
    cases ht : GoalRuns.timestamp py (v.getD .null) with
    | error exc => rw [ht] at hv; cases hv
    | ok y =>
        rw [ht] at hv
        cases hv
        exact orZero_orZero _

/-- `_timestamp(value, time.time()) or time.time()`. -/
def updated : Codec PyFloat where
  read py now v :=
    (GoalRuns.timestamp py (v.getD .null)).map fun x =>
      if (x.getD now.time).isZero then now.time else x.getD now.time
  dump x := .float x
  Normal x := x.isZero = false
  read_dump _ now x hx := by
    refine congrArg Except.ok ?_
    simp [hx]
  read_normal {py now v x} hv := by
    cases ht : GoalRuns.timestamp py (v.getD .null) with
    | error exc => rw [ht] at hv; cases hv
    | ok y =>
        rw [ht] at hv
        cases hv
        by_cases hz : (y.getD now.time).isZero
        · simp only [hz, if_true]
          exact now.ne_zero
        · simp only [hz, Bool.false_eq_true, if_false]

/-- An integer that is no bool, or `None`. -/
def optInt : Codec (Option Int) where
  read _ _ v := .ok (intOf (v.getD .null))
  dump := Json.ofOptInt
  Normal _ := True
  read_dump _ _ x _ := by cases x <;> rfl
  read_normal _ := trivial

/-- An integer that is no bool, or zero. -/
def int : Codec Int where
  read _ _ v := .ok ((intOf (v.getD .null)).getD 0)
  dump x := .int x
  Normal _ := True
  read_dump _ _ _ _ := rfl
  read_normal _ := trivial

/-- `value if isinstance(value, bool) else False`. -/
def flag : Codec Bool where
  read _ _ v :=
    .ok (match v with
    | some (.bool b) => b
    | _ => false)
  dump x := .bool x
  Normal _ := True
  read_dump _ _ _ _ := rfl
  read_normal _ := trivial

/-- `bool(value)`. -/
def truth : Codec Bool where
  read py _ v := .ok (pyTruth py (v.getD (.bool false)))
  dump x := .bool x
  Normal _ := True
  read_dump _ _ _ _ := rfl
  read_normal _ := trivial

def strings (limit : Nat) : Codec (List String) where
  read _ _ v := .ok (GoalRuns.strings limit (v.getD .null))
  dump xs := .arr (xs.map .str)
  Normal xs := xs.length ≤ limit ∧ ∀ s ∈ xs, s.length ≤ 512
  read_dump _ _ xs hx := by
    have hall : ∀ ys : List String, (∀ s ∈ ys, s.length ≤ 512) →
        ((ys.map Json.str).filterMap fun
          | .str s => some (strTake 512 s)
          | _ => none) = ys := by
      intro ys hys
      induction ys with
      | nil => rfl
      | cons y ys ih =>
          simp [ih fun s hs => hys s (List.mem_cons_of_mem y hs),
            strTake_eq_self.mpr (hys y List.mem_cons_self)]
    refine congrArg Except.ok ?_
    rw [Option.getD_some, GoalRuns.strings, hall xs hx.2, List.take_of_length_le hx.1]
  read_normal {_ _ v x} hv := by
    cases hv
    cases v.getD .null with
    | arr items =>
        refine ⟨by simp [GoalRuns.strings, List.length_take], fun s hs => ?_⟩
        have hmem := List.mem_of_mem_take hs
        simp only [List.mem_filterMap] at hmem
        obtain ⟨item, -, hitem⟩ := hmem
        cases item with
        | str t =>
            cases hitem
            simp [strTake, List.length_take]
        | _ => cases hitem
    | _ => simp [GoalRuns.strings]

/-- The member a value names, or a default. -/
def enumeration (α : Type) [StrEnum α] (dflt : α) : Codec α where
  read _ _ v := .ok (readEnum α dflt v)
  dump := dumpEnum α
  Normal _ := True
  read_dump _ _ x _ := by simp [readEnum, dumpEnum, enumOr]
  read_normal _ := trivial

end Fields

/-- `value.get(name, value.get(alias))`. -/
def getEither (kvs : List (String × Json)) (name other : String) : Option Json :=
  (Json.lookup name kvs).or (Json.lookup other kvs)

theorem lookup_pairs {F : Type} {idName name : String} {keys : List (String × F)} {f : F}
    (hnd : (idName :: keys.map Prod.fst).Nodup) (hmem : (name, f) ∈ keys) (id : Json)
    (j : F → Json) :
    Json.lookup name ((idName, id) :: keys.map fun e => (e.1, j e.2)) = some (j f) := by
  refine Json.lookup_of_mem ?_ (List.mem_cons_of_mem _ (List.mem_map.mpr ⟨_, hmem, rfl⟩))
  rw [List.map_cons, List.map_map]
  exact hnd

/-! ## 2. Agents -/

/-- The fields of `RunAgentRecord` behind its ID. -/
inductive AgentField where
  | run_id | role | task_id | session_id | process_id | workflow_run_id | status | worktree_id
  | worktree_path | branch | base_commit | head_commit | started_at | completed_at
  | last_heartbeat_at | last_activity_at | current_phase | current_operation | attention_reason
  | exit_code | exit_reason | attempt | heartbeat_stale | requested_mode_name | mode_name
  | mode_application_status | mode_application_error
  deriving DecidableEq

namespace AgentField

def all : List AgentField :=
  [.run_id, .role, .task_id, .session_id, .process_id, .workflow_run_id, .status, .worktree_id,
    .worktree_path, .branch, .base_commit, .head_commit, .started_at, .completed_at,
    .last_heartbeat_at, .last_activity_at, .current_phase, .current_operation, .attention_reason,
    .exit_code, .exit_reason, .attempt, .heartbeat_stale, .requested_mode_name, .mode_name,
    .mode_application_status, .mode_application_error]

def keys : List (String × AgentField) :=
  [("run_id", .run_id), ("role", .role), ("task_id", .task_id), ("session_id", .session_id),
    ("process_id", .process_id), ("pid", .process_id), ("workflow_run_id", .workflow_run_id),
    ("status", .status), ("worktree_id", .worktree_id), ("worktree_path", .worktree_path),
    ("branch", .branch), ("base_commit", .base_commit), ("head_commit", .head_commit),
    ("started_at", .started_at), ("completed_at", .completed_at),
    ("last_heartbeat_at", .last_heartbeat_at), ("last_activity_at", .last_activity_at),
    ("current_phase", .current_phase), ("current_operation", .current_operation),
    ("attention_reason", .attention_reason), ("exit_code", .exit_code),
    ("exit_reason", .exit_reason), ("attempt", .attempt), ("heartbeat_stale", .heartbeat_stale),
    ("requested_mode_name", .requested_mode_name), ("mode_name", .mode_name),
    ("mode_application_status", .mode_application_status),
    ("mode_application_error", .mode_application_error)]

def name : AgentField → String
  | .run_id => "run_id"
  | .role => "role"
  | .task_id => "task_id"
  | .session_id => "session_id"
  | .process_id => "process_id"
  | .workflow_run_id => "workflow_run_id"
  | .status => "status"
  | .worktree_id => "worktree_id"
  | .worktree_path => "worktree_path"
  | .branch => "branch"
  | .base_commit => "base_commit"
  | .head_commit => "head_commit"
  | .started_at => "started_at"
  | .completed_at => "completed_at"
  | .last_heartbeat_at => "last_heartbeat_at"
  | .last_activity_at => "last_activity_at"
  | .current_phase => "current_phase"
  | .current_operation => "current_operation"
  | .attention_reason => "attention_reason"
  | .exit_code => "exit_code"
  | .exit_reason => "exit_reason"
  | .attempt => "attempt"
  | .heartbeat_stale => "heartbeat_stale"
  | .requested_mode_name => "requested_mode_name"
  | .mode_name => "mode_name"
  | .mode_application_status => "mode_application_status"
  | .mode_application_error => "mode_application_error"

abbrev Value : AgentField → Type
  | .process_id | .exit_code => Option Int
  | .started_at | .completed_at | .last_heartbeat_at | .last_activity_at => Option PyFloat
  | .attempt => Int
  | .heartbeat_stale => Bool
  | .requested_mode_name => Option String
  | .mode_application_status => ModeApplicationStatus
  | _ => String

def codec : (f : AgentField) → Codec f.Value
  | .run_id | .task_id | .session_id | .workflow_run_id | .worktree_id | .worktree_path | .branch
  | .base_commit | .head_commit | .current_phase | .current_operation =>
      Fields.text "" 8000 (by decide)
  | .role => Fields.text "worker" 8000 (by decide)
  | .status => Fields.text "created" 8000 (by decide)
  | .attention_reason => Fields.text "" 2000 (by decide)
  | .exit_reason | .mode_name => Fields.text "" 128 (by decide)
  | .mode_application_error => Fields.text "" 1024 (by decide)
  | .process_id | .exit_code => Fields.optInt
  | .started_at | .completed_at | .last_heartbeat_at | .last_activity_at => Fields.timestamp
  | .attempt => Fields.int
  | .heartbeat_stale => Fields.flag
  | .requested_mode_name => Fields.optText 128
  | .mode_application_status => Fields.enumeration ModeApplicationStatus .pending

def mapped (kvs : List (String × Json)) : AgentField → Option Json
  | .process_id => getEither kvs "process_id" "pid"
  | f => Json.lookup f.name kvs

/-- A mode name counts only while it is applied, and an applied state needs
one. -/
def settle (v : (f : AgentField) → f.Value) : (f : AgentField) → f.Value
  | .mode_name => (coupleMode (v .mode_name) (v .mode_application_status)).1
  | .mode_application_status => (coupleMode (v .mode_name) (v .mode_application_status)).2
  | f => v f

end AgentField

theorem coupleMode_coupleMode (mode_name : String) (status : ModeApplicationStatus) :
    coupleMode (coupleMode mode_name status).1 (coupleMode mode_name status).2
      = coupleMode mode_name status := by
  unfold coupleMode
  by_cases hs : status = .applied <;> by_cases hn : mode_name = "" <;> simp [hs, hn]

theorem length_coupleMode_fst (mode_name : String) (status : ModeApplicationStatus) :
    (coupleMode mode_name status).1.length ≤ mode_name.length := by
  unfold coupleMode
  by_cases hs : status = .applied <;> by_cases hn : mode_name = "" <;> simp [hs, hn]

def agentSchema : Schema where
  idName := "agent_id"
  idError := "agent record requires agent_id"
  Field := AgentField
  all := AgentField.all
  mem_all f := by cases f <;> decide
  Value := AgentField.Value
  codec := AgentField.codec
  keys := AgentField.keys
  nodup := by decide
  mapped := AgentField.mapped
  mapped_congr h := by
    funext f
    cases f <;> simp only [AgentField.mapped, getEither, h]
  mapped_keys id j f := by
    have hnd : ("agent_id" :: AgentField.keys.map Prod.fst).Nodup := by decide
    cases f <;>
      simp only [AgentField.mapped, getEither, AgentField.name] <;>
      first
        | exact lookup_pairs hnd (by decide) id j
        | (rw [lookup_pairs (f := .process_id) hnd (by decide) id j]; rfl)
  settle := AgentField.settle
  settle_settle v := by
    funext f
    cases f <;> simp only [AgentField.settle, coupleMode_coupleMode]
  settle_normal {v} h f := by
    cases f with
    | mode_name => exact (length_coupleMode_fst _ _).trans (h .mode_name)
    | mode_application_status => trivial
    | _ => exact h _

/-- A projection of, or link to, a main or worker session. -/
abbrev RunAgentRecord : Type := Record agentSchema

namespace RunAgentRecord

def session_id (a : RunAgentRecord) : String := a.value AgentField.session_id
def status (a : RunAgentRecord) : String := a.value AgentField.status
def attempt (a : RunAgentRecord) : Int := a.value AgentField.attempt

end RunAgentRecord

/-! ## 3. Tasks and worktrees -/

/-- The fields of `RunTaskRecord` behind its ID. -/
inductive TaskField where
  | description | dependencies | status | worker_session_id | worktree_id | result_status
  | result_summary | error | updated_at
  deriving DecidableEq

namespace TaskField

def all : List TaskField :=
  [.description, .dependencies, .status, .worker_session_id, .worktree_id, .result_status,
    .result_summary, .error, .updated_at]

def keys : List (String × TaskField) :=
  [("description", .description), ("dependencies", .dependencies), ("status", .status),
    ("worker_session_id", .worker_session_id), ("worktree_id", .worktree_id),
    ("result_status", .result_status), ("result_summary", .result_summary), ("error", .error),
    ("updated_at", .updated_at)]

abbrev Value : TaskField → Type
  | .dependencies => List String
  | .updated_at => Option PyFloat
  | _ => String

def codec : (f : TaskField) → Codec f.Value
  | .description | .result_summary => Fields.text "" 4000 (by decide)
  | .dependencies => Fields.strings 64
  | .status => Fields.text "pending" 8000 (by decide)
  | .worker_session_id | .worktree_id | .result_status => Fields.text "" 8000 (by decide)
  | .error => Fields.text "" 2000 (by decide)
  | .updated_at => Fields.timestamp

/-- A value of the result record, where the task has one, before the task's
own. -/
def ofResult (kvs : List (String × Json)) (key own : String) : Option Json :=
  match Json.lookup "result" kvs with
  | some (.obj result) =>
      match Json.lookup key result with
      | some (.str s) => some (.str s)
      | _ => Json.lookup own kvs
  | _ => Json.lookup own kvs

def mapped (kvs : List (String × Json)) : TaskField → Option Json
  | .description => Json.lookup "description" kvs
  | .dependencies => Json.lookup "dependencies" kvs
  | .status => Json.lookup "status" kvs
  | .worker_session_id => Json.lookup "worker_session_id" kvs
  | .worktree_id => Json.lookup "worktree_id" kvs
  | .result_status => ofResult kvs "status" "result_status"
  | .result_summary => ofResult kvs "summary" "result_summary"
  | .error => Json.lookup "error" kvs
  | .updated_at => Json.lookup "updated_at" kvs

end TaskField

def taskSchema : Schema where
  idName := "task_id"
  idError := "task record requires task_id"
  Field := TaskField
  all := TaskField.all
  mem_all f := by cases f <;> decide
  Value := TaskField.Value
  codec := TaskField.codec
  keys := TaskField.keys
  nodup := by decide
  mapped := TaskField.mapped
  mapped_congr h := by
    funext f
    cases f <;> simp only [TaskField.mapped, TaskField.ofResult, h]
  mapped_keys id j f := by
    have hnd : ("task_id" :: TaskField.keys.map Prod.fst).Nodup := by decide
    have hresult : Json.lookup "result" (("task_id", id) :: TaskField.keys.map fun e => (e.1, j e.2))
        = none := by
      refine Json.lookup_eq_none.mpr ?_
      rw [List.map_cons, List.map_map]
      exact (by decide : "result" ∉ "task_id" :: TaskField.keys.map Prod.fst)
    cases f <;>
      simp only [TaskField.mapped, TaskField.ofResult, hresult] <;>
      exact lookup_pairs hnd (by decide) id j
  settle v := v
  settle_settle _ := rfl
  settle_normal h := h

/-- Bounded projection of an orchestration task. -/
abbrev RunTaskRecord : Type := Record taskSchema

/-- The fields of `RunWorktreeRecord` behind its ID. -/
inductive WorktreeField where
  | path | branch | base_commit | owner_session_id | task_id | status | head_commit | dirty
  | conflict_paths | last_error | updated_at
  deriving DecidableEq

namespace WorktreeField

def all : List WorktreeField :=
  [.path, .branch, .base_commit, .owner_session_id, .task_id, .status, .head_commit, .dirty,
    .conflict_paths, .last_error, .updated_at]

def name : WorktreeField → String
  | .path => "path"
  | .branch => "branch"
  | .base_commit => "base_commit"
  | .owner_session_id => "owner_session_id"
  | .task_id => "task_id"
  | .status => "status"
  | .head_commit => "head_commit"
  | .dirty => "dirty"
  | .conflict_paths => "conflict_paths"
  | .last_error => "last_error"
  | .updated_at => "updated_at"

abbrev Value : WorktreeField → Type
  | .dirty => Bool
  | .conflict_paths => List String
  | .updated_at => Option PyFloat
  | _ => String

def codec : (f : WorktreeField) → Codec f.Value
  | .path | .branch | .base_commit | .owner_session_id | .task_id | .head_commit =>
      Fields.text "" 8000 (by decide)
  | .status => Fields.text "unknown" 8000 (by decide)
  | .dirty => Fields.truth
  | .conflict_paths => Fields.strings 128
  | .last_error => Fields.text "" 2000 (by decide)
  | .updated_at => Fields.timestamp

end WorktreeField

def worktreeSchema : Schema where
  idName := "worktree_id"
  idError := "worktree record requires worktree_id"
  Field := WorktreeField
  all := WorktreeField.all
  mem_all f := by cases f <;> decide
  Value := WorktreeField.Value
  codec := WorktreeField.codec
  keys := WorktreeField.all.map fun f => (f.name, f)
  nodup := by decide
  mapped kvs f := Json.lookup f.name kvs
  mapped_congr h := by
    funext f
    exact h f.name
  mapped_keys id j f := by
    have hnd : ("worktree_id" :: (WorktreeField.all.map fun f => (f.name, f)).map Prod.fst).Nodup := by
      decide
    exact lookup_pairs hnd (List.mem_map.mpr ⟨f, by cases f <;> decide, rfl⟩) id j
  settle v := v
  settle_settle _ := rfl
  settle_normal h := h

/-- Bounded projection of one isolated Git worktree. -/
abbrev RunWorktreeRecord : Type := Record worktreeSchema

/-! ## 4. Runs -/

/-- The fields of `GoalRun` behind its ID. -/
inductive RunField where
  | goal | repository | repository_root | base_commit | main_branch | status | created_at
  | started_at | completed_at | last_updated_at | main_session_id | main_agent_id | workflow_name
  | workflow_run_id | detached | worker_pid | worker_started_at | worker_finished_at
  | worker_exit_code | worker_exit_reason | worker_finalization_attempts | worker_cleanup_error
  | exit_code | result_summary | failure_reason | attention_reasons | orchestration_ids
  | git_remote_name | provider | model | configuration_fingerprint | token_usage_summary
  | estimated_cost_summary | tasks | worktrees | agents
  deriving DecidableEq

namespace RunField

def all : List RunField :=
  [.goal, .repository, .repository_root, .base_commit, .main_branch, .status, .created_at,
    .started_at, .completed_at, .last_updated_at, .main_session_id, .main_agent_id,
    .workflow_name, .workflow_run_id, .detached, .worker_pid, .worker_started_at,
    .worker_finished_at, .worker_exit_code, .worker_exit_reason, .worker_finalization_attempts,
    .worker_cleanup_error, .exit_code, .result_summary, .failure_reason, .attention_reasons,
    .orchestration_ids, .git_remote_name, .provider, .model, .configuration_fingerprint,
    .token_usage_summary, .estimated_cost_summary, .tasks, .worktrees, .agents]

def name : RunField → String
  | .goal => "goal"
  | .repository => "repository"
  | .repository_root => "repository_root"
  | .base_commit => "base_commit"
  | .main_branch => "main_branch"
  | .status => "status"
  | .created_at => "created_at"
  | .started_at => "started_at"
  | .completed_at => "completed_at"
  | .last_updated_at => "last_updated_at"
  | .main_session_id => "main_session_id"
  | .main_agent_id => "main_agent_id"
  | .workflow_name => "workflow_name"
  | .workflow_run_id => "workflow_run_id"
  | .detached => "detached"
  | .worker_pid => "worker_pid"
  | .worker_started_at => "worker_started_at"
  | .worker_finished_at => "worker_finished_at"
  | .worker_exit_code => "worker_exit_code"
  | .worker_exit_reason => "worker_exit_reason"
  | .worker_finalization_attempts => "worker_finalization_attempts"
  | .worker_cleanup_error => "worker_cleanup_error"
  | .exit_code => "exit_code"
  | .result_summary => "result_summary"
  | .failure_reason => "failure_reason"
  | .attention_reasons => "attention_reasons"
  | .orchestration_ids => "orchestration_ids"
  | .git_remote_name => "git_remote_name"
  | .provider => "provider"
  | .model => "model"
  | .configuration_fingerprint => "configuration_fingerprint"
  | .token_usage_summary => "token_usage_summary"
  | .estimated_cost_summary => "estimated_cost_summary"
  | .tasks => "tasks"
  | .worktrees => "worktrees"
  | .agents => "agents"

/-- The order of `to_dict`. -/
def keys : List (String × RunField) :=
  [("goal", .goal), ("repository", .repository), ("repository_root", .repository_root),
    ("base_commit", .base_commit), ("main_branch", .main_branch), ("status", .status),
    ("created_at", .created_at), ("started_at", .started_at), ("completed_at", .completed_at),
    ("last_updated_at", .last_updated_at), ("main_session_id", .main_session_id),
    ("main_agent_id", .main_agent_id), ("workflow_name", .workflow_name),
    ("workflow_run_id", .workflow_run_id), ("detached", .detached), ("worker_pid", .worker_pid),
    ("pid", .worker_pid), ("worker_started_at", .worker_started_at),
    ("worker_finished_at", .worker_finished_at), ("worker_exit_code", .worker_exit_code),
    ("worker_exit_reason", .worker_exit_reason),
    ("worker_finalization_attempts", .worker_finalization_attempts),
    ("worker_cleanup_error", .worker_cleanup_error), ("exit_code", .exit_code),
    ("result_summary", .result_summary), ("failure_reason", .failure_reason),
    ("attention_reasons", .attention_reasons), ("orchestration_ids", .orchestration_ids),
    ("attention", .attention_reasons), ("git_remote_name", .git_remote_name),
    ("provider", .provider), ("model", .model),
    ("configuration_fingerprint", .configuration_fingerprint),
    ("token_usage_summary", .token_usage_summary),
    ("estimated_cost_summary", .estimated_cost_summary), ("tasks", .tasks),
    ("worktrees", .worktrees), ("agents", .agents)]

abbrev Value : RunField → Type
  | .status => GoalRunStatus
  | .created_at | .last_updated_at => PyFloat
  | .started_at | .completed_at | .worker_started_at | .worker_finished_at => Option PyFloat
  | .detached => Bool
  | .worker_pid | .worker_exit_code | .exit_code => Option Int
  | .worker_finalization_attempts => Int
  | .attention_reasons | .orchestration_ids => List String
  | .tasks => List RunTaskRecord
  | .worktrees => List RunWorktreeRecord
  | .agents => List RunAgentRecord
  | _ => String

def codec : (f : RunField) → Codec f.Value
  | .goal | .repository | .repository_root | .base_commit | .main_branch | .main_session_id
  | .main_agent_id | .workflow_run_id => Fields.text "" 8000 (by decide)
  | .workflow_name => Fields.text "goal_flow" 8000 (by decide)
  | .result_summary => Fields.text "" 4000 (by decide)
  | .failure_reason | .worker_cleanup_error => Fields.text "" 2000 (by decide)
  | .token_usage_summary | .estimated_cost_summary => Fields.text "" 1000 (by decide)
  | .git_remote_name | .provider | .model | .configuration_fingerprint =>
      Fields.text "" 256 (by decide)
  | .worker_exit_reason => Fields.text "" 128 (by decide)
  | .status => Fields.enumeration GoalRunStatus .needsAttention
  | .created_at => Fields.created
  | .last_updated_at => Fields.updated
  | .started_at | .completed_at | .worker_started_at | .worker_finished_at => Fields.timestamp
  | .detached => Fields.truth
  | .worker_pid | .worker_exit_code | .exit_code => Fields.optInt
  | .worker_finalization_attempts => Fields.int
  | .attention_reasons => Fields.strings 32
  | .orchestration_ids => Fields.strings 128
  | .tasks => Record.codec taskSchema
  | .worktrees => Record.codec worktreeSchema
  | .agents => Record.codec agentSchema

def mapped (kvs : List (String × Json)) : RunField → Option Json
  | .worker_pid => getEither kvs "worker_pid" "pid"
  | .attention_reasons => getEither kvs "attention_reasons" "attention"
  | f => Json.lookup f.name kvs

end RunField

def runSchema : Schema where
  idName := "run_id"
  idError := "goal run requires run_id"
  Field := RunField
  all := RunField.all
  mem_all f := by cases f <;> decide
  Value := RunField.Value
  codec := RunField.codec
  keys := RunField.keys
  nodup := by decide
  mapped := RunField.mapped
  mapped_congr h := by
    funext f
    cases f <;> simp only [RunField.mapped, getEither, h]
  mapped_keys id j f := by
    have hnd : ("run_id" :: RunField.keys.map Prod.fst).Nodup := by decide
    cases f <;>
      simp only [RunField.mapped, getEither, RunField.name] <;>
      first
        | exact lookup_pairs hnd (by decide) id j
        | (rw [lookup_pairs (f := .worker_pid) hnd (by decide) id j]; rfl)
        | (rw [lookup_pairs (f := .attention_reasons) hnd (by decide) id j]; rfl)
  settle v := v
  settle_settle _ := rfl
  settle_normal h := h

/-- Durable product-level record for one goal invocation. -/
abbrev GoalRun : Type := Record runSchema

namespace GoalRun

def status (r : GoalRun) : GoalRunStatus := r.value RunField.status
def completed_at (r : GoalRun) : Option PyFloat := r.value RunField.completed_at
def last_updated_at (r : GoalRun) : PyFloat := r.value RunField.last_updated_at
def main_session_id (r : GoalRun) : String := r.value RunField.main_session_id
def worker_pid (r : GoalRun) : Option Int := r.value RunField.worker_pid
def worker_started_at (r : GoalRun) : Option PyFloat := r.value RunField.worker_started_at
def worker_finished_at (r : GoalRun) : Option PyFloat := r.value RunField.worker_finished_at
def worker_exit_code (r : GoalRun) : Option Int := r.value RunField.worker_exit_code
def worker_exit_reason (r : GoalRun) : String := r.value RunField.worker_exit_reason
def worker_finalization_attempts (r : GoalRun) : Int :=
  r.value RunField.worker_finalization_attempts
def worker_cleanup_error (r : GoalRun) : String := r.value RunField.worker_cleanup_error
def exit_code (r : GoalRun) : Option Int := r.value RunField.exit_code
def failure_reason (r : GoalRun) : String := r.value RunField.failure_reason
def attention_reasons (r : GoalRun) : List String := r.value RunField.attention_reasons
def agents (r : GoalRun) : List RunAgentRecord := r.value RunField.agents

/-- `to_dict(include_agents=False)`. -/
def toDictWithoutAgents (r : GoalRun) : List (String × Json) :=
  r.toDict.filter fun kv => kv.1 ≠ "agents"

/-- `evolve(**changes)`; its keyword arguments go before the clock, and a
second `self` is no argument of it. -/
def evolve (py : Interp) (now : Clock) (r : GoalRun) (changes : List (String × Json)) :
    Except PyError GoalRun :=
  if (Json.lookup "self" changes).isSome then
    .error (.typeError "GoalRun.evolve() got multiple values for argument 'self'")
  else
    Record.fromMapping runSchema py now
      (r.toDict ++ changes ++ [("last_updated_at", .float now.time)])

/-- The agents with one of the same ID put behind the others. -/
def relinked (agents : List RunAgentRecord) (agent : RunAgentRecord) : List RunAgentRecord :=
  agents.filter (fun item => item.id ≠ agent.id) ++ [agent]

def withAgent (py : Interp) (now : Clock) (r : GoalRun) (agent : RunAgentRecord) :
    Except PyError GoalRun :=
  evolve py now r [("agents", Record.dumpAll (relinked r.agents agent))]

/-- The run as another clock reading leaves it. -/
def touched (r : GoalRun) (now : Clock) : GoalRun :=
  r.set RunField.last_updated_at now.time

/-- The run with other agents. -/
def withAgents (r : GoalRun) (agents : List RunAgentRecord) : GoalRun :=
  r.set RunField.agents agents

end GoalRun

end Agenthicc.GoalRuns
