/-
Agenthicc.Worktrees.Model — tasks, worktree records and manifests of parallel
orchestrations.

Left out: the times of creation and update, which only a listing reads, and
the JSON form, which keeps every field that is here.
-/
import Mathlib.Data.List.Basic
import Mathlib.Tactic.Common

namespace Agenthicc.Worktrees

inductive WorktreeStatus where
  | creating
  | active
  | completed
  | integrating
  | integrated
  | conflict
  | orphaned
  | removed
  deriving DecidableEq, Repr

inductive TaskStatus where
  | pending
  | dispatching
  | queued
  | running
  | completed
  | failed
  | blocked
  | integrating
  | integrated
  | conflict
  | cancelled
  | cleaned
  deriving DecidableEq, Repr

inductive OrchestrationStatus where
  | planning
  | running
  | reviewing
  | integrating
  | verifying
  | complete
  | failed
  | recovering
  deriving DecidableEq, Repr

structure WorktreeRecord where
  worktree_id : String
  repository : String
  path : String
  branch : String
  base_commit : String
  owner_session_id : String
  task_id : String
  status : WorktreeStatus := .creating
  head_commit : String := ""
  dirty : Bool := false
  conflict_paths : List String := []
  last_error : String := ""
  environment_receipts : List String := []
  deriving DecidableEq, Repr

structure WorkerResult where
  task_id : String
  worker_session_id : String
  worktree_id : String
  base_commit : String
  head_commit : String
  commits : List String := []
  changed_files : List String := []
  clean : Bool := false
  status : String := "incomplete"
  error : String := ""
  deriving DecidableEq, Repr

structure ParallelTask where
  task_id : String
  description : String
  dependencies : List String := []
  status : TaskStatus := .pending
  worker_session_id : String := ""
  worktree_id : String := ""
  result : Option WorkerResult := none
  error : String := ""
  deriving DecidableEq, Repr

structure ParallelManifest where
  orchestration_id : String
  parent_session_id : String
  repository : String
  parent_branch : String
  base_commit : String
  run_id : String := ""
  status : OrchestrationStatus := .planning
  tasks : List ParallelTask := []
  worktrees : List WorktreeRecord := []
  last_error : String := ""
  deriving DecidableEq, Repr

namespace ParallelManifest

variable (m : ParallelManifest)

/-- `task(task_id)`; `none` is the `KeyError`. -/
def task? (task_id : String) : Option ParallelTask := m.tasks.find? (·.task_id = task_id)

/-- `worktree(worktree_id)`; `none` is the `KeyError`. -/
def worktree? (worktree_id : String) : Option WorktreeRecord :=
  m.worktrees.find? (·.worktree_id = worktree_id)

/-- `[task if item.task_id == task_id else item for item in manifest.tasks]`. -/
def replaceTask (task : ParallelTask) : List ParallelTask :=
  m.tasks.map fun item => if item.task_id = task.task_id then task else item

def replaceWorktree (record : WorktreeRecord) : List WorktreeRecord :=
  m.worktrees.map fun item => if item.worktree_id = record.worktree_id then record else item

end ParallelManifest

/-! ## Lists with keys -/

theorem find?_replaced {α : Type} (key : α → String) (new : α) (k : String) (l : List α) :
    (l.map fun item => if key item = key new then new else item).find? (key · = k)
      = if key new = k then (l.find? (key · = k)).map fun _ => new else l.find? (key · = k) := by
  induction l with
  | nil => simp
  | cons x rest ih =>
      rw [List.map_cons, List.find?_cons, ih, List.find?_cons]
      by_cases hx : key x = key new
      · by_cases hk : key new = k
        · simp [hx, hk]
        · simp [hx, hk]
      · by_cases hk : key x = k
        · subst hk
          have hne : key new ≠ key x := fun h => hx h.symm
          simp [hx, hne]
        · simp [hx, hk]

namespace ParallelManifest

variable {m : ParallelManifest} {task : ParallelTask} {record : WorktreeRecord}

theorem find?_replaceTask (k : String) : (m.replaceTask task).find? (·.task_id = k)
    = if task.task_id = k then (m.task? k).map fun _ => task else m.task? k :=
  find?_replaced ParallelTask.task_id task k m.tasks

theorem find?_replaceWorktree (k : String) : (m.replaceWorktree record).find? (·.worktree_id = k)
    = if record.worktree_id = k then (m.worktree? k).map fun _ => record else m.worktree? k :=
  find?_replaced WorktreeRecord.worktree_id record k m.worktrees

theorem task?_id {k : String} (h : m.task? k = some task) : task.task_id = k := by
  simpa using List.find?_some h

end ParallelManifest

end Agenthicc.Worktrees
