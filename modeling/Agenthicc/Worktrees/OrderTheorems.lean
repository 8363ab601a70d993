/-
Agenthicc.Worktrees.OrderTheorems — the tasks of one orchestration move
forward.

The operations run one after another; each one may be stopped after any
number of calls, as a crash does. `InOrder` is the condition on such a step:
what an operation does not look at must not matter.

  §1  the property
  §2  the condition
  §3  what one save of one task keeps
  §4  the checks in front of an operation write nothing
  §5  the operations
  §6  runs
-/
import Agenthicc.Worktrees.ManifestTheorems

namespace Agenthicc.Worktrees

open Python Tasks Runs

/-! ## 1. The property -/

/-- The statuses of a task that has been completed, integrated or cleaned. -/
def finishedStatuses : List TaskStatus := [.completed, .integrated, .cleaned]

/-- The statuses that an integrated task never has again. -/
def reopenedStatuses : List TaskStatus := [.completed, .running, .queued]

/-- Tasks only move forward and strand no dependents. -/
structure Forward (s : Site) : Prop where
  integrated : ∀ task ∈ s.stored.tasks, task.task_id ∈ s.merged → task.status ∉ reopenedStatuses
  merged_once : s.merged.Nodup
  ready : ∀ task ∈ s.stored.tasks, task.status = .pending →
    (task ∈ readyTasks s.stored ↔
      ∀ d ∈ task.dependencies, ∃ t ∈ s.stored.tasks, t.task_id = d ∧ t.status ∈ finishedStatuses)
  worktrees : (s.stored.worktrees.map (·.worktree_id)).Nodup
  dispatching : ∀ task ∈ s.stored.tasks, task.status = .dispatching → task.worker_session_id ∈ s.sessions

/-! ## 2. The condition -/

variable (cfg : Config) (answers : Answers)

/-- No pending task depends on `task_id`. -/
def NoDependents (m : ParallelManifest) (task_id : String) : Prop :=
  ∀ task ∈ m.tasks, task.status = .pending → task_id ∉ task.dependencies

/-- No dependency of the task is cleaned. -/
def NoneCleaned (m : ParallelManifest) (dependencies : List String) : Prop :=
  ∀ task ∈ m.tasks, task.status = .cleaned → task.task_id ∉ dependencies

/-- The site and the task after the mark of a dispatch. -/
def markedSite (s : Site) (selected : Selected) : Site × ParallelTask :=
  (mark selected).exec (perform answers) s

/-- What a dispatch does from its mark to the session of the worker. -/
def launching (approved : Bool) (selected : Selected) (task : ParallelTask) : Prog (Except PyError Launched) :=
  setUp cfg approved (selected.markedManifest task) task selected.record selected.project

/-- The worker is under a session that the marked task does not name. -/
def Unregistered (task : ParallelTask) (launched : Launched) : Prop :=
  cfg.has_supervisor = false ∨ launched.session_id ≠ task.worker_session_id

/-- A dispatch whose checks have passed, with the number of calls after them
(the mark is two calls): the worktree is not in the manifest yet, and the
dispatch is not stopped before the worker has its session. -/
structure DispatchInOrder (approved : Bool) (selected : Selected) (s : Site) (n : Nat) : Prop where
  worktree : selected.record.worktree_id ∉ s.stored.worktrees.map (·.worktree_id)
  launched : 2 + (launching cfg approved selected (markedSite answers s selected).2).callsOf (perform answers)
    (markedSite answers s selected).1 ≤ n
  registered : ∀ l, ((launching cfg approved selected (markedSite answers s selected).2).exec (perform answers)
      (markedSite answers s selected).1).2 = .ok l →
    Unregistered cfg (markedSite answers s selected).2 l →
    2 + (launching cfg approved selected (markedSite answers s selected).2).callsOf (perform answers)
      (markedSite answers s selected).1 < n

/-- The session and the evidence that an inspection is told of. -/
def findings (s : Site) (task : ParallelTask) (record : WorktreeRecord) :
    Option WorkerSession × Except PyError WorkerResult :=
  if task.worker_session_id ≠ "" ∧ cfg.background then
    (answers (s.calls + 2) (.session task.worker_session_id),
      answers (s.calls + 3) (.complete record task.worker_session_id))
  else (none, answers (s.calls + 2) (.complete record task.worker_session_id))

def Complete (evidence : Except PyError WorkerResult) : Prop :=
  ∃ result, evidence = .ok result ∧ result.status = "complete"

/-- The session is still at work, or the worktree has committed work. -/
def Reopens (found : Option WorkerSession × Except PyError WorkerResult) : Prop :=
  (∃ session, found.1 = some session ∧ (session.pending = true ∨ session.status ∈ activeStatuses))
    ∨ Complete found.2

/-- The worktrees that git knows under a path of no record. -/
def unknownWorktrees (stored actual : List WorktreeRecord) : List WorktreeRecord :=
  (byPath actual).filter (·.path ∉ stored.map (·.path))

/-- What an operation does not look at does not matter. The number is that of
the calls before the operation is stopped. -/
def InOrder (s : Site) : Operation × Nat → Prop
  | (.addTask task_id description dependencies, n) =>
      2 ≤ n → addRefusal s.stored (newTask task_id description dependencies) = none →
        NoneCleaned s.stored dependencies
  | (.dispatch task_id approved, n) => ∀ s' selected m,
      (select cfg approved task_id).exec (perform answers) s = (s', .ok selected) →
      n = (select cfg approved task_id).callsOf (perform answers) s + m → 2 ≤ m →
      DispatchInOrder cfg answers approved selected s' m
  | (.inspectTask task_id, n) => (examine cfg task_id).callsOf (perform answers) s < n →
      task_id ∈ s.merged → ∀ task record, s.stored.task? task_id = some task →
        s.stored.worktree? task.worktree_id = some record → ¬ Reopens (findings cfg answers s task record)
  | (.integrateTask _, _) => True
  | (.rebaseTask task_id, n) => 3 ≤ n → task_id ∈ s.merged → ∀ task record,
      s.stored.task? task_id = some task → s.stored.worktree? task.worktree_id = some record →
        ∀ result : IntegrationResult,
          answers (s.calls + 2) (.rebase record s.stored.parent_branch) = .ok result → result.ok = false
  | (.cleanupTask task_id, n) => 3 ≤ n → ∀ task record, s.stored.task? task_id = some task →
      task.status = .integrated → s.stored.worktree? task.worktree_id = some record →
        answers (s.calls + 2) (.remove record) = .ok () → NoDependents s.stored task_id
  | (.recover, n) => ∀ actual, answers (s.calls + 2) .recover = .ok actual →
      s.stored.worktrees.length + 3 ≤ n →
      ((s.stored.worktrees ++ unknownWorktrees s.stored.worktrees actual).map (·.worktree_id)).Nodup

/-- One operation, stopped after a number of calls. -/
def operate (s : Site) (i : Operation × Nat) : Site := (i.1.prog cfg).upTo (perform answers) i.2 s

/-! ## 3. One save -/

/-- The statuses of a task whose branch has been merged. -/
def settledStatuses : List TaskStatus := [.integrating, .integrated, .failed, .blocked, .cancelled, .cleaned]

/-- The invariant. The tasks in `exempt` may be without a session. -/
structure Ordered (exempt : List String) (s : Site) : Prop where
  settled : ∀ task ∈ s.stored.tasks, task.task_id ∈ s.merged → task.status ∈ settledStatuses
  merged_once : s.merged.Nodup
  merged_known : ∀ t ∈ s.merged, t ∈ s.stored.tasks.map (·.task_id)
  noneCleaned : ∀ task ∈ s.stored.tasks, task.status = .pending → NoneCleaned s.stored task.dependencies
  worktrees : (s.stored.worktrees.map (·.worktree_id)).Nodup
  dispatching : ∀ task ∈ s.stored.tasks, task.status = .dispatching → task.task_id ∉ exempt →
    task.worker_session_id ∈ s.sessions

theorem mem_readyTasks {m : ParallelManifest} {task : ParallelTask} :
    task ∈ readyTasks m ↔ task ∈ m.tasks ∧ task.status = .pending ∧ ∀ d ∈ task.dependencies,
      ∃ t ∈ m.tasks, t.task_id = d ∧ (t.status = .completed ∨ t.status = .integrated) := by
  have hdone : ∀ d, d ∈ completedIds m ↔
      ∃ t ∈ m.tasks, t.task_id = d ∧ (t.status = .completed ∨ t.status = .integrated) := by
    intro d
    rw [completedIds, List.mem_map]
    refine exists_congr fun t => ?_
    rw [List.mem_filter, decide_eq_true_eq, and_assoc, and_comm (a := t.task_id = d)]
  rw [readyTasks, List.mem_filter, decide_eq_true_eq]
  simp only [hdone]

theorem Ordered.forward {s : Site} (h : Ordered [] s) : Forward s := by
  refine ⟨fun task htask hmerged hstatus => ?_, h.merged_once, fun task htask hpending => ?_, h.worktrees,
    fun task htask hstatus => h.dispatching task htask hstatus List.not_mem_nil⟩
  · have hsettled := h.settled task htask hmerged
    simp only [settledStatuses, reopenedStatuses, List.mem_cons, List.not_mem_nil, or_false] at hsettled hstatus
    rcases hstatus with hs | hs | hs <;> simp [hs] at hsettled
  · have hcleaned := h.noneCleaned task htask hpending
    rw [mem_readyTasks]
    constructor
    · intro hready d hd
      obtain ⟨t, ht, hid, hstatus⟩ := hready.2.2 d hd
      refine ⟨t, ht, hid, ?_⟩
      rcases hstatus with hs | hs <;> simp [hs, finishedStatuses]
    · refine fun hdone => ⟨htask, hpending, fun d hd => ?_⟩
      obtain ⟨t, ht, hid, hstatus⟩ := hdone d hd
      refine ⟨t, ht, hid, ?_⟩
      simp only [finishedStatuses, List.mem_cons, List.not_mem_nil, or_false] at hstatus
      rcases hstatus with hs | hs | hs
      · exact .inl hs
      · exact .inr hs
      · exact absurd (hid ▸ hd) (hcleaned t ht hs)
section Save

variable {X Y : List String} {s s' : Site} {task : ParallelTask}

theorem mem_replaceTask {m : ParallelManifest} {x : ParallelTask} (h : x ∈ m.replaceTask task) :
    x = task ∨ (x ∈ m.tasks ∧ x.task_id ≠ task.task_id) := by
  obtain ⟨item, hitem, heq⟩ := List.mem_map.mp h
  by_cases hid : item.task_id = task.task_id
  · rw [if_pos hid] at heq
    exact .inl heq.symm
  · rw [if_neg hid] at heq
    exact .inr (heq ▸ ⟨hitem, hid⟩)

theorem ids_replaceTask (m : ParallelManifest) (task : ParallelTask) :
    (m.replaceTask task).map (·.task_id) = m.tasks.map (·.task_id) := by
  unfold ParallelManifest.replaceTask
  rw [List.map_map]
  refine List.map_congr_left fun item _ => ?_
  rw [Function.comp]
  split
  · rename_i hid
    exact hid.symm
  · rfl

theorem ids_replaceWorktree (m : ParallelManifest) (record : WorktreeRecord) :
    (m.replaceWorktree record).map (·.worktree_id) = m.worktrees.map (·.worktree_id) := by
  unfold ParallelManifest.replaceWorktree
  rw [List.map_map]
  refine List.map_congr_left fun item _ => ?_
  rw [Function.comp]
  split
  · rename_i hid
    exact hid.symm
  · rfl

theorem Ordered.replaced (h : Ordered X s) (htasks : s'.stored.tasks = s.stored.replaceTask task)
    (hmerged : s'.merged = s.merged) (hsessions : s'.sessions = s.sessions)
    (hworktrees : (s'.stored.worktrees.map (·.worktree_id)).Nodup)
    (hsettled : task.task_id ∈ s.merged → task.status ∈ settledStatuses)
    (hpending : task.status = .pending → NoneCleaned s.stored task.dependencies)
    (hcleaned : task.status = .cleaned → NoDependents s.stored task.task_id)
    (hdispatching : task.status = .dispatching → task.task_id ∉ Y → task.worker_session_id ∈ s.sessions)
    (hexempt : ∀ t ∈ X, t ≠ task.task_id → t ∈ Y) : Ordered Y s' := by
  refine ⟨fun x hx hxm => ?_, hmerged ▸ h.merged_once, fun t ht => ?_, fun x hx hxp t ht htc => ?_, hworktrees,
    fun x hx hxd hxe => ?_⟩
  · rw [htasks] at hx
    rw [hmerged] at hxm
    rcases mem_replaceTask hx with rfl | ⟨hold, -⟩
    · exact hsettled hxm
    · exact h.settled x hold hxm
  · rw [htasks, ids_replaceTask]
    exact h.merged_known t (hmerged ▸ ht)
  · rw [htasks] at hx ht
    rcases mem_replaceTask hx with rfl | ⟨hold, -⟩
    · rcases mem_replaceTask ht with rfl | ⟨htold, -⟩
      · rw [hxp] at htc
        cases htc
      · exact hpending hxp t htold htc
    · rcases mem_replaceTask ht with rfl | ⟨htold, -⟩
      · exact hcleaned htc x hold hxp
      · exact h.noneCleaned x hold hxp t htold htc
  · rw [htasks] at hx
    rw [hsessions]
    rcases mem_replaceTask hx with rfl | ⟨hold, hne⟩
    · exact hdispatching hxd hxe
    · exact h.dispatching x hold hxd fun hX => hxe (hexempt _ hX hne)

/-- A save that changes no task, and a call that saves nothing. -/
theorem Ordered.same (h : Ordered X s) (htasks : s'.stored.tasks = s.stored.tasks)
    (hmerged : s'.merged = s.merged) (hsessions : ∀ x ∈ s.sessions, x ∈ s'.sessions)
    (hworktrees : (s'.stored.worktrees.map (·.worktree_id)).Nodup) : Ordered X s' := by
  refine ⟨fun x hx hxm => ?_, hmerged ▸ h.merged_once, fun t ht => ?_, fun x hx hxp => ?_, hworktrees,
    fun x hx hxd hxe => ?_⟩
  · exact h.settled x (htasks ▸ hx) (hmerged ▸ hxm)
  · rw [htasks]
    exact h.merged_known t (hmerged ▸ ht)
  · have hclean := h.noneCleaned x (htasks ▸ hx) hxp
    unfold NoneCleaned at hclean ⊢
    rw [htasks]
    exact hclean
  · exact hsessions _ (h.dispatching x (htasks ▸ hx) hxd hxe)

theorem Ordered.added (h : Ordered X s) (htasks : s'.stored.tasks = s.stored.tasks ++ [task])
    (hmerged : s'.merged = s.merged) (hsessions : s'.sessions = s.sessions)
    (hworktrees : s'.stored.worktrees = s.stored.worktrees) (hstatus : task.status = .pending)
    (hnew : task.task_id ∉ s.stored.tasks.map (·.task_id)) (hclean : NoneCleaned s.stored task.dependencies) : Ordered X s' := by
  have hmem : ∀ x ∈ s'.stored.tasks, x ∈ s.stored.tasks ∨ x = task := by
    intro x hx
    rw [htasks] at hx
    rcases List.mem_append.mp hx with hx | hx
    · exact .inl hx
    · exact .inr (List.mem_singleton.mp hx)
  have hcleaned : ∀ t ∈ s'.stored.tasks, t.status = .cleaned → t ∈ s.stored.tasks := by
    intro t ht htc
    rcases hmem t ht with hold | rfl
    · exact hold
    · rw [hstatus] at htc
      cases htc
  refine ⟨fun x hx hxm => ?_, hmerged ▸ h.merged_once, fun t ht => ?_, fun x hx hxp t ht htc => ?_,
    hworktrees ▸ h.worktrees, fun x hx hxd hxe => ?_⟩
  · rw [hmerged] at hxm
    rcases hmem x hx with hold | rfl
    · exact h.settled x hold hxm
    · exact absurd (h.merged_known _ hxm) hnew
  · rw [htasks, List.map_append]
    exact List.mem_append_left _ (h.merged_known t (hmerged ▸ ht))
  · rcases hmem x hx with hold | rfl
    · exact h.noneCleaned x hold hxp t (hcleaned t ht htc) htc
    · exact hclean t (hcleaned t ht htc) htc
  · rw [hsessions]
    rcases hmem x hx with hold | rfl
    · exact h.dispatching x hold hxd hxe
    · rw [hstatus] at hxd
      cases hxd

end Save

/-! ## 4. The checks in front of an operation -/

/-- The manifest, the merges and the sessions are the same. -/
structure SameData (s s' : Site) : Prop where
  stored : s'.stored = s.stored
  merged : s'.merged = s.merged
  sessions : s'.sessions = s.sessions

theorem SameData.refl (s : Site) : SameData s s := ⟨rfl, rfl, rfl⟩

theorem SameData.ordered {X : List String} {s s' : Site} (h : SameData s s') (ho : Ordered X s) :
    Ordered X s' :=
  ho.same (by rw [h.stored]) h.merged (fun x hx => by rwa [h.sessions]) (by rw [h.stored]; exact ho.worktrees)

variable {cfg answers} {α β : Type}

theorem sameData_perform {s s' : Site} {o : Op} (ho : Quiet o) (h : SameData s s') :
    SameData s (perform answers s' o).1 := by
  cases o with
  | save acts base m => exact absurd ho id
  | integrate task_id record branch => exact absurd ho id
  | submit task_id session_id record receipts => exact absurd ho id
  | _ => exact ⟨h.stored, h.merged, h.sessions⟩

theorem sameData_exec {t : Prog α} (h : t.Calls Quiet) (s : Site) :
    SameData s (t.exec (perform answers) s).1 :=
  Task.Calls.exec (J := SameData s) (fun s' o ho hs => @sameData_perform answers s s' o ho hs) h (SameData.refl s)

theorem sameData_upTo {t : Prog α} (h : t.Calls Quiet) (s : Site) (n : Nat) :
    SameData s (t.upTo (perform answers) n s) :=
  Task.Calls.keeps (J := SameData s) (fun s' o ho hs => @sameData_perform answers s s' o ho hs) h (SameData.refl s) n

theorem calls_perform (s : Site) (o : Op) : (perform answers s o).1.calls = s.calls + 1 := by
  cases o with
  | integrate task_id record branch =>
      unfold perform
      dsimp only
      split <;> rfl
  | submit task_id session_id record receipts =>
      unfold perform
      dsimp only
      split <;> rfl
  | _ => rfl

theorem calls_exec (t : Prog α) (s : Site) :
    (t.exec (perform answers) s).1.calls = s.calls + t.callsOf (perform answers) s := by
  induction t generalizing s with
  | done a => rfl
  | call o next ih =>
      rw [Task.exec_call, ih, calls_perform, Task.callsOf]
      omega

theorem exec_andThen (t : Prog (Except PyError α)) (f : α → Prog (Except PyError β)) (s : Site) :
    (andThen t f).exec (perform answers) s = match (t.exec (perform answers) s).2 with
      | .ok a => (f a).exec (perform answers) (t.exec (perform answers) s).1
      | .error exc => ((t.exec (perform answers) s).1, .error exc) := by
  refine (Task.exec_bind t _ s).trans ?_
  generalize t.exec (perform answers) s = result
  obtain ⟨s₁, r⟩ := result
  cases r with
  | ok a => rfl
  | error exc => rfl

theorem andThen_ok {t : Prog (Except PyError α)} {f : α → Prog (Except PyError β)} {s s' : Site} {b : β}
    (h : (andThen t f).exec (perform answers) s = (s', .ok b)) :
    ∃ s₁ a, t.exec (perform answers) s = (s₁, .ok a) ∧ (f a).exec (perform answers) s₁ = (s', .ok b) := by
  rw [exec_andThen] at h
  cases ht : t.exec (perform answers) s with
  | mk s₁ r =>
      rw [ht] at h
      cases r with
      | ok a => exact ⟨s₁, a, rfl, h⟩
      | error exc => cases h

theorem found_ok {key : String} {o : Option α} {a : α} (h : found key o = .ok a) : o = some a := by
  cases o with
  | none => cases h
  | some b =>
      cases h
      rfl

theorem pure_found_ok {key : String} {o : Option α} {a : α} {s s' : Site}
    (h : (pure (found key o) : Prog (Except PyError α)).exec (perform answers) s = (s', .ok a)) :
    s' = s ∧ o = some a := by
  obtain ⟨hs, ha⟩ := Prod.mk.inj h
  exact ⟨hs.symm, found_ok ha⟩

/-- An operation that is stopped in its checks, or that fails in them, writes
nothing; else it goes on. -/
theorem ordered_andThen {X : List String} {t : Prog (Except PyError α)} {f : α → Prog (Except PyError β)}
    {s : Site} {n : Nat} (hquiet : t.Calls Quiet) (h : Ordered X s)
    (hgo : ∀ s' a m, t.exec (perform answers) s = (s', .ok a) → SameData s s' → Ordered X s' →
      n = t.callsOf (perform answers) s + (m + 1) → Ordered X ((f a).upTo (perform answers) (m + 1) s')) :
    Ordered X ((andThen t f).upTo (perform answers) n s) := by
  rcases Nat.lt_or_ge (t.callsOf (perform answers) s) n with hn | hn
  · obtain ⟨m, rfl⟩ : ∃ m, n = t.callsOf (perform answers) s + (m + 1) :=
      ⟨n - t.callsOf (perform answers) s - 1, by omega⟩
    have hsame := @sameData_exec answers _ _ hquiet s
    rw [andThen, Task.upTo_bind_add]
    cases ht : t.exec (perform answers) s with
    | mk s' r =>
        rw [ht] at hsame
        cases r with
        | ok a => exact hgo s' a m ht hsame (hsame.ordered h) rfl
        | error exc => exact hsame.ordered h
  · rw [andThen, Task.upTo_bind_of_le _ hn]
    exact (sameData_upTo hquiet s n).ordered h

/-- A task of the stored manifest and its record. -/
structure Chose (s : Site) (task_id : String) (c : Chosen) : Prop where
  manifest : c.manifest = s.stored
  task : s.stored.task? task_id = some c.task
  record : s.stored.worktree? c.task.worktree_id = some c.record

theorem choose_ok {s s' : Site} {task_id message : String} {fit : TaskStatus → Bool} {c : Chosen}
    (h : (choose task_id fit message).exec (perform answers) s = (s', .ok c)) :
    Chose s task_id c ∧ fit c.task.status = true ∧ s'.calls = s.calls + 1 := by
  obtain ⟨s₁, task, hfound, h⟩ := andThen_ok h
  obtain ⟨rfl, htask⟩ := pure_found_ok hfound
  split at h
  · cases h
  · rename_i hfit
    obtain ⟨s₂, record, hfound', h⟩ := andThen_ok h
    obtain ⟨rfl, hrecord⟩ := pure_found_ok hfound'
    cases h
    exact ⟨⟨rfl, htask, hrecord⟩, by simpa using hfit, rfl⟩

theorem integrable_ok {s s' : Site} {task_id : String} {c : Chosen}
    (h : (integrable task_id).exec (perform answers) s = (s', .ok c)) :
    Chose s task_id c ∧ (c.task.status = .completed ∨ c.task.status = .conflict) := by
  obtain ⟨s₁, c', hc, h⟩ := andThen_ok h
  obtain ⟨hchose, hfit, -⟩ := choose_ok hc
  obtain ⟨s₂, branch, -, h⟩ := andThen_ok h
  split at h
  · cases h
  · cases h
    exact ⟨hchose, of_decide_eq_true hfit⟩

theorem cleanable_ok {s s' : Site} {task_id : String} {c : Chosen}
    (h : (cleanable task_id).exec (perform answers) s = (s', .ok c)) :
    Chose s task_id c ∧ c.task.status = .integrated
      ∧ answers (s.calls + 2) (.remove c.record) = .ok () ∧ s'.calls = s.calls + 2 := by
  obtain ⟨s₁, c', hc, h⟩ := andThen_ok h
  obtain ⟨hchose, hfit, hcalls⟩ := choose_ok hc
  obtain ⟨s₂, u, hremove, h⟩ := andThen_ok h
  cases h
  obtain ⟨hs, hanswer⟩ := Prod.mk.inj hremove
  rw [← hs]
  have hnumber : s₁.calls + 1 = s.calls + 2 := by omega
  exact ⟨hchose, of_decide_eq_true hfit, hnumber ▸ hanswer, hnumber⟩

theorem taskAndRecord_ok {m : ParallelManifest} {task_id : String} {pair : ParallelTask × WorktreeRecord}
    (h : taskAndRecord m task_id = .ok pair) :
    m.task? task_id = some pair.1 ∧ m.worktree? pair.1.worktree_id = some pair.2 := by
  cases htask : m.task? task_id with
  | none => simp [taskAndRecord, found, htask, bind, Except.bind] at h
  | some task =>
      cases hrecord : m.worktree? task.worktree_id with
      | none => simp [taskAndRecord, found, htask, hrecord, bind, Except.bind] at h
      | some record =>
          have heq : (task, record) = pair := by
            simpa [taskAndRecord, found, htask, hrecord, bind, Except.bind, pure, Except.pure] using h
          subst heq
          exact ⟨rfl, hrecord⟩

theorem rebaseBranch_ok {s s' : Site} {task_id : String} {r : Rebased}
    (h : (rebaseBranch task_id).exec (perform answers) s = (s', .ok r)) :
    Chose s task_id ⟨r.manifest, r.task, r.record⟩
      ∧ answers (s.calls + 2) (.rebase r.record s.stored.parent_branch) = .ok r.result
      ∧ s'.calls = s.calls + 2 := by
  obtain ⟨s₁, pair, hpair, h⟩ := andThen_ok h
  obtain ⟨hs, hpair⟩ := Prod.mk.inj hpair
  obtain ⟨htask, hrecord⟩ := taskAndRecord_ok hpair
  obtain ⟨s₂, result, hresult, h⟩ := andThen_ok h
  cases h
  obtain ⟨hs', hanswer⟩ := Prod.mk.inj hresult
  subst hs hs'
  exact ⟨⟨rfl, htask, hrecord⟩, hanswer, rfl⟩

theorem select_ok {s s' : Site} {approved : Bool} {task_id : String} {selected : Selected}
    (h : (select cfg approved task_id).exec (perform answers) s = (s', .ok selected)) :
    selected.manifest = s.stored ∧ s.stored.task? task_id = some selected.task
      ∧ selected.task.status = .pending := by
  obtain ⟨s₁, task, hfound, h⟩ := andThen_ok h
  obtain ⟨rfl, htask⟩ := pure_found_ok hfound
  split at h
  · cases h
  · rename_i hstatus
    rw [not_not] at hstatus
    rw [Task.bind_ask, Task.exec_call] at h
    split at h
    · cases h
    · obtain ⟨s₂, head, -, h⟩ := andThen_ok h
      split at h
      · cases h
      · obtain ⟨s₃, project, -, h⟩ := andThen_ok h
        obtain ⟨s₄, root, -, h⟩ := andThen_ok h
        obtain ⟨s₅, u, -, h⟩ := andThen_ok h
        obtain ⟨s₆, record, -, h⟩ := andThen_ok h
        rw [checkPath, Task.bind_ask, Task.exec_call] at h
        split at h
        · cases h
        · cases h
          exact ⟨rfl, htask, hstatus⟩

theorem inspected_cases (task : ParallelTask) (result : WorkerResult) (session : Option WorkerSession) :
    (inspected task result session).1 ∈ [.failed, .cancelled, task.status]
      ∨ ((inspected task result session).1 = .completed ∧ result.status = "complete") := by
  unfold inspected
  dsimp only
  by_cases hresult : result.status = "complete"
  · rw [if_pos hresult]
    exact .inr ⟨rfl, hresult⟩
  · rw [if_neg hresult]
    left
    split_ifs <;> simp

theorem examineWorktree_ok {s s' : Site} {m : ParallelManifest} {task : ParallelTask} {record : WorktreeRecord}
    {session : Option WorkerSession} {e : Examined}
    (h : (examineWorktree m task record session).exec (perform answers) s = (s', .ok e)) :
    e.manifest = m ∧ e.task = task ∧ e.record = record ∧ (e.status ∈ [.failed, .cancelled, task.status]
      ∨ (e.status = .completed ∧ Complete (answers (s.calls + 1) (.complete record task.worker_session_id)))) := by
  obtain ⟨s₁, result, hresult, h⟩ := andThen_ok h
  cases h
  obtain ⟨-, hanswer⟩ := Prod.mk.inj hresult
  refine ⟨rfl, rfl, rfl, (inspected_cases task result session).imp_right fun hc => ⟨hc.1, result, hanswer, hc.2⟩⟩

theorem examine_ok {s s' : Site} {task_id : String} {e : Examined}
    (h : (examine cfg task_id).exec (perform answers) s = (s', .ok e)) :
    Chose s task_id ⟨e.manifest, e.task, e.record⟩ ∧ (e.status ∈ [.failed, .cancelled, e.task.status]
      ∨ (e.status ∈ reopenedStatuses ∧ Reopens (findings cfg answers s e.task e.record))) := by
  obtain ⟨s₁, task, hfound, h⟩ := andThen_ok h
  obtain ⟨rfl, htask⟩ := pure_found_ok hfound
  split at h
  · cases h
  · obtain ⟨s₂, record, hfound', h⟩ := andThen_ok h
    obtain ⟨rfl, hrecord⟩ := pure_found_ok hfound'
    have hchose : Chose s task_id ⟨s.stored, task, record⟩ := ⟨rfl, htask, hrecord⟩
    unfold workerSession at h
    by_cases hlook : task.worker_session_id ≠ "" ∧ cfg.background = true
    · rw [if_pos hlook, Task.bind_ask, Task.exec_call] at h
      have hfindings : findings cfg answers s task record
          = (answers (s.calls + 2) (.session task.worker_session_id),
              answers (s.calls + 3) (.complete record task.worker_session_id)) := if_pos hlook
      change (examineSession s.stored task record (answers (s.calls + 2) (.session task.worker_session_id))).exec
        (perform answers) { s with calls := s.calls + 2 } = _ at h
      cases hsession : answers (s.calls + 2) (.session task.worker_session_id) with
      | none =>
          rw [hsession] at h hfindings
          obtain ⟨hm, rfl, rfl, hstatus⟩ := examineWorktree_ok h
          refine ⟨hm ▸ hchose, hstatus.imp_right fun hc => ⟨by simp [hc.1, reopenedStatuses], .inr ?_⟩⟩
          rw [hfindings]
          exact hc.2
      | some session =>
          rw [hsession] at h hfindings
          unfold examineSession at h
          dsimp only at h
          split at h
          · rename_i hpending
            cases h
            refine ⟨hchose, .inr ⟨by simp [reopenedStatuses], .inl ⟨session, ?_, .inl hpending⟩⟩⟩
            rw [hfindings]
          · split at h
            · rename_i hactive
              cases h
              refine ⟨hchose, .inr ⟨by simp [reopenedStatuses], .inl ⟨session, ?_, .inr hactive⟩⟩⟩
              rw [hfindings]
            · obtain ⟨hm, rfl, rfl, hstatus⟩ := examineWorktree_ok h
              refine ⟨hm ▸ hchose, hstatus.imp_right fun hc => ⟨by simp [hc.1, reopenedStatuses], .inr ?_⟩⟩
              rw [hfindings]
              exact hc.2
    · rw [if_neg hlook] at h
      have hfindings : findings cfg answers s task record
          = (none, answers (s.calls + 2) (.complete record task.worker_session_id)) := if_neg hlook
      obtain ⟨hm, rfl, rfl, hstatus⟩ := examineWorktree_ok h
      refine ⟨hm ▸ hchose, hstatus.imp_right fun hc => ⟨by simp [hc.1, reopenedStatuses], .inr ?_⟩⟩
      rw [hfindings]
      exact hc.2

/-- A recovery keeps the ids and the paths of the records. -/
theorem surviving_exec (records : List WorktreeRecord) (s : Site) :
    ((surviving records).exec (perform answers) s).2.map (fun r => (r.worktree_id, r.path))
        = records.map (fun r => (r.worktree_id, r.path))
      ∧ ((surviving records).exec (perform answers) s).1.calls = s.calls + records.length := by
  induction records generalizing s with
  | nil => exact ⟨rfl, rfl⟩
  | cons record rest ih =>
      rw [surviving, Task.bind_ask, Task.exec_call, Task.exec_bind]
      obtain ⟨hrest, hcalls⟩ := ih (perform answers s (.isDir record.path)).1
      refine ⟨?_, ?_⟩
      · rw [Task.pure_eq, Task.exec_done, List.map_cons, List.map_cons, hrest]
        congr 1
        split <;> rfl
      · rw [Task.pure_eq, Task.exec_done, hcalls, calls_perform, List.length_cons]
        omega

theorem survey_ok {s s' : Site} {r : Recovered} (h : survey.exec (perform answers) s = (s', .ok r)) :
    r.manifest = s.stored
      ∧ r.worktrees.map (fun r => (r.worktree_id, r.path))
          = s.stored.worktrees.map (fun r => (r.worktree_id, r.path))
      ∧ (∃ actual, answers (s.calls + 2) .recover = .ok actual ∧ r.actual = byPath actual)
      ∧ s'.calls = s.calls + 2 + s.stored.worktrees.length := by
  obtain ⟨s₁, actual, hactual, h⟩ := andThen_ok h
  obtain ⟨hs, hanswer⟩ := Prod.mk.inj hactual
  rw [Task.exec_bind] at h
  obtain ⟨hworktrees, hcalls⟩ := @surviving_exec answers s.stored.worktrees s₁
  cases h
  refine ⟨rfl, hworktrees, ⟨actual, hanswer, rfl⟩, ?_⟩
  rw [← hs] at hcalls ⊢
  exact hcalls

theorem nodup_byPath (records : List WorktreeRecord) : ((byPath records).map (·.path)).Nodup := by
  have hfold : ∀ (seen : List WorktreeRecord), (seen.map (·.path)).Nodup →
      ((records.foldl (fun seen record =>
        if record.path ∈ seen.map (·.path) then
          seen.map fun r => if r.path = record.path then record else r
        else seen ++ [record]) seen).map (·.path)).Nodup := by
    induction records with
    | nil => exact fun seen hseen => hseen
    | cons record rest ih =>
        intro seen hseen
        rw [List.foldl_cons]
        refine ih _ ?_
        split
        · have hsame : (seen.map fun r => if r.path = record.path then record else r).map (·.path)
              = seen.map (·.path) := by
            rw [List.map_map]
            refine List.map_congr_left fun r _ => ?_
            rw [Function.comp]
            split
            · rename_i hpath
              exact hpath.symm
            · rfl
          rw [hsame]
          exact hseen
        · rename_i hnew
          rw [List.map_append, List.map_singleton, List.nodup_append]
          refine ⟨hseen, by simp, fun a ha b hb heq => ?_⟩
          rw [List.mem_singleton.mp hb] at heq
          exact hnew (heq ▸ ha)
  exact hfold [] List.nodup_nil

theorem adopted_eq (worktrees : List WorktreeRecord) : ∀ {actual : List WorktreeRecord},
    (actual.map (·.path)).Nodup →
      adopted worktrees actual = worktrees ++ actual.filter (·.path ∉ worktrees.map (·.path)) := by
  intro actual
  induction actual generalizing worktrees with
  | nil => simp [adopted]
  | cons record rest ih =>
      intro hnodup
      rw [List.map_cons, List.nodup_cons] at hnodup
      rw [adopted, List.foldl_cons, ← adopted]
      by_cases hknown : record.path ∈ worktrees.map (·.path)
      · rw [if_pos hknown, ih worktrees hnodup.2, List.filter_cons_of_neg (by simpa using hknown)]
      · rw [if_neg hknown, ih (worktrees ++ [record]) hnodup.2,
          List.filter_cons_of_pos (by simpa using hknown), List.append_assoc, List.singleton_append]
        congr 2
        refine List.filter_congr fun r hr => ?_
        have hne : r.path ≠ record.path := fun heq => hnodup.1 (heq ▸ List.mem_map_of_mem hr)
        simp [hne]

theorem survey_ids {s s' : Site} {r : Recovered} (h : survey.exec (perform answers) s = (s', .ok r)) :
    ∃ actual, answers (s.calls + 2) .recover = .ok actual ∧ r.saved.worktrees.map (·.worktree_id)
      = (s.stored.worktrees ++ unknownWorktrees s.stored.worktrees actual).map (·.worktree_id) := by
  obtain ⟨-, hworktrees, ⟨actual, hanswer, hactual⟩, -⟩ := survey_ok h
  refine ⟨actual, hanswer, ?_⟩
  have hids := congrArg (List.map Prod.fst) hworktrees
  have hpaths := congrArg (List.map Prod.snd) hworktrees
  rw [List.map_map, List.map_map] at hids hpaths
  rw [Recovered.saved, hactual, adopted_eq _ (nodup_byPath actual), List.map_append, List.map_append]
  congr 1
  unfold unknownWorktrees
  rw [show r.worktrees.map (·.path) = s.stored.worktrees.map (·.path) from hpaths]

/-! ## 5. The operations -/

theorem upTo_save (acts : Acts) (base m : ParallelManifest) (a : α) (n : Nat) (s : Site) :
    ((Task.ask (Op.save acts base m) : Prog Unit) >>= fun _ => (pure a : Prog α)).upTo (perform answers) (n + 1) s
      = (perform answers s (.save acts base m)).1 := by
  rw [Task.bind_ask, Task.upTo_call_succ, Task.pure_eq, Task.upTo_done]

section Operations

variable {X : List String} {s s' : Site} {n : Nat} {task_id : String}

theorem Chose.mem {c : Chosen} (h : Chose s task_id c) : c.task ∈ s.stored.tasks :=
  List.mem_of_find?_eq_some h.task

theorem Chose.id {c : Chosen} (h : Chose s task_id c) : c.task.task_id = task_id :=
  ParallelManifest.task?_id h.task

theorem Ordered.noDependents (h : Ordered X s) {task : ParallelTask} (htask : task ∈ s.stored.tasks)
    (hstatus : task.status = .cleaned) : NoDependents s.stored task.task_id :=
  fun x hx hpending => h.noneCleaned x hx hpending task htask hstatus

theorem refused_known {m : ParallelManifest} {task : ParallelTask} (h : addRefusal m task = none) :
    task.task_id ∉ m.tasks.map (·.task_id) := by
  intro hknown
  unfold addRefusal at h
  dsimp only at h
  rw [if_pos hknown] at h
  split at h <;> cases h

theorem ordered_addTask (description : String) (dependencies : List String)
    (h : Ordered X s) (hok : InOrder cfg answers s (.addTask task_id description dependencies, n)) :
    Ordered X ((addTask task_id description dependencies).upTo (perform answers) n s) := by
  have hread : SameData s (perform answers s .get).1 := ⟨rfl, rfl, rfl⟩
  cases n with
  | zero => rwa [Task.upTo_zero]
  | succ n =>
      rw [addTask, Task.bind_ask, Task.upTo_call_succ]
      split
      · rw [Task.pure_eq, Task.upTo_done]
        exact hread.ordered h
      · rename_i hadd
        cases n with
        | zero =>
            rw [Task.upTo_zero]
            exact hread.ordered h
        | succ n =>
            rw [saveAdded, upTo_save]
            have hclean := hok (by omega) hadd
            exact h.added rfl rfl rfl rfl rfl (refused_known hadd) hclean

theorem ordered_inspectTask (h : Ordered X s) (hok : InOrder cfg answers s (.inspectTask task_id, n)) :
    Ordered X ((inspectTask cfg task_id).upTo (perform answers) n s) := by
  refine ordered_andThen (quiet_examine task_id) h fun s' e m hexec hsame hs' hn => ?_
  obtain ⟨hchose, hstatus⟩ := examine_ok hexec
  rw [upTo_save]
  have hmem : e.task ∈ s'.stored.tasks := hsame.stored ▸ hchose.mem
  have hmanifest : e.manifest = s'.stored := hchose.manifest.trans hsame.stored.symm
  -- a status that is neither new nor reopened is the one that the task had
  have hkept : ∀ status, e.status = status → status ≠ .failed → status ≠ .cancelled →
      status ∉ reopenedStatuses → e.task.status = status := by
    intro status heq hfailed hcancelled hreopened
    rcases hstatus with hs | ⟨hs, -⟩
    · rw [heq] at hs
      simpa [hfailed, hcancelled, eq_comm] using hs
    · exact absurd (heq ▸ hs) hreopened
  have hids : ((perform answers s' (.save (.task e.task.task_id e.record.worktree_id) e.manifest
      e.saved)).1.stored.worktrees.map (·.worktree_id)) = s'.stored.worktrees.map (·.worktree_id) := by
    change e.saved.worktrees.map _ = _
    rw [← hmanifest, Examined.saved]
    dsimp only
    split
    · exact ids_replaceWorktree e.manifest { e.record with
        status := if e.status = .completed then .completed else .active
        head_commit := e.result.head_commit
        dirty := !e.result.clean }
    · rfl
  refine @Ordered.replaced X X s' _ { e.task with status := e.status, result := some e.result } hs'
    ?_ rfl rfl ?_ ?_ ?_ ?_ ?_ ?_
  · rw [← hmanifest]
    rfl
  · rw [hids]
    exact hs'.worktrees
  · intro hmerged
    have hold := hs'.settled e.task hmem hmerged
    rcases hstatus with hs | ⟨-, hreopens⟩
    · simp only [List.mem_cons, List.not_mem_nil, or_false] at hs
      rcases hs with hs | hs | hs
      · simp [hs, settledStatuses]
      · simp [hs, settledStatuses]
      · exact hs ▸ hold
    · have hm : task_id ∈ s.merged := hsame.merged ▸ hchose.id ▸ hmerged
      exact absurd hreopens (hok (by omega) hm e.task e.record hchose.task hchose.record)
  · intro hpending
    exact hs'.noneCleaned e.task hmem (hkept _ hpending (by decide) (by decide) (by decide))
  · intro hcleaned
    have hno := hs'.noDependents hmem (hkept _ hcleaned (by decide) (by decide) (by decide))
    exact hno
  · intro hdispatching hX
    exact hs'.dispatching e.task hmem (hkept _ hdispatching (by decide) (by decide) (by decide)) hX
  · exact fun t ht _ => ht

/-- A save that gives a chosen task a status of which nothing is asked. -/
theorem Ordered.chosen (h : Ordered X s) {c : Chosen} (task : ParallelTask) (record : WorktreeRecord)
    (hchose : Chose s task_id c) (hs : SameData s s') {acts : Acts} {base m : ParallelManifest}
    (htasks : m.tasks = c.manifest.replaceTask task) (hworktrees : m.worktrees = c.manifest.replaceWorktree record)
    (hid : task.task_id = c.task.task_id)
    (hsettled : task_id ∈ s.merged → task.status ∈ settledStatuses)
    (hplain : task.status ≠ .pending ∧ task.status ≠ .dispatching)
    (hcleaned : task.status = .cleaned → NoDependents s.stored task_id) :
    Ordered X (perform answers s' (.save acts base m)).1 := by
  have hmanifest : c.manifest = s'.stored := hchose.manifest.trans hs.stored.symm
  have htask : task.task_id = task_id := hid.trans hchose.id
  rw [hmanifest] at htasks hworktrees
  refine (hs.ordered h).replaced htasks rfl rfl ?_ (fun hm => ?_) (fun hp => ?_)
    (fun hc => ?_) (fun hd => ?_) fun t ht _ => ht
  · change (m.worktrees.map _).Nodup
    rw [hworktrees, ids_replaceWorktree]
    exact (hs.ordered h).worktrees
  · rw [htask, hs.merged] at hm
    exact hsettled hm
  · exact absurd hp hplain.1
  · rw [htask, hs.stored]
    exact hcleaned hc
  · exact absurd hd hplain.2

theorem ordered_rebaseTask (h : Ordered X s) (hok : InOrder cfg answers s (.rebaseTask task_id, n)) :
    Ordered X ((rebaseTask task_id).upTo (perform answers) n s) := by
  refine ordered_andThen (quiet_rebaseBranch task_id) h fun s' r m hexec hsame hs' hn => ?_
  obtain ⟨hchose, hanswer, hcalls⟩ := rebaseBranch_ok hexec
  have hcount := @calls_exec answers _ (rebaseBranch task_id) s
  rw [hexec] at hcount
  split
  · rename_i hmergedOk
    rw [upTo_save]
    refine h.chosen { r.task with status := .completed, error := "" }
      { r.record with status := .completed, head_commit := r.result.head_commit, conflict_paths := [] } hchose hsame rfl rfl rfl (fun hm => ?_) (by simp) (by simp)
    have hfailed := hok (by dsimp only at hcount; omega) hm r.task r.record hchose.task hchose.record r.result hanswer
    rw [hfailed] at hmergedOk
    cases hmergedOk
  · rw [Task.pure_eq, Task.upTo_done]
    exact hs'

theorem ordered_cleanupTask (h : Ordered X s) (hok : InOrder cfg answers s (.cleanupTask task_id, n)) :
    Ordered X ((cleanupTask task_id).upTo (perform answers) n s) := by
  refine ordered_andThen (quiet_cleanable task_id) h fun s' c m hexec hsame hs' hn => ?_
  obtain ⟨hchose, hstatus, hanswer, hcalls⟩ := cleanable_ok hexec
  have hcount := @calls_exec answers _ (cleanable task_id) s
  rw [hexec] at hcount
  rw [upTo_save]
  refine h.chosen { c.task with status := .cleaned } { c.record with status := .removed, dirty := false } hchose hsame rfl rfl rfl
    (fun _ => by simp [settledStatuses]) (by simp) fun _ => ?_
  exact hok (by dsimp only at hcount; omega) c.task c.record hchose.task hstatus hchose.record hanswer

theorem ordered_recoverAll (h : Ordered X s) (hok : InOrder cfg answers s (.recover, n)) :
    Ordered X (recoverAll.upTo (perform answers) n s) := by
  refine ordered_andThen quiet_survey h fun s' r m hexec hsame hs' hn => ?_
  obtain ⟨actual, hanswer, hids⟩ := survey_ids hexec
  obtain ⟨hmanifest, -, -, hcalls⟩ := survey_ok hexec
  have hcount := @calls_exec answers _ survey s
  rw [hexec] at hcount
  rw [upTo_save]
  refine hs'.same ?_ rfl (fun x hx => hx) ?_
  · change r.manifest.tasks = _
    rw [hmanifest, hsame.stored]
  · change (r.saved.worktrees.map _).Nodup
    rw [hids]
    exact hok actual hanswer (by dsimp only at hcount; omega)

/-- The outcome of a merge is saved over what is stored by then. -/
theorem ordered_saveIntegration (h : Ordered X s) (c : Chosen) (result : IntegrationResult)
    (hfailed : result.ok = false → c.task.task_id ∉ s.merged) :
    Ordered X ((saveIntegration s.stored c.task c.record result).upTo (perform answers) n s) := by
  cases n with
  | zero => rwa [Task.upTo_zero]
  | succ n =>
      rw [saveIntegration, upTo_save]
      cases hr : result.ok with
      | true =>
          rw [if_pos rfl]
          refine @Ordered.replaced X X s _ { c.task with status := .integrated } h rfl rfl rfl ?_
            (fun _ => by simp [settledStatuses]) (fun hp => nomatch hp) (fun hc => nomatch hc)
            (fun hd => nomatch hd) fun t ht _ => ht
          exact ids_replaceWorktree s.stored _ ▸ h.worktrees
      | false =>
          rw [if_neg Bool.false_ne_true]
          refine @Ordered.replaced X X s _ { c.task with status := .conflict, error := result.message } h rfl rfl rfl
            ?_ (fun hm => absurd hm (hfailed hr)) (fun hp => nomatch hp) (fun hc => nomatch hc)
            (fun hd => nomatch hd) fun t ht _ => ht
          exact ids_replaceWorktree s.stored _ ▸ h.worktrees

/-- A task that is marked as being integrated may be counted as merged. -/
theorem Ordered.merge (h : Ordered X s) {t : String} (hmarked : ∀ x ∈ s.stored.tasks, x.task_id = t →
    x.status = .integrating) (hknown : t ∈ s.stored.tasks.map (·.task_id)) (hnew : t ∉ s.merged)
    (hstored : s'.stored = s.stored) (hmerged : s'.merged = s.merged ++ [t]) (hsessions : s'.sessions = s.sessions) :
    Ordered X s' := by
  refine ⟨fun x hx hxm => ?_, ?_, fun y hy => ?_, ?_, ?_, ?_⟩
  · rw [hmerged] at hxm
    rcases List.mem_append.mp hxm with hold | hx'
    · exact h.settled x (hstored ▸ hx) hold
    · rw [hmarked x (hstored ▸ hx) (List.mem_singleton.mp hx')]
      simp [settledStatuses]
  · rw [hmerged, List.nodup_append]
    refine ⟨h.merged_once, by simp, fun a ha b hb heq => ?_⟩
    rw [List.mem_singleton.mp hb] at heq
    exact hnew (heq ▸ ha)
  · rw [hstored]
    rw [hmerged] at hy
    rcases List.mem_append.mp hy with hold | hy'
    · exact h.merged_known y hold
    · exact List.mem_singleton.mp hy' ▸ hknown
  · rw [hstored]
    exact h.noneCleaned
  · rw [hstored]
    exact h.worktrees
  · rw [hstored, hsessions]
    exact h.dispatching

theorem ordered_merge (h : Ordered X s) (c : Chosen)
    (hmarked : ∀ x ∈ s.stored.tasks, x.task_id = c.task.task_id → x.status = .integrating)
    (hknown : c.task.task_id ∈ s.stored.tasks.map (·.task_id)) (hnew : c.task.task_id ∉ s.merged) :
    Ordered X ((merge c).upTo (perform answers) n s) := by
  cases n with
  | zero => rwa [Task.upTo_zero]
  | succ n =>
      rw [merge, andThen, Task.bind_ask, Task.upTo_call_succ]
      cases hanswer : answers (s.calls + 1) (.integrate c.task.task_id c.record c.manifest.parent_branch) with
      | error exc =>
          have hperform : perform answers s (.integrate c.task.task_id c.record c.manifest.parent_branch)
              = ({ s with calls := s.calls + 1 }, .error exc) := by
            simp only [perform, hanswer]
          rw [hperform]
          dsimp only
          rw [Task.pure_eq, Task.upTo_done]
          exact h.same rfl rfl (fun x hx => hx) h.worktrees
      | ok result =>
          have hperform : perform answers s (.integrate c.task.task_id c.record c.manifest.parent_branch)
              = ({ s with
                  calls := s.calls + 1
                  merged := if result.ok then s.merged ++ [c.task.task_id] else s.merged }, .ok result) := by
            simp only [perform, hanswer]
          rw [hperform]
          dsimp only
          have hmerge : Ordered X { s with
              calls := s.calls + 1
              merged := if result.ok then s.merged ++ [c.task.task_id] else s.merged } := by
            cases hr : result.ok with
            | true => exact h.merge hmarked hknown hnew rfl (by simp) rfl
            | false => exact h.same rfl (by simp) (fun x hx => hx) h.worktrees
          cases n with
          | zero => rwa [Task.upTo_zero]
          | succ n =>
              rw [Task.bind_ask, Task.upTo_call_succ]
              have hread : Ordered X (perform answers { s with
                  calls := s.calls + 1
                  merged := if result.ok then s.merged ++ [c.task.task_id] else s.merged } .get).1 :=
                hmerge.same rfl rfl (fun x hx => hx) hmerge.worktrees
              refine ordered_saveIntegration hread c result fun hfailed => ?_
              simpa [perform, hfailed] using hnew

theorem ordered_integrateTask (h : Ordered X s) :
    Ordered X ((integrateTask task_id).upTo (perform answers) n s) := by
  refine ordered_andThen (quiet_integrable task_id) h fun s' c m hexec hsame hs' hn => ?_
  obtain ⟨hchose, hstatus⟩ := integrable_ok hexec
  have hmanifest : c.manifest = s'.stored := hchose.manifest.trans hsame.stored.symm
  have hnew : c.task.task_id ∉ s.merged := by
    intro hm
    have hsettled := h.settled c.task hchose.mem hm
    rcases hstatus with hs | hs <;> simp [hs, settledStatuses] at hsettled
  rw [Task.bind_ask, Task.upTo_call_succ]
  have hmarked : Ordered X (perform answers s' (.save (.task c.task.task_id c.record.worktree_id) c.manifest
      c.integrating)).1 :=
    h.chosen { c.task with status := .integrating } { c.record with status := .integrating } hchose hsame rfl rfl
      rfl (fun _ => by simp [settledStatuses]) (by simp) (by simp)
  refine ordered_merge hmarked c (fun x hx hid => ?_) ?_ (hsame.merged ▸ hnew)
  · rcases mem_replaceTask (show x ∈ c.manifest.replaceTask { c.task with status := .integrating } from hx)
      with rfl | ⟨-, hne⟩
    · rfl
    · exact absurd hid hne
  · change _ ∈ (c.manifest.replaceTask { c.task with status := .integrating }).map (·.task_id)
    rw [ids_replaceTask, hmanifest, hsame.stored]
    exact List.mem_map_of_mem hchose.mem

/-! ### Dispatch -/

/-- From the mark of a dispatch on: the marked task may be without a session. -/
structure Dispatching (task : ParallelTask) (s : Site) : Prop where
  ordered : Ordered [task.task_id] s
  unmerged : task.task_id ∉ s.merged
  clean : NoneCleaned s.stored task.dependencies
  marked : ∀ x ∈ s.stored.tasks, x.task_id = task.task_id → x = task

variable {task : ParallelTask}

/-- A save that changes no task, and a call that saves nothing. -/
theorem Dispatching.same (h : Dispatching task s) (htasks : s'.stored.tasks = s.stored.tasks)
    (hmerged : s'.merged = s.merged) (hsessions : ∀ x ∈ s.sessions, x ∈ s'.sessions)
    (hworktrees : s'.stored.worktrees.map (·.worktree_id) = s.stored.worktrees.map (·.worktree_id)) :
    Dispatching task s' := by
  refine ⟨h.ordered.same htasks hmerged hsessions (hworktrees ▸ h.ordered.worktrees), hmerged ▸ h.unmerged, ?_, ?_⟩
  · have hclean := h.clean
    unfold NoneCleaned at hclean ⊢
    rw [htasks]
    exact hclean
  · rw [htasks]
    exact h.marked

theorem Dispatching.quiet (h : Dispatching task s) (hs : SameData s s') : Dispatching task s' :=
  h.same (by rw [hs.stored]) hs.merged (fun x hx => hs.sessions ▸ hx) (by rw [hs.stored])

/-- The save that ends a dispatch, in success or in failure. -/
theorem Dispatching.ended (h : Dispatching task s) (new : ParallelTask)
    (htasks : s'.stored.tasks = s.stored.replaceTask new) (hmerged : s'.merged = s.merged)
    (hsessions : s'.sessions = s.sessions)
    (hworktrees : s'.stored.worktrees.map (·.worktree_id) = s.stored.worktrees.map (·.worktree_id))
    (hid : new.task_id = task.task_id) (hdependencies : new.dependencies = task.dependencies)
    (hstatus : new.status ≠ .cleaned ∧ new.status ≠ .dispatching) : Ordered [] s' := by
  refine h.ordered.replaced htasks hmerged hsessions (hworktrees ▸ h.ordered.worktrees) (fun hm => ?_)
    (fun _ => hdependencies ▸ h.clean) (fun hc => absurd hc hstatus.1) (fun hd => absurd hd hstatus.2)
    fun t ht hne => ?_
  · rw [hid] at hm
    exact absurd hm h.unmerged
  · rw [List.mem_singleton.mp ht, hid] at hne
    exact absurd rfl hne

/-- With its session registered, the marked task is as any other. -/
theorem Dispatching.registered (h : Dispatching task s) (hsession : task.worker_session_id ∈ s.sessions) :
    Ordered [] s := by
  refine ⟨h.ordered.settled, h.ordered.merged_once, h.ordered.merged_known, h.ordered.noneCleaned,
    h.ordered.worktrees, fun x hx hd _ => ?_⟩
  by_cases hx' : x.task_id = task.task_id
  · rw [h.marked x hx hx']
    exact hsession
  · exact h.ordered.dispatching x hx hd (by simpa using hx')

/-- What a dispatch has come to when its setup and its launch are over. -/
def AfterLaunch (cfg : Config) (task : ParallelTask) : Site × Except PyError Launched → Prop
  | (s, .error _) => Ordered [] s
  | (s, .ok l) => Dispatching task s ∧ s.stored = l.m ∧
      (¬ Unregistered cfg task l → task.worker_session_id ∈ s.sessions)

theorem saveRetryable_spec (h : Dispatching task s) (record : WorktreeRecord) (error : String) :
    AfterLaunch cfg task ((saveRetryable s.stored task record error).exec (perform answers) s) :=
  h.ended { task with status := .pending, worker_session_id := "", error := error } rfl rfl rfl
    (ids_replaceWorktree s.stored _) rfl rfl ⟨by simp, by simp⟩

theorem launch_spec (h : Dispatching task s) (record : WorktreeRecord) (receipts : List String) :
    AfterLaunch cfg task ((launch cfg s.stored task record receipts).exec (perform answers) s) := by
  rw [launch, Task.exec_bind, submitWorker]
  by_cases hsupervisor : cfg.has_supervisor = true
  · rw [if_pos hsupervisor, Task.ask, Task.exec_call]
    cases hanswer : answers (s.calls + 1) (.submit task.task_id task.worker_session_id record receipts) with
    | error exc =>
        have hperform : perform answers s (.submit task.task_id task.worker_session_id record receipts)
            = ({ s with calls := s.calls + 1 }, .error exc) := by
          simp only [perform, hanswer]
        rw [hperform]
        exact h.ended { task with status := .failed, error := cfg.describe exc } rfl rfl rfl rfl rfl rfl
          ⟨by simp, by simp⟩
    | ok session =>
        have hperform : perform answers s (.submit task.task_id task.worker_session_id record receipts)
            = ({ s with calls := s.calls + 1, sessions := s.sessions ++ [session.1] }, .ok session) := by
          simp only [perform, hanswer]
        rw [hperform]
        refine ⟨h.same rfl rfl (fun x hx => List.mem_append_left _ hx) rfl, rfl, fun hregistered => ?_⟩
        have hid : session.1 = task.worker_session_id := by
          by_contra hne
          exact hregistered (.inr hne)
        exact List.mem_append_right _ (List.mem_singleton.mpr hid.symm)
  · rw [if_neg hsupervisor]
    exact ⟨h, rfl, fun hregistered => absurd (.inl (by simpa using hsupervisor)) hregistered⟩

theorem saveLaunched_spec (h : Dispatching task s) (l : Launched) (hl : s.stored = l.m) (record : WorktreeRecord) :
    Ordered [] ((saveLaunched task record l).upTo (perform answers) (n + 1) s) := by
  unfold saveLaunched
  dsimp only
  rw [upTo_save, ← hl]
  let running : ParallelTask := { task with
    status := if l.queued then .queued else .running
    worker_session_id := l.session_id
    worktree_id := record.worktree_id }
  refine h.ended running rfl rfl rfl rfl rfl rfl ?_
  cases hq : l.queued <;> simp [running, hq]

theorem afterSetup_spec (h : Dispatching task s) (record : WorktreeRecord) (receipt : EnvironmentRunReceipt) :
    AfterLaunch cfg task ((afterSetup cfg s.stored task record receipt).exec (perform answers) s) := by
  have hsaved : Dispatching task (perform answers s (.save (.task task.task_id (record.withReceipt receipt).worktree_id)
      s.stored { s.stored with worktrees := s.stored.replaceWorktree (record.withReceipt receipt) })).1 :=
    h.same rfl rfl (fun x hx => hx) (ids_replaceWorktree s.stored _)
  unfold afterSetup
  dsimp only
  rw [Task.bind_ask, Task.exec_call]
  split
  · exact saveRetryable_spec hsaved _ _
  · exact launch_spec hsaved _ _

theorem quiet_runSetup (approved : Bool) (project : Option EnvironmentManifest) (record : WorktreeRecord) :
    (runSetup approved project record).Calls Quiet := by
  refine calls_andThen (Task.Calls.ask trivial) fun worker => ?_
  split
  · trivial
  · exact Task.Calls.ask trivial

theorem setUp_spec (h : Dispatching task s) (approved : Bool) (record : WorktreeRecord)
    (project : Option EnvironmentManifest) :
    AfterLaunch cfg task ((setUp cfg approved s.stored task record project).exec (perform answers) s) := by
  rw [setUp, Task.exec_bind]
  have hsame := @sameData_exec answers _ _ (quiet_runSetup approved project record) s
  have hquiet := h.quiet hsame
  cases hr : (runSetup approved project record).exec (perform answers) s with
  | mk s₁ r =>
      rw [hr] at hsame hquiet
      rw [← hsame.stored]
      cases r with
      | error exc => exact saveRetryable_spec hquiet _ _
      | ok receipt =>
          cases receipt with
          | none => exact launch_spec hquiet _ _
          | some receipt => exact afterSetup_spec hquiet _ _

theorem markedSite_spec (h : Ordered [] s) {selected : Selected} (hmanifest : selected.manifest = s.stored)
    (htask : selected.task ∈ s.stored.tasks) (hpending : selected.task.status = .pending)
    (hnew : selected.record.worktree_id ∉ s.stored.worktrees.map (·.worktree_id)) :
    Dispatching (markedSite answers s selected).2 (markedSite answers s selected).1
      ∧ (markedSite answers s selected).1.stored = selected.markedManifest (markedSite answers s selected).2 := by
  have hunmerged : selected.task.task_id ∉ s.merged := by
    intro hm
    have hsettled := h.settled selected.task htask hm
    simp [hpending, settledStatuses] at hsettled
  have htasks : (markedSite answers s selected).1.stored.tasks
      = s.stored.replaceTask (markedSite answers s selected).2 := hmanifest ▸ rfl
  refine ⟨⟨?_, hunmerged, ?_, fun x hx hid => ?_⟩, rfl⟩
  · refine h.replaced htasks rfl rfl ?_ (fun hm => absurd hm hunmerged) (fun hp => nomatch hp) (fun hc => nomatch hc)
      (fun _ hne => absurd (List.mem_singleton.mpr rfl) hne) fun t ht _ => absurd ht List.not_mem_nil
    change ((selected.record :: selected.manifest.worktrees).map _).Nodup
    rw [hmanifest, List.map_cons, List.nodup_cons]
    exact ⟨hnew, h.worktrees⟩
  · intro x hx hcleaned
    rw [htasks] at hx
    rcases mem_replaceTask hx with rfl | ⟨hold, -⟩
    · cases hcleaned
    · exact h.noneCleaned selected.task htask hpending x hold hcleaned
  · rw [htasks] at hx
    rcases mem_replaceTask hx with rfl | ⟨-, hne⟩
    · rfl
    · exact absurd hid hne

theorem callsOf_mark (selected : Selected) (s : Site) : (mark selected).callsOf (perform answers) s = 2 := rfl

theorem ordered_dispatch (approved : Bool) (h : Ordered [] s)
    (hok : InOrder cfg answers s (.dispatch task_id approved, n)) :
    Ordered [] ((dispatch cfg approved task_id).upTo (perform answers) n s) := by
  refine ordered_andThen (quiet_select approved task_id) h fun s' selected m hexec hsame hs' hn => ?_
  obtain ⟨hmanifest, htask, hpending⟩ := select_ok hexec
  rw [← hsame.stored] at hmanifest htask
  cases m with
  | zero => exact (SameData.ordered (s := s') ⟨rfl, rfl, rfl⟩ hs' : Ordered [] (perform answers s' .newSessionId).1)
  | succ m =>
      obtain ⟨hnew, hlaunched, hregistered⟩ := hok s' selected (m + 2) hexec hn (by omega)
      obtain ⟨hmarked, hstored⟩ := @markedSite_spec answers s' hs' selected hmanifest
        (List.mem_of_find?_eq_some htask) hpending hnew
      have hspec := @setUp_spec cfg answers _ _ hmarked approved selected.record selected.project
      obtain ⟨r, hr⟩ := Nat.exists_eq_add_of_le hlaunched
      rw [hr, Nat.add_assoc, ← @callsOf_mark answers selected s', Task.upTo_bind_add]
      change Ordered [] ((andThen (launching cfg approved selected (markedSite answers s' selected).2) _).upTo
        (perform answers) _ (markedSite answers s' selected).1)
      rw [andThen, Task.upTo_bind_add]
      rw [hstored] at hspec
      change AfterLaunch cfg _ ((launching cfg approved selected (markedSite answers s' selected).2).exec
        (perform answers) (markedSite answers s' selected).1) at hspec
      cases hlaunch : (launching cfg approved selected (markedSite answers s' selected).2).exec (perform answers)
          (markedSite answers s' selected).1 with
      | mk s₂ result =>
          rw [hlaunch] at hspec
          cases result with
          | error exc =>
              dsimp only
              rw [Task.pure_eq, Task.upTo_done]
              exact hspec
          | ok l =>
              obtain ⟨hdispatching, hl, hsession⟩ := hspec
              cases r with
              | zero =>
                  rw [Task.upTo_zero]
                  refine hdispatching.registered (hsession fun hun => ?_)
                  have hlt := hregistered l (by rw [hlaunch]) hun
                  omega
              | succ r =>
                  exact saveLaunched_spec hdispatching l hl selected.record

end Operations

/-! ## 6. Runs -/

theorem ordered_forget {X : List String} {t : Prog α} {s : Site} {n : Nat}
    (h : Ordered X (t.upTo (perform answers) n s)) : Ordered X (t.forget.upTo (perform answers) n s) := by
  rw [Task.upTo_forget]
  exact h

theorem ordered_operate (s : Site) (i : Operation × Nat) (h : Ordered [] s) (hok : InOrder cfg answers s i) :
    Ordered [] (operate cfg answers s i) := by
  obtain ⟨operation, n⟩ := i
  cases operation with
  | addTask task_id description dependencies =>
      exact ordered_forget (ordered_addTask description dependencies h hok)
  | dispatch task_id approved => exact ordered_forget (ordered_dispatch approved h hok)
  | inspectTask task_id => exact ordered_forget (ordered_inspectTask h hok)
  | integrateTask task_id => exact ordered_forget (ordered_integrateTask h)
  | rebaseTask task_id => exact ordered_forget (ordered_rebaseTask h hok)
  | cleanupTask task_id => exact ordered_forget (ordered_cleanupTask h hok)
  | recover => exact ordered_forget (ordered_recoverAll h hok)

theorem ordered_new (o p r b c : String) : Ordered [] (newSite o p r b c) :=
  ⟨fun _ h => absurd h List.not_mem_nil, List.nodup_nil, fun _ h => absurd h List.not_mem_nil,
    fun _ h => absurd h List.not_mem_nil, List.nodup_nil, fun _ h => absurd h List.not_mem_nil⟩

/-- **Tasks only move forward and strand no dependents, in every run whose
operations are in order.** -/
theorem forward_run (cfg : Config) (answers : Answers) (o p r b c : String) (steps : List (Operation × Nat))
    (hok : RunOk (operate cfg answers) (InOrder cfg answers) (newSite o p r b c) steps) (k : Nat) :
    Forward ((steps.take k).foldl (operate cfg answers) (newSite o p r b c)) :=
  (hok.invariant ordered_operate (ordered_new o p r b c) k).forward

/-- A world in which everything works. -/
def workingAnswers : Answers := fun _ o =>
  match o with
  | .get => (newSite "" "" "" "" "").stored
  | .save .. => ()
  | .head => .ok "c0"
  | .branch => .ok "main"
  | .loadEnvironment _ => .ok none
  | .requireTrust .. => .ok ()
  | .create _ base worktree_id =>
      .ok { path := worktree_id, branch := worktree_id, base_commit := base, head_commit := base }
  | .isDir _ => true
  | .newSessionId => "session"
  | .runSetup .. => .ok none
  | .submit _ session_id _ _ => .ok (session_id, false)
  | .session _ => some { pending := false, status := "completed" }
  | .complete record session_id => .ok {
      task_id := record.task_id
      worker_session_id := session_id
      worktree_id := record.worktree_id
      base_commit := record.base_commit
      head_commit := "c1"
      clean := true
      status := "complete" }
  | .integrate .. | .rebase .. => .ok { ok := true, head_commit := "c2" }
  | .remove _ => .ok ()
  | .recover => .ok []

/-- A task is added, dispatched, completed and integrated. -/
def plainSteps : List (Operation × Nat) :=
  [(.addTask "a" "first" [], 9), (.dispatch "a" false, 20), (.inspectTask "a", 9), (.integrateTask "a", 9)]

/-- The site after the first step, and what its dispatch has then. -/
def addedSite : Site :=
  operate plainConfig workingAnswers (newSite "o" "parent" "/repo" "main" "c0") (.addTask "a" "first" [], 9)

def plainSelected : Selected where
  manifest := addedSite.stored
  task := newTask "a" "first" []
  record := {
    worktree_id := "agenthicc:o:a"
    repository := "/repo"
    path := "agenthicc:o:a"
    branch := "agenthicc:o:a"
    base_commit := "c0"
    owner_session_id := "parent"
    task_id := "a"
    status := .active
    head_commit := "c0" }
  project := none

theorem forward_run_plain : Forward ((plainSteps.take 4).foldl (operate plainConfig workingAnswers)
    (newSite "o" "parent" "/repo" "main" "c0")) := by
  refine forward_run plainConfig workingAnswers "o" "parent" "/repo" "main" "c0" plainSteps ⟨?_, ?_, ?_, ?_, ?_⟩ 4
  · intro _ _ t ht
    exact absurd ht List.not_mem_nil
  · intro s' selected m hexec hm _
    have hcalls : (select plainConfig false "a").callsOf (perform workingAnswers) addedSite = 6 := by decide
    have hselect : (select plainConfig false "a").exec (perform workingAnswers) addedSite
        = ({ addedSite with calls := 8 }, .ok plainSelected) := rfl
    have hm : 20 = 6 + m := hcalls ▸ hm
    obtain ⟨rfl, hselected⟩ := Prod.mk.inj (hselect.symm.trans hexec)
    obtain rfl := Except.ok.inj hselected
    have hlaunch : 2 + (launching plainConfig false plainSelected
        (markedSite workingAnswers { addedSite with calls := 8 } plainSelected).2).callsOf (perform workingAnswers)
          (markedSite workingAnswers { addedSite with calls := 8 } plainSelected).1 < 14 := by decide
    exact ⟨by decide, by omega, fun _ _ _ => by omega⟩
  · intro _ hm
    exact absurd hm (by decide)
  · trivial
  · trivial

/-- The same, and an inspection of the integrated task. -/
def inspectedAgain : List (Operation × Nat) := plainSteps ++ [(.inspectTask "a", 9)]

/-- Inspecting the integrated task again makes it a completed one. -/
theorem not_forward_inspected_again :
    ¬ Forward (inspectedAgain.foldl (operate plainConfig workingAnswers)
        (newSite "o" "parent" "/repo" "main" "c0")) := by
  intro h
  have hreopened : ∃ task ∈ (inspectedAgain.foldl (operate plainConfig workingAnswers)
      (newSite "o" "parent" "/repo" "main" "c0")).stored.tasks,
      task.task_id ∈ (inspectedAgain.foldl (operate plainConfig workingAnswers)
        (newSite "o" "parent" "/repo" "main" "c0")).merged ∧ task.status ∈ reopenedStatuses := by
    decide
  obtain ⟨task, htask, hmerged, hstatus⟩ := hreopened
  exact h.integrated task htask hmerged hstatus

end Agenthicc.Worktrees
