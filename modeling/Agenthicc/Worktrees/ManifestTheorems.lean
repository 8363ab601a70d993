/-
Agenthicc.Worktrees.ManifestTheorems — updates of a manifest that is read,
changed and saved as a whole.

`SaveShape` is what every save of every operation has in common: outside of
what the operation acts on, the saved manifest is the one it was evolved from.
So a save loses nothing exactly when that manifest is, there, still the stored
one (`Fresh`).
-/
import Agenthicc.Worktrees.Coordinator

namespace Agenthicc.Worktrees

open Python Tasks Runs

/-! ## 1. What is saved -/

def Acts.onTask (acts : Acts) (t : String) : Prop :=
  match acts with
  | .add x | .task x _ => x = t
  | .records => False

def Acts.onRecord (acts : Acts) (w : String) : Prop :=
  match acts with
  | .add _ => False
  | .task _ x => x = w
  | .records => True

instance (acts : Acts) (t : String) : Decidable (acts.onTask t) := by
  cases acts <;> unfold Acts.onTask <;> infer_instance

instance (acts : Acts) (w : String) : Decidable (acts.onRecord w) := by
  cases acts <;> unfold Acts.onRecord <;> infer_instance

/-- The status and the result of a task. -/
def statusView (m : ParallelManifest) (t : String) : Option (TaskStatus × Option WorkerResult) :=
  (m.task? t).map fun task => (task.status, task.result)

def Present (m : ParallelManifest) (t : String) : Prop := (m.task? t).isSome = true

theorem present_iff_view {m : ParallelManifest} {t : String} : Present m t ↔ (statusView m t).isSome = true := by
  rw [Present, statusView, Option.isSome_map]

/-- A save changes what the operation acts on alone, and takes no task away. -/
structure SaveShape (acts : Acts) (base m : ParallelManifest) : Prop where
  status : ∀ t, ¬ acts.onTask t → statusView m t = statusView base t
  record : ∀ w, ¬ acts.onRecord w → m.worktree? w = base.worktree? w
  present : ∀ t, acts ≠ .add t → (Present m t ↔ Present base t)
  added : ∀ t, acts = .add t → Present m t

/-- The worktrees after a save that acts on one record. -/
inductive OneRecord (w : String) (base m : ParallelManifest) : Prop where
  | same (h : m.worktrees = base.worktrees)
  | replaced (record : WorktreeRecord) (h : m.worktrees = base.replaceWorktree record)
      (hw : record.worktree_id = w)
  | added (record : WorktreeRecord) (h : m.worktrees = record :: base.worktrees) (hw : record.worktree_id = w)

theorem OneRecord.other {w k : String} {base m : ParallelManifest} (h : OneRecord w base m) (hk : w ≠ k) :
    m.worktree? k = base.worktree? k := by
  unfold ParallelManifest.worktree?
  cases h with
  | same h => rw [h]
  | replaced record h hw =>
      rw [h, ParallelManifest.find?_replaceWorktree, hw, if_neg hk]
      rfl
  | added record h hw =>
      rw [h, List.find?_cons]
      have hne : ¬ record.worktree_id = k := fun heq => hk (hw.symm.trans heq)
      simp [hne]

theorem saveShape_task {t w : String} {base m : ParallelManifest} {task : ParallelTask}
    (htasks : m.tasks = base.replaceTask task) (ht : task.task_id = t) (hrecord : OneRecord w base m) :
    SaveShape (.task t w) base m := by
  have hfind : ∀ k, m.task? k = if task.task_id = k then (base.task? k).map fun _ => task else base.task? k := by
    intro k
    rw [ParallelManifest.task?, htasks, ParallelManifest.find?_replaceTask]
  refine ⟨fun k hk => ?_, fun k hk => hrecord.other hk, fun k _ => ?_, nofun⟩
  · have hne : ¬ t = k := hk
    rw [statusView, hfind, ht, if_neg hne]
    rfl
  · rw [Present, hfind]
    split
    · rw [Option.isSome_map]
      rfl
    · rfl

theorem saveShape_receipt {t w : String} {base m : ParallelManifest} (htasks : m.tasks = base.tasks)
    (hrecord : OneRecord w base m) : SaveShape (.task t w) base m := by
  have hfind : ∀ k, m.task? k = base.task? k := by
    intro k
    rw [ParallelManifest.task?, htasks]
    rfl
  refine ⟨fun k _ => by rw [statusView, hfind]; rfl, fun k hk => hrecord.other hk, fun k _ => ?_, nofun⟩
  rw [Present, hfind]
  rfl

theorem saveShape_records {base m : ParallelManifest} (htasks : m.tasks = base.tasks) :
    SaveShape .records base m := by
  have hfind : ∀ k, m.task? k = base.task? k := by
    intro k
    rw [ParallelManifest.task?, htasks]
    rfl
  refine ⟨fun k _ => by rw [statusView, hfind]; rfl, fun k hk => absurd trivial hk, fun k _ => ?_, nofun⟩
  rw [Present, hfind]
  rfl

theorem saveShape_add {base m : ParallelManifest} {task : ParallelTask} {t : String}
    (htasks : m.tasks = base.tasks ++ [task]) (ht : task.task_id = t) (hw : m.worktrees = base.worktrees) :
    SaveShape (.add t) base m := by
  have hfind : ∀ k, m.task? k = (base.task? k).or (if t = k then some task else none) := by
    intro k
    rw [ParallelManifest.task?, htasks, List.find?_append, List.find?_singleton, ht]
    by_cases hk : t = k
    · simp [hk, ParallelManifest.task?]
    · simp [hk, ParallelManifest.task?]
  refine ⟨fun k hk => ?_, fun k _ => ?_, fun k hk => ?_, fun k hk => ?_⟩
  · have hne : ¬ t = k := hk
    rw [statusView, hfind, if_neg hne, Option.or_none]
    rfl
  · rw [ParallelManifest.worktree?, hw]
    rfl
  · have hne : ¬ t = k := fun h => hk (congrArg Acts.add h)
    rw [Present, hfind, if_neg hne, Option.or_none]
    rfl
  · cases hk
    rw [Present, hfind, if_pos rfl]
    cases base.task? t <;> rfl

/-! ## 2. The saves of the operations -/

/-- A call other than a save, or a save of the common shape. -/
def Shaped : Op → Prop
  | .save acts base m => SaveShape acts base m
  | _ => True

/-- A call that writes nothing. -/
def Quiet : Op → Prop
  | .save .. | .integrate .. | .submit .. => False
  | _ => True

theorem shaped_of_quiet (o : Op) (h : Quiet o) : Shaped o := by
  cases o with
  | save acts base m => exact absurd h id
  | _ => trivial

variable {α β : Type}

theorem calls_andThen {P : Op → Prop} {t : Prog (Except PyError α)} {f : α → Prog (Except PyError β)}
    (h : t.Calls P) (hf : ∀ a, (f a).Calls P) : (andThen t f).Calls P := by
  refine Task.Calls.bind h fun r => ?_
  cases r with
  | ok a => exact hf a
  | error exc => trivial

theorem calls_save {acts : Acts} {base m : ParallelManifest} {next : Prog β} (h : SaveShape acts base m)
    (hnext : next.Calls Shaped) :
    ((Task.ask (Op.save acts base m) : Prog Unit) >>= fun _ => next).Calls Shaped :=
  ⟨h, fun _ => hnext⟩

variable {cfg : Config}

theorem calls_addTask (task_id description : String) (dependencies : List String) :
    (addTask task_id description dependencies).Calls Shaped := by
  refine Task.Calls.bind (Task.Calls.ask trivial) fun manifest => ?_
  split
  · trivial
  · exact calls_save (saveShape_add rfl rfl rfl) trivial

theorem calls_saveRetryable (m : ParallelManifest) (task : ParallelTask) (record : WorktreeRecord)
    (error : String) : (saveRetryable m task record error).Calls Shaped :=
  calls_save (saveShape_task rfl rfl (.replaced _ rfl rfl)) trivial

theorem calls_launch (m : ParallelManifest) (task : ParallelTask) (record : WorktreeRecord)
    (receipts : List String) : (launch cfg m task record receipts).Calls Shaped := by
  refine Task.Calls.bind ?_ fun r => ?_
  · unfold submitWorker
    split
    · exact Task.Calls.ask trivial
    · trivial
  · cases r with
    | error exc => exact calls_save (saveShape_task rfl rfl (.same rfl)) trivial
    | ok session => trivial

theorem calls_afterSetup (m : ParallelManifest) (task : ParallelTask) (record : WorktreeRecord)
    (receipt : EnvironmentRunReceipt) : (afterSetup cfg m task record receipt).Calls Shaped := by
  refine calls_save (saveShape_receipt rfl (.replaced _ rfl rfl)) ?_
  split
  · exact calls_saveRetryable _ _ _ _
  · exact calls_launch _ _ _ _

theorem calls_setUp (approved : Bool) (m : ParallelManifest) (task : ParallelTask) (record : WorktreeRecord)
    (project : Option EnvironmentManifest) : (setUp cfg approved m task record project).Calls Shaped := by
  refine Task.Calls.bind ?_ fun r => ?_
  · refine calls_andThen (Task.Calls.ask trivial) fun worker => ?_
    split
    · trivial
    · exact Task.Calls.ask trivial
  · cases r with
    | error exc => exact calls_saveRetryable _ _ _ _
    | ok receipt =>
        cases receipt with
        | none => exact calls_launch _ _ _ _
        | some receipt => exact calls_afterSetup _ _ _ _

theorem quiet_selectWorktree (approved : Bool) (manifest : ParallelManifest) (task : ParallelTask) :
    (selectWorktree cfg approved manifest task).Calls Quiet := by
  refine calls_andThen (Task.Calls.ask trivial) fun project => ?_
  refine calls_andThen trivial fun root => ?_
  refine calls_andThen ?_ fun _ => calls_andThen ?_ fun record => ?_
  · unfold requireTrust
    split
    · split
      · exact Task.Calls.ask trivial
      · trivial
    · trivial
  · unfold allocate
    split
    · trivial
    · exact calls_andThen (Task.Calls.ask trivial) fun created => trivial
  · refine Task.Calls.bind (Task.Calls.ask trivial) fun isDir => ?_
    dsimp only
    split
    · trivial
    · trivial

theorem quiet_select (approved : Bool) (task_id : String) : (select cfg approved task_id).Calls Quiet := by
  refine Task.Calls.bind (Task.Calls.ask trivial) fun manifest => ?_
  refine calls_andThen trivial fun task => ?_
  split
  · trivial
  · refine Task.Calls.bind (Task.Calls.ask trivial) fun again => ?_
    split
    · trivial
    · refine calls_andThen (Task.Calls.ask trivial) fun head => ?_
      split
      · trivial
      · exact quiet_selectWorktree _ _ _

theorem calls_dispatch (approved : Bool) (task_id : String) : (dispatch cfg approved task_id).Calls Shaped := by
  refine calls_andThen ((quiet_select _ _).imp shaped_of_quiet) fun selected => ?_
  refine Task.Calls.bind ?_ fun task => calls_andThen (calls_setUp _ _ _ _ _) fun launched => ?_
  · refine Task.Calls.bind (Task.Calls.ask trivial) fun session_id => ?_
    exact calls_save (saveShape_task rfl rfl (.added _ rfl rfl)) trivial
  · exact calls_save (saveShape_task rfl rfl (.same rfl)) trivial

theorem quiet_examine (task_id : String) : (examine cfg task_id).Calls Quiet := by
  refine Task.Calls.bind (Task.Calls.ask trivial) fun manifest => ?_
  refine calls_andThen trivial fun task => ?_
  split
  · trivial
  · refine calls_andThen trivial fun record => Task.Calls.bind ?_ fun session => ?_
    · unfold workerSession
      split
      · exact Task.Calls.ask trivial
      · trivial
    · have hworktree : ∀ session, (examineWorktree manifest task record session).Calls Quiet :=
        fun session => calls_andThen (Task.Calls.ask trivial) fun result => trivial
      cases session with
      | none => exact hworktree none
      | some s =>
          unfold examineSession
          dsimp only
          split
          · trivial
          · split
            · trivial
            · exact hworktree _

theorem calls_inspectTask (task_id : String) : (inspectTask cfg task_id).Calls Shaped := by
  refine calls_andThen ((quiet_examine _).imp shaped_of_quiet) fun e => ?_
  refine calls_save (saveShape_task rfl rfl ?_) trivial
  cases he : e.settled with
  | false => exact .same (by simp [Examined.saved, he])
  | true =>
      let record : WorktreeRecord := { e.record with
        status := if e.status = .completed then .completed else .active
        head_commit := e.result.head_commit
        dirty := !e.result.clean }
      exact .replaced record (by simp [Examined.saved, he, record]) rfl

theorem calls_saveIntegration (refreshed : ParallelManifest) (task : ParallelTask) (record : WorktreeRecord)
    (result : IntegrationResult) : (saveIntegration refreshed task record result).Calls Shaped := by
  refine calls_save ?_ trivial
  split
  · exact saveShape_task rfl rfl (.replaced _ rfl rfl)
  · exact saveShape_task rfl rfl (.replaced _ rfl rfl)

theorem quiet_choose (task_id : String) (fit : TaskStatus → Bool) (message : String) :
    (choose task_id fit message).Calls Quiet := by
  refine Task.Calls.bind (Task.Calls.ask trivial) fun manifest => ?_
  refine calls_andThen trivial fun task => ?_
  split
  · trivial
  · exact calls_andThen trivial fun record => trivial

theorem quiet_integrable (task_id : String) : (integrable task_id).Calls Quiet := by
  refine calls_andThen (quiet_choose _ _ _) fun c => calls_andThen (Task.Calls.ask trivial) fun branch => ?_
  split
  · trivial
  · trivial

theorem calls_integrateTask (task_id : String) : (integrateTask task_id).Calls Shaped := by
  refine calls_andThen ((quiet_integrable _).imp shaped_of_quiet) fun c => ?_
  refine calls_save (saveShape_task rfl rfl (.replaced _ rfl rfl)) ?_
  refine calls_andThen (Task.Calls.ask trivial) fun result =>
    Task.Calls.bind (Task.Calls.ask trivial) fun refreshed => ?_
  exact calls_saveIntegration refreshed c.task c.record result

theorem quiet_rebaseBranch (task_id : String) : (rebaseBranch task_id).Calls Quiet := by
  refine Task.Calls.bind (Task.Calls.ask trivial) fun manifest => ?_
  refine calls_andThen trivial fun pair => ?_
  exact calls_andThen (Task.Calls.ask trivial) fun result => trivial

theorem calls_rebaseTask (task_id : String) : (rebaseTask task_id).Calls Shaped := by
  refine calls_andThen ((quiet_rebaseBranch _).imp shaped_of_quiet) fun r => ?_
  split
  · exact calls_save (saveShape_task rfl rfl (.replaced _ rfl rfl)) trivial
  · trivial

theorem quiet_cleanable (task_id : String) : (cleanable task_id).Calls Quiet :=
  calls_andThen (quiet_choose _ _ _) fun c => calls_andThen (Task.Calls.ask trivial) fun _ => trivial

theorem calls_cleanupTask (task_id : String) : (cleanupTask task_id).Calls Shaped :=
  calls_andThen ((quiet_cleanable _).imp shaped_of_quiet) fun c =>
    calls_save (saveShape_task rfl rfl (.replaced _ rfl rfl)) trivial

theorem quiet_surviving (records : List WorktreeRecord) : (surviving records).Calls Quiet := by
  induction records with
  | nil => trivial
  | cons record rest ih =>
      exact Task.Calls.bind (Task.Calls.ask trivial) fun isDir => Task.Calls.bind ih fun rest => trivial

theorem quiet_survey : survey.Calls Quiet := by
  refine Task.Calls.bind (Task.Calls.ask trivial) fun manifest => ?_
  refine calls_andThen (Task.Calls.ask trivial) fun actual => ?_
  exact Task.Calls.bind (quiet_surviving _) fun worktrees => trivial

theorem calls_recoverAll : recoverAll.Calls Shaped :=
  calls_andThen (quiet_survey.imp shaped_of_quiet) fun r => calls_save (saveShape_records rfl) trivial

theorem calls_prog (operation : Operation) : (operation.prog cfg).Calls Shaped := by
  cases operation with
  | addTask task_id description dependencies => exact (calls_addTask _ _ _).forget
  | dispatch task_id approved => exact (calls_dispatch _ _).forget
  | inspectTask task_id => exact (calls_inspectTask _).forget
  | integrateTask task_id => exact (calls_integrateTask _).forget
  | rebaseTask task_id => exact (calls_rebaseTask _).forget
  | cleanupTask task_id => exact (calls_cleanupTask _).forget
  | recover => exact calls_recoverAll.forget

/-! ## 3. Runs -/

/-- What the last operation on a task stored for it. -/
def lastStatus (saves : List (Acts × ParallelManifest)) (t : String) :
    Option (TaskStatus × Option WorkerResult) :=
  (saves.reverse.find? fun e => decide (e.1.onTask t)).bind fun e => statusView e.2 t

def lastRecord (saves : List (Acts × ParallelManifest)) (w : String) : Option WorktreeRecord :=
  (saves.reverse.find? fun e => decide (e.1.onRecord w)).bind fun e => e.2.worktree? w

theorem lastStatus_concat (saves : List (Acts × ParallelManifest)) (acts : Acts) (m : ParallelManifest)
    (t : String) : lastStatus (saves ++ [(acts, m)]) t
      = if acts.onTask t then statusView m t else lastStatus saves t := by
  unfold lastStatus
  rw [List.reverse_append, List.reverse_singleton, List.singleton_append, List.find?_cons]
  by_cases h : acts.onTask t
  · simp [h]
  · simp [h]

theorem lastRecord_concat (saves : List (Acts × ParallelManifest)) (acts : Acts) (m : ParallelManifest)
    (w : String) : lastRecord (saves ++ [(acts, m)]) w
      = if acts.onRecord w then m.worktree? w else lastRecord saves w := by
  unfold lastRecord
  rw [List.reverse_append, List.reverse_singleton, List.singleton_append, List.find?_cons]
  by_cases h : acts.onRecord w
  · simp [h]
  · simp [h]

/-- Nothing is lost: every task that an operation on it has stored (the one
that added it first of all) is there, with the status and result that the
last operation on it gave it, and every record is the one that the last
operation on it, or the last recovery, stored. -/
structure NothingLost (s : Site) : Prop where
  tasks : ∀ e ∈ s.saves, ∀ t, e.1.onTask t → Present e.2 t → Present s.stored t
  status : ∀ t, statusView s.stored t = lastStatus s.saves t
  record : ∀ w, s.stored.worktree? w = lastRecord s.saves w

/-- What was read is what is stored, but for what the operation acts on. -/
structure FreshRead (acts : Acts) (base stored : ParallelManifest) : Prop where
  tasks : ∀ t, acts ≠ .add t → Present stored t → Present base t
  status : ∀ t, ¬ acts.onTask t → statusView base t = statusView stored t
  record : ∀ w, ¬ acts.onRecord w → base.worktree? w = stored.worktree? w

variable {s : Site} {acts : Acts} {base m : ParallelManifest}

theorem present_of_lastStatus {saves : List (Acts × ParallelManifest)} {t : String}
    (h : (lastStatus saves t).isSome = true) : ∃ e ∈ saves, e.1.onTask t ∧ Present e.2 t := by
  unfold lastStatus at h
  cases hfind : saves.reverse.find? fun e => decide (e.1.onTask t) with
  | none =>
      rw [hfind] at h
      cases h
  | some e =>
      rw [hfind, Option.bind_some, ← present_iff_view] at h
      have hon := List.find?_some hfind
      exact ⟨e, List.mem_reverse.mp (List.mem_of_find?_eq_some hfind), of_decide_eq_true hon, h⟩

/-- A save loses nothing exactly when what it is based on is fresh. -/
theorem nothingLost_save (hshape : SaveShape acts base m) (h : NothingLost s) (calls : Nat) :
    NothingLost { s with calls := calls, stored := m, saves := s.saves ++ [(acts, m)] }
      ↔ FreshRead acts base s.stored := by
  constructor
  · intro hnew
    refine ⟨fun t hadd hstored => ?_, fun t ht => ?_, fun w hw => ?_⟩
    · have hsome : (lastStatus s.saves t).isSome = true := by
        rw [← h.status t]
        exact present_iff_view.mp hstored
      obtain ⟨e, he, hon, hpresent⟩ := present_of_lastStatus hsome
      exact (hshape.present t hadd).mp (hnew.tasks e (List.mem_append_left _ he) t hon hpresent)
    · have hlast := hnew.status t
      simp only [lastStatus_concat, if_neg ht] at hlast
      rw [← hshape.status t ht, hlast, h.status t]
    · have hlast := hnew.record w
      simp only [lastRecord_concat, if_neg hw] at hlast
      rw [← hshape.record w hw, hlast, h.record w]
  · intro hfresh
    refine ⟨fun e he t hon hpresent => ?_, fun t => ?_, fun w => ?_⟩
    · rcases List.mem_append.mp he with he | he
      · by_cases hadd : acts = .add t
        · exact hshape.added t hadd
        · exact (hshape.present t hadd).mpr (hfresh.tasks t hadd (h.tasks e he t hon hpresent))
      · rw [List.mem_singleton.mp he] at hpresent
        exact hpresent
    · simp only [lastStatus_concat]
      split
      · rfl
      · rename_i ht
        rw [hshape.status t ht, hfresh.status t ht, h.status t]
    · simp only [lastRecord_concat]
      split
      · rfl
      · rename_i hw
        rw [hshape.record w hw, hfresh.record w hw, h.record w]

/-- A call that is no save touches neither the file nor the log of saves. -/
theorem perform_quiet (answers : Answers) (s : Site) {o : Op} (h : ∀ acts base m, o ≠ .save acts base m) :
    (perform answers s o).1.stored = s.stored ∧ (perform answers s o).1.saves = s.saves := by
  cases o with
  | save acts base m => exact absurd rfl (h acts base m)
  | integrate task_id record branch =>
      unfold perform
      dsimp only
      split <;> exact ⟨rfl, rfl⟩
  | submit task_id session_id record receipts =>
      unfold perform
      dsimp only
      split <;> exact ⟨rfl, rfl⟩
  | _ => exact ⟨rfl, rfl⟩

theorem nothingLost_congr {s s' : Site} (hstored : s'.stored = s.stored) (hsaves : s'.saves = s.saves) :
    NothingLost s' ↔ NothingLost s := by
  constructor
  · rintro ⟨htasks, hstatus, hrecord⟩
    rw [hstored, hsaves] at *
    exact ⟨htasks, hstatus, hrecord⟩
  · rintro ⟨htasks, hstatus, hrecord⟩
    rw [← hstored, ← hsaves] at *
    exact ⟨htasks, hstatus, hrecord⟩

abbrev CoordinatorWorld := World Op Op.Reply Site

/-- A save is based on a read that is still fresh. -/
def StepFresh (w : CoordinatorWorld) : Action Operation → Prop
  | .step p => ∀ acts base m next, w.slots p = .busy (.call (.save acts base m) next) →
      FreshRead acts base w.state.stored
  | .start _ _ | .crash _ => True

/-- What is left of every operation saves in the common shape. -/
def SlotsShaped (w : CoordinatorWorld) : Prop := ∀ p task, w.slots p = .busy task → task.Calls Shaped

variable {answers : Answers}

theorem slotsShaped_step (w : CoordinatorWorld) (a : Action Operation) (h : SlotsShaped w) :
    SlotsShaped ((system cfg answers).step w a) := by
  have hset : ∀ (slot : Slot Op Op.Reply) (p : Nat), (∀ task, slot = .busy task → task.Calls Shaped) →
      ∀ q task, Function.update w.slots p slot q = .busy task → task.Calls Shaped := by
    intro slot p hslot q task hq
    by_cases hqp : q = p
    · rw [hqp, Function.update_self] at hq
      exact hslot task hq
    · rw [Function.update_of_ne hqp] at hq
      exact h q task hq
  cases a with
  | start p job =>
      rw [System.step]
      split
      · exact hset _ p fun task htask => by
          cases htask
          exact calls_prog job
      · exact h
      · exact h
  | step p =>
      rw [System.step]
      split
      · rename_i o next hp
        exact hset _ p fun task htask => by
          cases htask
          exact (h p _ hp).2 _
      · exact hset _ p fun task htask => by cases htask
      · exact h
      · exact h
  | crash p =>
      rw [System.step]
      split
      · exact h
      · exact hset _ p fun task htask => by cases htask
      · exact hset _ p fun task htask => by cases htask

theorem nothingLost_step (w : CoordinatorWorld) (a : Action Operation) (hshaped : SlotsShaped w)
    (h : NothingLost w.state) :
    NothingLost ((system cfg answers).step w a).state ↔ StepFresh w a := by
  have hsame : ∀ a, ((system cfg answers).step w a).state = w.state →
      (NothingLost ((system cfg answers).step w a).state ↔ True) := by
    intro a heq
    rw [heq]
    exact ⟨fun _ => trivial, fun _ => h⟩
  have hno : ∀ p, (∀ acts base m next, w.slots p ≠ .busy (.call (.save acts base m) next)) →
      (True ↔ StepFresh w (.step p)) := fun p hp =>
    ⟨fun _ acts base m next heq => absurd heq (hp acts base m next), fun _ => trivial⟩
  cases a with
  | start p job =>
      refine hsame _ ?_
      rw [System.step]
      split <;> rfl
  | crash p =>
      refine hsame _ ?_
      rw [System.step]
      split <;> rfl
  | step p =>
      cases hp : w.slots p with
      | idle =>
          rw [hsame _ (by rw [System.step, hp])]
          exact hno p fun _ _ _ _ heq => by cases hp.symm.trans heq
      | dead =>
          rw [hsame _ (by rw [System.step, hp])]
          exact hno p fun _ _ _ _ heq => by cases hp.symm.trans heq
      | busy task =>
          cases task with
          | done u =>
              rw [hsame _ (by rw [System.step, hp])]
              exact hno p fun _ _ _ _ heq => by cases hp.symm.trans heq
          | call o next =>
              have hstate : ((system cfg answers).step w (.step p)).state = (perform answers w.state o).1 := by
                rw [System.step, hp]
                rfl
              rw [hstate]
              by_cases ho : ∃ acts base m, o = .save acts base m
              · obtain ⟨acts, base, m, rfl⟩ := ho
                have hshape : SaveShape acts base m := (hshaped p _ hp).1
                rw [show NothingLost (perform answers w.state (.save acts base m)).1
                  ↔ FreshRead acts base w.state.stored from nothingLost_save hshape h _]
                constructor
                · intro hfresh acts' base' m' next' heq
                  rw [hp] at heq
                  cases heq
                  exact hfresh
                · exact fun hfresh => hfresh acts base m next hp
              · have hquiet := perform_quiet answers w.state (o := o) fun acts base m heq =>
                  ho ⟨acts, base, m, heq⟩
                rw [nothingLost_congr hquiet.1 hquiet.2]
                refine ⟨fun _ acts base m next' heq => ?_, fun _ => h⟩
                rw [hp] at heq
                cases heq
                exact absurd ⟨acts, base, m, rfl⟩ ho

/-- A manifest that was created and has no task yet. -/
def newSite (orchestration_id parent_session_id repository parent_branch base_commit : String) : Site where
  stored := {
    orchestration_id := orchestration_id
    parent_session_id := parent_session_id
    repository := repository
    parent_branch := parent_branch
    base_commit := base_commit }

theorem nothingLost_new (o p r b c : String) : NothingLost (newSite o p r b c) :=
  ⟨fun _ he => absurd he List.not_mem_nil, fun _ => rfl, fun _ => rfl⟩

/-- **Nothing is lost exactly in the runs where every save is based on a read
that is still fresh.** -/
theorem nothing_lost_iff (cfg : Config) (answers : Answers) (o p r b c : String)
    (actions : List (Action Operation)) :
    (∀ k, NothingLost ((system cfg answers).run { state := newSite o p r b c } (actions.take k)).state)
      ↔ RunOk (system cfg answers).step StepFresh { state := newSite o p r b c } actions := by
  have hslots : SlotsShaped { state := newSite o p r b c } := fun q task hq => nomatch hq
  exact forall_states_iff (P := fun w : CoordinatorWorld => NothingLost w.state) slotsShaped_step
    (fun w a hshaped h => nothingLost_step w a hshaped h) hslots (nothingLost_new o p r b c)
/-- A world in which every other call fails, or finds nothing. -/
def plainAnswers : Answers := fun _ o =>
  match o with
  | .get => { orchestration_id := "", parent_session_id := "", repository := "", parent_branch := "", base_commit := "" }
  | .save .. => ()
  | .head | .branch => .ok "c0"
  | .loadEnvironment _ => .ok none
  | .requireTrust .. => .ok ()
  | .create .. => .error (.raised "WorktreeError" "Git command failed")
  | .isDir _ => true
  | .newSessionId => "session"
  | .runSetup .. => .ok none
  | .submit .. => .error (.raised "RuntimeError" "no supervisor")
  | .session _ => none
  | .complete .. => .error (.raised "WorktreeNotFound" "")
  | .integrate .. | .rebase .. => .error (.raised "WorktreeError" "")
  | .remove _ => .error (.raised "WorktreeError" "")
  | .recover => .ok []

def plainConfig : Config where
  repository := "/repo"
  parent_session_id := "parent"
  uuid5 s := s
  pathOf s := s
  describe exc := exc.className

/-- Two `add_task` calls that both read before either saves: the second save
takes the task of the first away. -/
theorem not_nothingLost_overlapping_adds :
    ¬ NothingLost ((system plainConfig plainAnswers).run
        { state := newSite "o" "parent" "/repo" "main" "c0" }
        [.start 0 (.addTask "a" "first" []), .start 1 (.addTask "b" "second" []), .step 0, .step 1,
          .step 0, .step 1]).state := by
  intro h
  have hadded : (Acts.add "a", { (newSite "o" "parent" "/repo" "main" "c0").stored with
      tasks := [{ task_id := "a", description := "first" }] }) ∈
        ((system plainConfig plainAnswers).run { state := newSite "o" "parent" "/repo" "main" "c0" }
          [.start 0 (.addTask "a" "first" []), .start 1 (.addTask "b" "second" []), .step 0, .step 1,
            .step 0, .step 1]).state.saves := by decide
  have hpresent := h.tasks _ hadded "a" rfl (by unfold Present; decide)
  unfold Present at hpresent
  exact absurd hpresent (by decide)


end Agenthicc.Worktrees
