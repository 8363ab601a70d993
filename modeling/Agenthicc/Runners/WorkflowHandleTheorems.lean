/-
Agenthicc.Runners.WorkflowHandleTheorems — what the checkpoints of a workflow
run keep.

`Saved` says what one operation can do to the stored checkpoint, with one
lemma for each operation. `Kept` follows by induction on the run.
-/
import Agenthicc.Runners.WorkflowHandle
import Agenthicc.Library.Runs

namespace Agenthicc.Runners.Workflow

open Python Runs

variable {p : Plugin} {describe : PyError → String}

/-! ## 1. The cursor -/

/-- Only the cursor and the topology of a handle differ. -/
def Moved (h h' : WorkflowRunHandle) : Prop :=
  { h with
    current_phase := h'.current_phase
    phase_index := h'.phase_index
    phase_iteration := h'.phase_iteration
    topology_version := h'.topology_version
    topology_fingerprint := h'.topology_fingerprint
    topology_profile := h'.topology_profile
    topology_phase_names := h'.topology_phase_names } = h'

namespace Moved

variable {h h' h'' : WorkflowRunHandle}

theorem refl (h : WorkflowRunHandle) : Moved h h := rfl

theorem trans (hm : Moved h h') (hm' : Moved h' h'') : Moved h h'' := by
  rw [Moved, ← hm'] at *
  rw [← hm]

theorem lifecycle (hm : Moved h h') : h'.lifecycle = h.lifecycle := (congrArg (·.lifecycle) hm).symm
theorem context (hm : Moved h h') : h'.context = h.context := (congrArg (·.context) hm).symm
theorem failure_message (hm : Moved h h') : h'.failure_message = h.failure_message :=
  (congrArg (·.failure_message) hm).symm
theorem error_revision (hm : Moved h h') : h'.error_revision = h.error_revision :=
  (congrArg (·.error_revision) hm).symm

end Moved

/-- The index that a checkpoint has for its phase is the one of its topology. -/
def WorkflowCheckpoint.Indexed (c : WorkflowCheckpoint) : Prop :=
  ∀ phase, c.current_phase = some phase →
    phase ∈ c.topology_phase_names ∧ c.phase_index = c.topology_phase_names.idxOf phase

/-- A checkpoint of a handle. -/
structure CheckpointOf (c : WorkflowCheckpoint) (h : WorkflowRunHandle) : Prop where
  indexed : c.Indexed
  phase : c.current_phase = h.current_phase
  status : c.status = h.lifecycle
  message : c.failure_message = h.failure_message
  error_revision : c.error_revision = h.error_revision

namespace WorkflowRunHandle

variable {h h' : WorkflowRunHandle} {ctx : Context}

theorem withTopology_moved (t : WorkflowCheckpointTopology) : Moved h (h.withTopology p t) := rfl

theorem resolveTopology_moved : Moved h (h.resolveTopology p ctx).1 := by
  unfold resolveTopology
  split
  · exact withTopology_moved _
  · exact Moved.refl h

theorem resolveTopology_phase : (h.resolveTopology p ctx).1.current_phase = h.current_phase := by
  unfold resolveTopology
  split <;> rfl

theorem resolveTopology_passes {names : List String} {phase : String} :
    (h.resolveTopology p ctx).1.passes names phase = h.passes names phase := by
  unfold resolveTopology
  split <;> rfl

theorem resolveTopology_snd : (h.resolveTopology p ctx).2 = h.activeTopology p ctx := by
  unfold resolveTopology
  split <;> simp_all

theorem resolveTopology_names {t : WorkflowCheckpointTopology} (ht : (h.resolveTopology p ctx).2 = .ok t) :
    (h.resolveTopology p ctx).1.topology_phase_names = t.phase_names := by
  rw [resolveTopology_snd] at ht
  rw [resolveTopology, ht]
  rfl

theorem moveTo_moved {names : List String} {phase : String} : Moved h (h.moveTo names phase ctx).1 := by
  unfold moveTo
  split
  · exact Moved.refl h
  · dsimp only
    split
    · split <;> rfl
    · rfl

theorem moveTo_phase {names : List String} {phase : String} :
    (h.moveTo names phase ctx).1.current_phase = if h.passes names phase then h.current_phase else some phase := by
  unfold moveTo
  split
  · rfl
  · dsimp only
    split
    · split <;> rfl
    · rfl

theorem syncContextCursor_moved : Moved h (h.syncContextCursor p).1 := by
  unfold syncContextCursor
  split
  · exact Moved.refl h
  · dsimp only
    split
    · exact resolveTopology_moved
    · exact resolveTopology_moved.trans moveTo_moved

/-- The cursor of the context leads the handle to the phase last entered: the
context is in it, or else the handle has passed the context and is there. -/
def follows (p : Plugin) (h : WorkflowRunHandle) (entered : Option String) : Bool :=
  match h.context with
  | none => true
  | some ctx =>
      match cursorNames p (h.activeTopology p ctx) with
      | .error _ => true
      | .ok names =>
          if h.passes names (cursorPhase p names ctx) then h.current_phase = entered
          else entered = some (cursorPhase p names ctx)

/-- Nothing escapes from the codec of a context and its topology. -/
def readable (p : Plugin) (h : WorkflowRunHandle) : Bool :=
  match h.context with
  | none => true
  | some ctx => (cursorNames p (h.activeTopology p ctx)).isOk

theorem sync_of_follows {entered : Option String} {changed : Bool} (hf : h.follows p entered)
    (hctx : h.context = some ctx) (hok : (h.syncContextCursor p).2 = .ok changed) :
    (h.syncContextCursor p).1.current_phase = entered := by
  simp only [follows, syncContextCursor, hctx] at hf hok ⊢
  rw [resolveTopology_snd] at hok ⊢
  cases hnames : cursorNames p (h.activeTopology p ctx) with
  | error exc =>
      rw [hnames] at hok
      cases hok
  | ok names =>
      rw [hnames] at hf
      simp only [moveTo_phase, resolveTopology_passes, resolveTopology_phase]
      split
      · simpa [*] using hf
      · simpa [*, eq_comm] using hf

theorem sync_of_readable (hr : h.readable p) : ∃ changed, (h.syncContextCursor p).2 = .ok changed := by
  unfold syncContextCursor
  unfold readable at hr
  split
  · exact ⟨false, rfl⟩
  · rename_i ctx hctx
    dsimp only
    rw [hctx] at hr
    rw [resolveTopology_snd]
    cases hnames : cursorNames p (h.activeTopology p ctx) with
    | error exc => simp [hnames, Except.isOk, Except.toBool] at hr
    | ok names => exact ⟨_, rfl⟩

/-! ## 2. Checkpoints -/

theorem indexed_moved {t : WorkflowCheckpointTopology} (hi : h.indexed t = .ok h') :
    Moved h h' ∧ h'.current_phase = h.current_phase ∧ h'.topology_phase_names = h.topology_phase_names ∧
      ∀ phase, h.current_phase = some phase →
        phase ∈ t.phase_names ∧ h'.phase_index = t.phase_names.idxOf phase := by
  unfold indexed at hi
  split at hi
  · rename_i phase hphase
    unfold WorkflowCheckpointTopology.indexFor at hi
    split at hi
    · cases hi
      refine ⟨rfl, rfl, rfl, fun other hother => ?_⟩
      rw [hphase] at hother
      cases hother
      exact ⟨by assumption, rfl⟩
    · cases hi
  · rename_i hphase
    cases hi
    exact ⟨Moved.refl h, rfl, rfl, by simp [hphase]⟩

theorem buildCheckpoint_moved {reason : String} {now : Nat} :
    Moved h (h.buildCheckpoint p reason now).1 ∧
      (h.buildCheckpoint p reason now).1.current_phase = h.current_phase := by
  unfold buildCheckpoint
  split
  · exact ⟨Moved.refl h, rfl⟩
  · rename_i ctx hctx
    split
    · exact ⟨Moved.refl h, rfl⟩
    · have hres := @resolveTopology_moved p h ctx
      have hphase := @resolveTopology_phase p h ctx
      generalize h.resolveTopology p ctx = result at hres hphase
      obtain ⟨h₁, topology⟩ := result
      cases topology with
      | error exc => exact ⟨hres, hphase⟩
      | ok t =>
          dsimp only at hres hphase ⊢
          split
          · exact ⟨hres, hphase⟩
          · rename_i h₂ hi
            obtain ⟨hm, hp, -, -⟩ := indexed_moved hi
            exact ⟨hres.trans hm, hp.trans hphase⟩

theorem buildCheckpoint_ok {reason : String} {now : Nat} {c : WorkflowCheckpoint}
    (hb : (h.buildCheckpoint p reason now).2 = .ok c) : CheckpointOf c h := by
  unfold buildCheckpoint at hb
  split at hb
  · cases hb
  · rename_i ctx hctx
    split at hb
    · cases hb
    · have hres := @resolveTopology_moved p h ctx
      have hphase := @resolveTopology_phase p h ctx
      have hnames := @resolveTopology_names p h ctx
      generalize h.resolveTopology p ctx = result at hres hphase hnames hb
      obtain ⟨h₁, topology⟩ := result
      cases topology with
      | error exc => cases hb
      | ok t =>
          dsimp only at hres hphase hb
          split at hb
          · cases hb
          · rename_i h₂ hi
            cases hb
            obtain ⟨hm, hp, ht, hindex⟩ := indexed_moved hi
            have hmoved := hres.trans hm
            refine ⟨fun phase hc => ?_, hp.trans hphase, hmoved.lifecycle, hmoved.failure_message,
              hmoved.error_revision⟩
            have hsaved : h₂.topology_phase_names = t.phase_names := ht.trans (hnames rfl)
            have hplace := hindex phase (hp.symm.trans hc)
            rw [← hsaved] at hplace
            exact hplace

end WorkflowRunHandle
/-! ## 3. Saves -/

/-- A checkpoint that an operation has put into the store. -/
structure New (r r' : Run) (entered : Option String) (c : WorkflowCheckpoint) : Prop where
  stored : r'.store.checkpoint = some c
  newer : ∀ e, r.store.checkpoint = some e → e.revision < c.revision
  indexed : c.Indexed
  phase : c.current_phase = entered
  final : c.status.final → r'.handle.lifecycle = c.status
  settled : ∀ e, r.store.checkpoint = some e → e.status.final → r.handle.lifecycle = e.status → c.status = e.status

/-- What an operation does to the stored checkpoint and to the lifecycle. -/
structure Saved (r r' : Run) (entered : Option String) : Prop where
  stored : r'.store.checkpoint = r.store.checkpoint ∨ ∃ c, New r r' entered c
  settled : ∀ e, r.store.checkpoint = some e → e.status.final → r.handle.lifecycle = e.status →
    r'.handle.lifecycle = e.status

theorem save_stored (s : WorkflowCheckpointStore) (o : SaveOutcome) (c : WorkflowCheckpoint) :
    (s.save o c).1.checkpoint = s.checkpoint ∨
      ((s.save o c).1.checkpoint = some c ∧ ∀ e, s.checkpoint = some e → e.revision < c.revision) := by
  unfold WorkflowCheckpointStore.save
  split
  · split
    · rename_i hwritten
      exact .inr ⟨rfl, hwritten.2⟩
    · exact .inl rfl
  · split
    · rename_i existing hstored
      split
      · exact .inl rfl
      · split
        · split <;> exact .inl rfl
        · refine .inr ⟨rfl, fun e he => ?_⟩
          rw [hstored] at he
          cases he
          omega
    · rename_i hstored
      exact .inr ⟨rfl, by simp [hstored]⟩

theorem save_ok {s : WorkflowCheckpointStore} {o : SaveOutcome} {c : WorkflowCheckpoint}
    (hok : (s.save o c).2 = .ok ()) : (s.save o c).1.checkpoint = some c := by
  unfold WorkflowCheckpointStore.save at hok ⊢
  split
  · split at hok <;> split at hok <;> simp_all
  · split
    · rename_i existing hstored
      split
      · simp_all
      · split
        · split
          · rename_i heq
            rw [hstored, heq]
          · simp_all
        · rfl
    · rfl

namespace Saved

variable {r r' : Run} {entered : Option String}

theorem of_store (hstore : r'.store.checkpoint = r.store.checkpoint)
    (hsettled : ∀ e, r.store.checkpoint = some e → e.status.final → r.handle.lifecycle = e.status →
      r'.handle.lifecycle = e.status) : Saved r r' entered := ⟨.inl hstore, hsettled⟩

theorem of_moved (hstore : r'.store.checkpoint = r.store.checkpoint) (hm : Moved r.handle r'.handle) :
    Saved r r' entered := .of_store hstore fun _ _ _ hlife => hm.lifecycle.trans hlife

/-- The lifecycle alone is looked at in what comes before an operation. -/
theorem after_handle {h : WorkflowRunHandle} (hlife : h.lifecycle = r.handle.lifecycle)
    (hs : Saved (r.withHandle h) r' entered) : Saved r r' entered := by
  refine ⟨?_, fun e he hfinal hl => hs.settled e he hfinal (hlife.trans hl)⟩
  cases hs.stored with
  | inl hsame => exact .inl hsame
  | inr hnew =>
      obtain ⟨c, hnew⟩ := hnew
      exact .inr ⟨c, hnew.stored, hnew.newer, hnew.indexed, hnew.phase, hnew.final,
        fun e he hfinal hl => hnew.settled e he hfinal (hlife.trans hl)⟩

/-- What comes after an operation leaves the checkpoint and the lifecycle. -/
theorem before {r'' : Run} (hs : Saved r r' entered) (hstore : r''.store.checkpoint = r'.store.checkpoint)
    (hlife : r''.handle.lifecycle = r'.handle.lifecycle) : Saved r r'' entered := by
  refine ⟨?_, fun e he hfinal hl => hlife.trans (hs.settled e he hfinal hl)⟩
  cases hs.stored with
  | inl hsame => exact .inl (hstore.trans hsame)
  | inr hnew =>
      obtain ⟨c, hnew⟩ := hnew
      exact .inr ⟨c, hstore.trans hnew.stored, hnew.newer, hnew.indexed, hnew.phase,
        fun hfinal => hlife.trans (hnew.final hfinal), hnew.settled⟩

end Saved

namespace Run

variable {r : Run} {entered : Option String}

theorem saveCheckpoint_lifecycle {reason : String} {o : SaveOutcome} :
    (r.saveCheckpoint p reason o).1.handle.lifecycle = r.handle.lifecycle := by
  have hm := (@WorkflowRunHandle.buildCheckpoint_moved p r.handle reason o.now).1
  unfold saveCheckpoint
  generalize r.handle.buildCheckpoint p reason o.now = result at hm
  obtain ⟨h, built⟩ := result
  cases built with
  | error exc => exact hm.lifecycle
  | ok c =>
      dsimp only
      generalize r.store.save o c = result
      obtain ⟨store, outcome⟩ := result
      cases outcome <;> exact hm.lifecycle

/-- `save_checkpoint` saves a checkpoint of the handle. -/
theorem saveCheckpoint_new {reason : String} {o : SaveOutcome} :
    (r.saveCheckpoint p reason o).1.store.checkpoint = r.store.checkpoint ∨
      ∃ c, (r.saveCheckpoint p reason o).1.store.checkpoint = some c ∧ CheckpointOf c r.handle ∧
        ∀ e, r.store.checkpoint = some e → e.revision < c.revision := by
  have hbuilt := @WorkflowRunHandle.buildCheckpoint_ok p r.handle reason o.now
  unfold saveCheckpoint
  generalize r.handle.buildCheckpoint p reason o.now = result at hbuilt
  obtain ⟨h, built⟩ := result
  cases built with
  | error exc => exact .inl rfl
  | ok c =>
      have hof := hbuilt rfl
      have hstored := save_stored r.store o c
      dsimp only
      generalize r.store.save o c = result at hstored
      obtain ⟨store, outcome⟩ := result
      cases outcome with
      | error exc =>
          exact hstored.imp id fun hnew => ⟨c, hnew.1, hof, hnew.2⟩
      | ok _ =>
          exact hstored.imp id fun hnew => ⟨c, hnew.1, hof, hnew.2⟩

theorem saveCheckpoint_ok {reason : String} {o : SaveOutcome} {c : WorkflowCheckpoint}
    (hok : (r.saveCheckpoint p reason o).2 = .ok c) :
    (r.saveCheckpoint p reason o).1.store.checkpoint = some c ∧ CheckpointOf c r.handle := by
  have hbuilt := @WorkflowRunHandle.buildCheckpoint_ok p r.handle reason o.now
  unfold saveCheckpoint at hok ⊢
  generalize r.handle.buildCheckpoint p reason o.now = result at hbuilt hok
  obtain ⟨h, built⟩ := result
  cases built with
  | error exc => cases hok
  | ok built =>
      have hsaved := @save_ok r.store o built
      dsimp only at hok ⊢
      generalize r.store.save o built = result at hsaved hok
      obtain ⟨store, outcome⟩ := result
      cases outcome with
      | error exc => cases hok
      | ok _ =>
          cases hok
          exact ⟨hsaved rfl, hbuilt rfl⟩

theorem saveCheckpoint_saved {reason : String} {o : SaveOutcome} (hphase : r.handle.current_phase = entered) :
    Saved r (r.saveCheckpoint p reason o).1 entered := by
  refine ⟨?_, fun e _ _ hl => saveCheckpoint_lifecycle.trans hl⟩
  refine saveCheckpoint_new.imp id fun hnew => ?_
  obtain ⟨c, hstored, hof, hnewer⟩ := hnew
  exact ⟨c, hstored, hnewer, hof.indexed, hof.phase.trans hphase,
    fun _ => saveCheckpoint_lifecycle.trans hof.status.symm, fun e _ _ hl => hof.status.trans hl⟩

theorem persistCheckpoint_saved {reason : String} {o : SaveOutcome} (hphase : r.handle.current_phase = entered) :
    Saved r (r.persistCheckpoint p reason o).1 entered := by
  have hsaved := @saveCheckpoint_saved p r entered reason o hphase
  unfold persistCheckpoint
  split
  · exact .of_moved rfl (Moved.refl _)
  · generalize r.saveCheckpoint p reason o = result at hsaved
    obtain ⟨r₁, outcome⟩ := result
    cases outcome with
    | ok c => exact hsaved
    | error exc =>
        dsimp only at hsaved ⊢
        split
        · exact hsaved.before rfl rfl
        · exact hsaved

theorem reindex_moved : (r.reindex p).1.store = r.store ∧ Moved r.handle (r.reindex p).1.handle ∧
    (r.reindex p).1.handle.current_phase = r.handle.current_phase := by
  unfold reindex
  split
  · exact ⟨rfl, Moved.refl _, rfl⟩
  · rename_i ctx hctx
    have hres := @WorkflowRunHandle.resolveTopology_moved p r.handle ctx
    have hphase := @WorkflowRunHandle.resolveTopology_phase p r.handle ctx
    generalize r.handle.resolveTopology p ctx = result at hres hphase
    obtain ⟨h, topology⟩ := result
    cases topology with
    | error exc => exact ⟨rfl, hres, hphase⟩
    | ok t =>
        dsimp only at hres hphase ⊢
        split
        · exact ⟨rfl, hres, hphase⟩
        · rename_i h₂ hi
          obtain ⟨hm, hp, -, -⟩ := WorkflowRunHandle.indexed_moved hi
          exact ⟨rfl, hres.trans hm, hp.trans hphase⟩

/-- `update_phase` saves the phase that it is called with. -/
theorem updatePhase_saved {phase : Option String} {index iteration : Int} {persist : Bool} {o : SaveOutcome} :
    Saved r (r.updatePhase p phase index iteration persist o).1 phase := by
  unfold updatePhase
  dsimp only
  generalize hentered : r.withHandle _ = entered
  have hstart : Moved r.handle entered.handle ∧ entered.handle.current_phase = phase ∧ entered.store = r.store := by
    subst hentered
    exact ⟨rfl, rfl, rfl⟩
  obtain ⟨hmoved, hphase, hstore⟩ := hstart
  have hre := @reindex_moved p entered
  generalize entered.reindex p = result at hre
  obtain ⟨r₁, outcome⟩ := result
  obtain ⟨hstore', hmoved', hphase'⟩ := hre
  dsimp only at hstore' hmoved' hphase'
  have hwhole := hmoved.trans hmoved'
  have hsame : r₁.store.checkpoint = r.store.checkpoint := by rw [hstore', hstore]
  cases outcome with
  | error exc => exact .of_moved hsame hwhole
  | ok _ =>
      dsimp only
      split
      · have hsaved := @persistCheckpoint_saved p r₁ phase "phase_started" o (hphase'.trans hphase)
        have hr₁ : r₁ = r.withHandle r₁.handle := by
          cases r₁
          simp only [withHandle]
          rw [← hstore, ← hstore']
        rw [hr₁] at hsaved ⊢
        exact hsaved.after_handle hwhole.lifecycle
      · exact .of_moved hsame hwhole

theorem persistContextTransition_saved {reason : String} {o : SaveOutcome}
    (hf : ∀ phase, transitionPhase p r.handle = some phase → (selected r.handle phase).follows p entered) :
    Saved r (r.persistContextTransition p reason o).1 entered := by
  unfold persistContextTransition
  split
  · exact .of_moved rfl (Moved.refl _)
  · rename_i phase hphase
    have hselected : Moved r.handle (selected r.handle phase) := rfl
    have hsync := @WorkflowRunHandle.syncContextCursor_moved p (selected r.handle phase)
    have hctx : ∃ ctx, (selected r.handle phase).context = some ctx := by
      unfold transitionPhase at hphase
      split at hphase
      · rename_i ctx hctx
        exact ⟨ctx, hctx⟩
      · cases hphase
    obtain ⟨ctx, hctx⟩ := hctx
    have hplace := fun changed => @WorkflowRunHandle.sync_of_follows p _ ctx entered changed (hf phase hphase) hctx
    unfold syncContextCursor
    simp only [withHandle]
    generalize (selected r.handle phase).syncContextCursor p = result at hsync hplace
    obtain ⟨h, outcome⟩ := result
    have hmoved := hselected.trans hsync
    cases outcome with
    | error exc => exact .of_moved rfl hmoved
    | ok changed =>
        have hsaved := @persistCheckpoint_saved p (r.withHandle h) entered reason o (hplace changed rfl)
        exact hsaved.after_handle hmoved.lifecycle

end Run
/-! ## 4. Failures -/

/-- A failure is recorded as one of its own: in the handle, and in a
checkpoint or, where none can be saved, in a diagnostic. -/
structure Recorded (describe : PyError → String) (r r' : Run) (failure : Failure) (o : SaveOutcome)
    (saved : Option WorkflowCheckpoint) : Prop where
  revision : r'.handle.error_revision = r.handle.error_revision + 1
  message : r'.handle.failure_message = some failure.message ∨
    ∃ exc, r'.handle.failure_message =
      some (strTake 512 (failure.message ++ "; checkpoint save failed: " ++ describe exc))
  durable : (∃ c, saved = some c ∧ r'.handle.lifecycle = .paused ∧ r'.store.checkpoint = some c ∧
      c.status = .paused ∧ c.failure_message = some failure.message ∧
      c.error_revision = r.handle.error_revision + 1) ∨
    (saved = none ∧ r'.handle.lifecycle = .failed ∧ (o.loses_error = false →
      ∃ e, r'.store.recovery_error = some e ∧ some e.failure_message = r'.handle.failure_message ∧
        e.record_revision = r.handle.error_revision + 1))

namespace Run

variable {r : Run} {entered : Option String} {failure : Failure} {o : SaveOutcome}

@[simp] theorem saveDiagnostic_handle {error : String} {kind : WorkflowFailureKind} :
    (r.saveDiagnostic o error kind).handle = r.handle := by
  unfold saveDiagnostic
  split <;> rfl

@[simp] theorem saveDiagnostic_checkpoint {error : String} {kind : WorkflowFailureKind} :
    (r.saveDiagnostic o error kind).store.checkpoint = r.store.checkpoint := by
  unfold saveDiagnostic
  split <;> rfl

theorem saveDiagnostic_kept {error : String} {kind : WorkflowFailureKind} (ho : o.loses_error = false) :
    (r.saveDiagnostic o error kind).store.recovery_error = some (recoveryErrorOf r.handle error kind) := by
  rw [saveDiagnostic, if_neg (by simp [ho])]

theorem pauseForFailure_saved (hlive : r.handle.lifecycle.final = false) (hphase : r.handle.current_phase = entered) :
    Saved r (r.pauseForFailure p describe failure o).1 entered := by
  have hnotfinal : ∀ {r' : Run} (e : WorkflowCheckpoint), r.store.checkpoint = some e → e.status.final →
      r.handle.lifecycle = e.status → r'.handle.lifecycle = e.status := by
    intro r' e _ hfinal hl
    rw [hl, hfinal] at hlive
    cases hlive
  unfold pauseForFailure
  dsimp only
  generalize hpaused : r.withHandle _ = paused
  have hstart : paused.handle.lifecycle = .paused ∧ paused.handle.current_phase = entered ∧
      paused.store = r.store := by
    subst hpaused
    exact ⟨rfl, hphase, rfl⟩
  obtain ⟨hlife, hplace, hstore⟩ := hstart
  have hnew := @saveCheckpoint_new p paused r.handle.pause_reason o
  have hstatus := @saveCheckpoint_lifecycle p paused r.handle.pause_reason o
  rw [hlife] at hstatus
  generalize paused.saveCheckpoint p r.handle.pause_reason o = result at hnew hstatus
  obtain ⟨r₁, outcome⟩ := result
  rw [hstore] at hnew
  have hstored : ∀ {r' : Run}, r'.store.checkpoint = r₁.store.checkpoint →
      r'.store.checkpoint = r.store.checkpoint ∨ ∃ c, New r r' entered c := by
    intro r' hsame
    cases hnew with
    | inl hold => exact .inl (hsame.trans hold)
    | inr hnew =>
        obtain ⟨c, hc, hof, hnewer⟩ := hnew
        have hpausedStatus : c.status = .paused := hof.status.trans hlife
        refine .inr ⟨c, hsame.trans hc, hnewer, hof.indexed, hof.phase.trans hplace, ?_, ?_⟩
        · intro hfinal
          rw [hpausedStatus] at hfinal
          cases hfinal
        · intro e he hfinal hl
          rw [hl, hfinal] at hlive
          cases hlive
  cases outcome with
  | ok c => exact ⟨hstored rfl, hnotfinal⟩
  | error exc => exact ⟨hstored (by simp [withHandle]), hnotfinal⟩

end Run
namespace Run

variable {r : Run} {entered : Option String} {failure : Failure} {o : SaveOutcome}

theorem saveCheckpoint_message {reason : String} :
    (r.saveCheckpoint p reason o).1.handle.failure_message = r.handle.failure_message ∧
      (r.saveCheckpoint p reason o).1.handle.error_revision = r.handle.error_revision := by
  have hm := (@WorkflowRunHandle.buildCheckpoint_moved p r.handle reason o.now).1
  unfold saveCheckpoint
  generalize r.handle.buildCheckpoint p reason o.now = result at hm
  obtain ⟨h, built⟩ := result
  cases built with
  | error exc => exact ⟨hm.failure_message, hm.error_revision⟩
  | ok c =>
      dsimp only
      generalize r.store.save o c = result
      obtain ⟨store, outcome⟩ := result
      cases outcome <;> exact ⟨hm.failure_message, hm.error_revision⟩

/-- A handle that describes a failure one revision after another's. -/
structure Describes (h : WorkflowRunHandle) (failure : Failure) (revision : Nat) : Prop where
  message : h.failure_message = some failure.message
  revision : h.error_revision = revision + 1

theorem pauseForFailure_recorded {r₀ : Run} (hd : Describes r.handle failure r₀.handle.error_revision) :
    Recorded describe r₀ (r.pauseForFailure p describe failure o).1 failure o
      (r.pauseForFailure p describe failure o).2 := by
  unfold pauseForFailure
  dsimp only
  generalize hpaused : r.withHandle _ = paused
  have hstart : paused.handle.lifecycle = .paused ∧ Describes paused.handle failure r₀.handle.error_revision := by
    subst hpaused
    exact ⟨rfl, hd.message, hd.revision⟩
  obtain ⟨hlife, hdesc⟩ := hstart
  have hok := fun c => @saveCheckpoint_ok p paused r.handle.pause_reason o c
  have hstatus := @saveCheckpoint_lifecycle p paused r.handle.pause_reason o
  obtain ⟨hmessage, hrevision⟩ := @saveCheckpoint_message p paused o r.handle.pause_reason
  generalize paused.saveCheckpoint p r.handle.pause_reason o = result at hok hstatus hmessage hrevision
  obtain ⟨r₁, outcome⟩ := result
  cases outcome with
  | ok c =>
      obtain ⟨hstored, hof⟩ := hok c rfl
      refine ⟨hrevision.trans hdesc.revision, .inl (hmessage.trans hdesc.message), .inl ?_⟩
      exact ⟨c, rfl, hstatus.trans hlife, hstored, hof.status.trans hlife, hof.message.trans hdesc.message,
        hof.error_revision.trans hdesc.revision⟩
  | error exc =>
      refine ⟨?_, .inr ⟨exc, ?_⟩, .inr ⟨rfl, ?_, fun ho => ?_⟩⟩
      · rw [saveDiagnostic_handle]
        exact hrevision.trans hdesc.revision
      · rw [saveDiagnostic_handle]
        rfl
      · rw [saveDiagnostic_handle]
        rfl
      · rw [saveDiagnostic_kept ho, saveDiagnostic_handle]
        exact ⟨_, rfl, rfl, hrevision.trans hdesc.revision⟩

theorem failForGood_recorded {r₀ : Run} (hd : Describes r.handle failure r₀.handle.error_revision) :
    Recorded describe r₀ (r.failForGood failure o) failure o none := by
  unfold failForGood
  refine ⟨?_, .inl ?_, .inr ⟨rfl, ?_, fun ho => ?_⟩⟩
  · rw [saveDiagnostic_handle]
    exact hd.revision
  · rw [saveDiagnostic_handle]
    exact hd.message
  · rw [saveDiagnostic_handle]
    rfl
  · rw [saveDiagnostic_kept ho, saveDiagnostic_handle]
    exact ⟨_, rfl, hd.message.symm, hd.revision⟩

theorem dispose_recorded {r₀ : Run} (hd : Describes r.handle failure r₀.handle.error_revision) :
    Recorded describe r₀ (r.dispose p describe failure o).1 failure o (r.dispose p describe failure o).2 := by
  unfold dispose
  split
  · exact pauseForFailure_recorded hd
  · exact failForGood_recorded hd

theorem dispose_saved (hlive : r.handle.lifecycle.final = false)
    (hphase : r.handle.resumable → r.handle.current_phase = entered) :
    Saved r (r.dispose p describe failure o).1 entered := by
  unfold dispose
  split
  · rename_i hresumable
    exact pauseForFailure_saved hlive (hphase hresumable)
  · refine .of_store (by simp [failForGood, withHandle]) fun e _ hfinal hl => ?_
    rw [hl, hfinal] at hlive
    cases hlive

/-- A failure that is neither late nor known is disposed of at the cursor of
the context. -/
theorem finalizeFailure_eq {label : String} {boundary : Option String} (hlive : r.handle.lifecycle.final = false)
    (hnew : committed r.handle = false) {h : WorkflowRunHandle} {changed : Bool}
    (hsync : r.handle.syncContextCursor p = (h, .ok changed)) :
    r.finalizeFailure p describe failure label boundary o =
      (((r.withHandle (described h failure (WorkflowFailureKind.normalize label) boundary)).dispose p describe
        failure o).1, .ok ((r.withHandle (described h failure (WorkflowFailureKind.normalize label)
        boundary)).dispose p describe failure o).2) := by
  rw [finalizeFailure, if_neg (by simp [hlive]), if_neg (by simp [hnew]), syncContextCursor, hsync]
  rfl

theorem finalizeFailure_recorded {label : String} {boundary : Option String}
    (hlive : r.handle.lifecycle.final = false) (hnew : committed r.handle = false)
    (hread : r.handle.readable p) : ∃ saved,
    (r.finalizeFailure p describe failure label boundary o).2 = .ok saved ∧
      Recorded describe r (r.finalizeFailure p describe failure label boundary o).1 failure o saved := by
  obtain ⟨changed, hchanged⟩ := WorkflowRunHandle.sync_of_readable hread
  have hmoved := @WorkflowRunHandle.syncContextCursor_moved p r.handle
  generalize hsync : r.handle.syncContextCursor p = result at hchanged hmoved
  obtain ⟨h, outcome⟩ := result
  dsimp only at hchanged hmoved
  subst hchanged
  rw [finalizeFailure_eq hlive hnew hsync]
  refine ⟨_, rfl, dispose_recorded ⟨rfl, ?_⟩⟩
  simp [withHandle, described, hmoved.error_revision]

/-- A known failure, or one that comes too late, changes nothing. -/
theorem finalizeFailure_ignored {label : String} {boundary : Option String}
    (hknown : r.handle.lifecycle.final ∨ committed r.handle) :
    (r.finalizeFailure p describe failure label boundary o).1 = r := by
  unfold finalizeFailure
  split
  · rfl
  · split
    · rfl
    · simp_all

theorem finalizeFailure_saved {label : String} {boundary : Option String}
    (hf : r.handle.lifecycle.final = false → committed r.handle = false → r.handle.follows p entered) :
    Saved r (r.finalizeFailure p describe failure label boundary o).1 entered := by
  by_cases hknown : r.handle.lifecycle.final ∨ committed r.handle
  · rw [finalizeFailure_ignored hknown]
    exact .of_moved rfl (Moved.refl _)
  · simp only [not_or, Bool.not_eq_true] at hknown
    obtain ⟨hlive, hnew⟩ := hknown
    have hmoved := @WorkflowRunHandle.syncContextCursor_moved p r.handle
    have hplace := fun ctx changed hctx =>
      @WorkflowRunHandle.sync_of_follows p _ ctx entered changed (hf hlive hnew) hctx
    generalize hsync : r.handle.syncContextCursor p = result at hmoved hplace
    obtain ⟨h, outcome⟩ := result
    dsimp only at hmoved
    cases outcome with
    | error exc =>
        rw [finalizeFailure, if_neg (by simp [hlive]), if_neg (by simp [hnew]), syncContextCursor, hsync]
        exact .of_moved rfl hmoved
    | ok changed =>
        rw [finalizeFailure_eq hlive hnew hsync]
        have hlife : (described h failure (WorkflowFailureKind.normalize label) boundary).lifecycle =
            r.handle.lifecycle := hmoved.lifecycle
        refine Saved.after_handle hlife (dispose_saved (by rw [withHandle, hlife]; exact hlive) fun hresumable => ?_)
        cases hctx : r.handle.context with
        | none =>
            have hnone : h.context = none := hmoved.context.trans hctx
            simp [WorkflowRunHandle.resumable, withHandle, described, hnone] at hresumable
        | some ctx => exact hplace ctx changed hctx rfl

end Run
/-! ## 5. Restart -/

theorem restoredHandle_final {c : WorkflowCheckpoint} {context : Context} {recover_interrupted : Bool}
    (hfinal : c.status.final) : (restoredHandle c context recover_interrupted).lifecycle = c.status := by
  unfold restoredHandle
  cases hs : c.status <;> simp_all [WorkflowLifecycle.final]

theorem fromCheckpoint_final {c : WorkflowCheckpoint} {accepted recover_interrupted : Bool} {h : WorkflowRunHandle}
    (hok : fromCheckpoint p c accepted recover_interrupted = .ok h) (hfinal : c.status.final) :
    h.lifecycle = c.status := by
  unfold fromCheckpoint at hok
  cases accepted with
  | false => cases hok
  | true =>
      obtain ⟨context, -, hok⟩ := bind_ok hok
      obtain ⟨topology, -, hok⟩ := bind_ok hok
      obtain ⟨-, -, hok⟩ := bind_ok hok
      cases hok
      exact @restoredHandle_final c context recover_interrupted hfinal

/-! ## 6. Runs -/

/-- What holds of the checkpoints that a run has saved. -/
structure Kept (w : World) : Prop where
  increasing : w.saves.Pairwise (·.1.revision < ·.1.revision)
  placed : ∀ s ∈ w.saves, s.1.Indexed ∧ s.1.current_phase = s.2
  settled : ∀ s ∈ w.saves, s.1.status.final → w.run.handle.lifecycle = s.1.status

/-- The stored checkpoint is the last one saved, and knows how the run ended. -/
structure Stored (w : World) : Prop extends Kept w where
  last : ∀ s ∈ w.saves, ∃ c, w.run.store.checkpoint = some c ∧ s.1.revision ≤ c.revision ∧
    (s.1.status.final → c.status = s.1.status)
  stored : ∀ c, w.run.store.checkpoint = some c → c.status.final → w.run.handle.lifecycle = c.status

/-- The stored checkpoint is one of a run that is over. -/
def WorkflowCheckpointStore.over (s : WorkflowCheckpointStore) : Bool :=
  match s.checkpoint with
  | some c => c.status.final
  | none => false

theorem WorkflowCheckpointStore.over_of_final {s : WorkflowCheckpointStore} {c : WorkflowCheckpoint}
    (hc : s.checkpoint = some c) (hfinal : c.status.final) : s.over := by
  rw [WorkflowCheckpointStore.over, hc]
  exact hfinal

namespace World

variable {w : World} {r : Run} {entered : Option String} {resumed : Bool}

theorem after_same (hsame : r.store.checkpoint = w.run.store.checkpoint) :
    (w.after r entered resumed).saves = w.saves := by
  unfold after
  dsimp only
  split
  · rename_i c hc
    rw [if_pos (hc.symm.trans hsame)]
  · rfl

theorem after_new {c : WorkflowCheckpoint} (hnew : New w.run r entered c) :
    (w.after r entered resumed).saves = w.saves ++ [(c, entered)] := by
  unfold after
  dsimp only
  rw [hnew.stored]
  dsimp only
  rw [if_neg]
  intro hsame
  have := hnew.newer c hsame.symm
  omega

@[simp] theorem after_run : (w.after r entered resumed).run = r := rfl

theorem after_stored (hw : Stored w) (hs : Saved w.run r entered) : Stored (w.after r entered resumed) := by
  have hold : ∀ s ∈ w.saves, s.1.status.final → r.handle.lifecycle = s.1.status := by
    intro s hmem hfinal
    obtain ⟨c, hc, -, hstatus⟩ := hw.last s hmem
    rw [← hstatus hfinal]
    exact hs.settled c hc (by rw [hstatus hfinal]; exact hfinal) ((hw.settled s hmem hfinal).trans (hstatus hfinal).symm)
  cases hs.stored with
  | inl hsame =>
      have hsaves := @after_same w r entered resumed hsame
      refine ⟨⟨?_, ?_, ?_⟩, ?_, ?_⟩
      · rw [hsaves]
        exact hw.increasing
      · rw [hsaves]
        exact hw.placed
      · rw [hsaves]
        exact hold
      · rw [hsaves, after_run, hsame]
        exact hw.last
      · intro c hc hfinal
        rw [after_run, hsame] at hc
        exact hs.settled c hc hfinal (hw.stored c hc hfinal)
  | inr hnew =>
      obtain ⟨c, hnew⟩ := hnew
      have hsaves := @after_new w r entered resumed c hnew
      refine ⟨⟨?_, ?_, ?_⟩, ?_, ?_⟩
      · rw [hsaves, List.pairwise_append]
        refine ⟨hw.increasing, List.pairwise_singleton _ _, fun s hmem s' hmem' => ?_⟩
        obtain ⟨e, he, hle, -⟩ := hw.last s hmem
        have := hnew.newer e he
        simp only [List.mem_singleton] at hmem'
        subst hmem'
        exact Nat.lt_of_le_of_lt hle this
      · intro s hmem
        rw [hsaves, List.mem_append, List.mem_singleton] at hmem
        cases hmem with
        | inl hmem => exact hw.placed s hmem
        | inr heq =>
            subst heq
            exact ⟨hnew.indexed, hnew.phase⟩
      · intro s hmem
        rw [hsaves, List.mem_append, List.mem_singleton] at hmem
        cases hmem with
        | inl hmem => exact hold s hmem
        | inr heq =>
            subst heq
            exact hnew.final
      · intro s hmem
        rw [hsaves, List.mem_append, List.mem_singleton] at hmem
        refine ⟨c, hnew.stored, ?_⟩
        cases hmem with
        | inl hmem =>
            obtain ⟨e, he, hle, hstatus⟩ := hw.last s hmem
            refine ⟨Nat.le_of_lt (Nat.lt_of_le_of_lt hle (hnew.newer e he)), fun hfinal => ?_⟩
            have hefinal : e.status.final := by
              rw [hstatus hfinal]
              exact hfinal
            exact (hnew.settled e he hefinal (hw.stored e he hefinal)).trans (hstatus hfinal)
        | inr heq =>
            subst heq
            exact ⟨Nat.le_refl _, fun _ => rfl⟩
      · intro c' hc' hfinal
        rw [after_run, hnew.stored] at hc'
        cases hc'
        exact hnew.final hfinal

theorem restarted_stored {c : WorkflowCheckpoint} {accepted recover_interrupted : Bool} (hw : Stored w)
    (hc : w.run.store.checkpoint = some c) : Stored (w.restarted p c accepted recover_interrupted) := by
  unfold restarted
  split
  · rename_i h hok
    refine ⟨⟨hw.increasing, hw.placed, fun s hmem hfinal => ?_⟩, hw.last, fun c' hc' hfinal => ?_⟩
    · obtain ⟨c', hc', -, hstatus⟩ := hw.last s hmem
      rw [hc] at hc'
      cases hc'
      have hcfinal : c.status.final := by
        rw [hstatus hfinal]
        exact hfinal
      exact (fromCheckpoint_final hok hcfinal).trans (hstatus hfinal)
    · have heq : some c = some c' := hc.symm.trans hc'
      cases heq
      exact fromCheckpoint_final hok hfinal
  · exact ⟨⟨hw.increasing, hw.placed, hw.settled⟩, hw.last, hw.stored⟩

/-- The condition of a step. A checkpoint is saved where the workflow is. A
failure counts as recorded when it is. A run that has been saved as complete or discarded is
not marked as anything else. -/
def stepOk (p : Plugin) (w : World) (action : Action) : Bool :=
  w.gone ||
    match action with
    | .saveCheckpoint _ _ => w.run.handle.current_phase = w.entered
    | .persistContextTransition _ _ =>
        match Run.transitionPhase p w.run.handle with
        | some phase => (Run.selected w.run.handle phase).follows p w.entered
        | none => true
    | .markPaused _ => !w.run.store.over
    | .markTerminal status _ => !w.run.store.over || !status.terminal || w.run.handle.lifecycle = status
    | .finalizeFailure _ _ _ _ => w.run.handle.lifecycle.final ||
        ((Run.committed w.run.handle = !w.resumed) &&
          (!w.resumed || (w.run.handle.follows p w.entered && w.run.handle.readable p)))
    | _ => true

theorem step_stored {a : Action} (hw : Stored w) (hok : w.stepOk p a) : Stored (step p describe w a) := by
  cases hgone : w.gone with
  | true =>
      cases a with
      | restart accepted recover_interrupted =>
          simp only [step]
          split
          · rename_i c hc
            exact restarted_stored hw hc
          · exact ⟨⟨hw.increasing, hw.placed, hw.settled⟩, hw.last, hw.stored⟩
      | _ =>
          simp only [step, hgone]
          exact hw
  | false =>
      simp only [stepOk, hgone, Bool.false_or] at hok
      cases a with
      | restart accepted recover_interrupted =>
          simp only [step]
          split
          · rename_i c hc
            exact restarted_stored hw hc
          · exact ⟨⟨hw.increasing, hw.placed, hw.settled⟩, hw.last, hw.stored⟩
      | attach ctx ready entering =>
          simp only [step, hgone]
          exact after_stored hw (.of_store rfl fun _ _ _ hl => hl)
      | updatePhase phase index iteration persist o =>
          simp only [step, hgone]
          exact after_stored hw Run.updatePhase_saved
      | syncContextCursor =>
          simp only [step, hgone]
          exact after_stored hw (.of_moved rfl WorkflowRunHandle.syncContextCursor_moved)
      | persistContextTransition reason o =>
          simp only [step, hgone]
          refine after_stored hw (Run.persistContextTransition_saved fun phase hphase => ?_)
          rw [hphase] at hok
          exact hok
      | saveCheckpoint reason o =>
          simp only [step, hgone]
          exact after_stored hw (Run.saveCheckpoint_saved (of_decide_eq_true hok))
      | requestPause =>
          simp only [step, hgone]
          refine after_stored hw (.of_store ?_ fun e _ hfinal hl => ?_)
          · unfold Run.requestPause
            split <;> rfl
          · unfold Run.requestPause
            split
            · exact hl
            · cases hs : e.status <;> simp_all [WorkflowLifecycle.final]
      | markPaused reason =>
          simp only [step, hgone]
          refine after_stored hw (.of_store rfl fun e he hfinal _ => ?_)
          simp [WorkflowCheckpointStore.over_of_final he hfinal] at hok
      | markResuming =>
          simp only [step, hgone]
          refine after_stored hw (.of_store ?_ fun e _ hfinal hl => ?_)
          · unfold Run.markResuming
            split <;> rfl
          · unfold Run.markResuming
            split
            · exact hl
            · cases hs : e.status <;> simp_all [WorkflowLifecycle.final]
      | markTerminal status error =>
          simp only [step, hgone]
          refine after_stored hw (.of_store ?_ fun e he hfinal hl => ?_)
          · unfold Run.markTerminal
            split <;> rfl
          · unfold Run.markTerminal
            split
            · exact hl
            · rename_i hterminal
              simp only [WorkflowCheckpointStore.over_of_final he hfinal, hterminal, Bool.not_true,
                Bool.false_or, Bool.or_false, decide_eq_true_eq] at hok
              dsimp only
              split <;> exact hok.symm.trans hl
      | finalizeFailure failure label boundary o =>
          simp only [step, hgone]
          refine after_stored hw (Run.finalizeFailure_saved fun hlive hnew => ?_)
          simp only [hlive, hnew] at hok
          cases hresumed : w.resumed <;> simp_all

/-- A failure of a run that was resumed since the last one is recorded as its
own; another call for a recorded failure changes nothing. -/
def FailuresKept (p : Plugin) (describe : PyError → String) (w : World) (action : Action) : Prop :=
  match action with
  | .finalizeFailure failure label boundary o => w.gone = false → w.run.handle.lifecycle.final = false →
      (w.resumed = false → (w.run.finalizeFailure p describe failure label boundary o).1 = w.run) ∧
      (w.resumed = true → ∃ saved, (w.run.finalizeFailure p describe failure label boundary o).2 = .ok saved ∧
        Recorded describe w.run (w.run.finalizeFailure p describe failure label boundary o).1 failure o saved)
  | _ => True

theorem step_failures {a : Action} (hok : w.stepOk p a) : w.FailuresKept p describe a := by
  unfold FailuresKept
  split
  · intro hgone hlive
    simp only [stepOk, hgone, hlive, Bool.false_or, Bool.and_eq_true, decide_eq_true_eq] at hok
    obtain ⟨hcommitted, hplace⟩ := hok
    refine ⟨fun hknown => ?_, fun hresumed => ?_⟩
    · rw [hknown] at hcommitted
      exact Run.finalizeFailure_ignored (.inr hcommitted)
    · rw [hresumed] at hcommitted
      simp only [hresumed, Bool.not_true, Bool.false_or, Bool.and_eq_true] at hplace
      exact Run.finalizeFailure_recorded hlive hcommitted hplace.2
  · trivial

theorem created_stored (run_id : String) : Stored (created p run_id) :=
  ⟨⟨List.Pairwise.nil, by simp [created], by simp [created]⟩, by simp [created], by simp [created]⟩

end World
namespace World

/-- A workflow of three phases. -/
def plain : Plugin where
  name := "code_plan"
  phases := ["plan", "code", "review"]
  encode ctx := .ok (.str (ctx.state.getD ""))
  decode
    | .str state => .ok { state := some state, members := ["PLAN", "CODE", "REVIEW"] }
    | _ => .error (validationError "context fields must be an object")
  resolve _ := .ok ⟨"code_plan", "workflow-phases.v1", "", ["plan", "code", "review"], by simp, by decide, [], []⟩
  topology_fingerprint _ := "3"
  lower s := String.ofList (s.toList.map Char.toLower)
  upper s := String.ofList (s.toList.map Char.toUpper)

def contextIn (state : String) : Context := { state := some state, members := ["PLAN", "CODE", "REVIEW"] }

def failureOf (message : String) : Failure := ⟨message, fun kind => { kind := kind, retryable := false }⟩

def start : World := created plain "run-1"

/-- A failure, its resume, a second failure, another process, the next phase,
and the end. -/
def resumedRun : List Action :=
  [.attach (contextIn "PLAN") true (some "plan"), .updatePhase (some "plan") 0 0 true {},
    .finalizeFailure (failureOf "overloaded") "provider_transient" none {},
    .finalizeFailure (failureOf "phase failed") "phase_execution" none {}, .markResuming,
    .finalizeFailure (failureOf "tool failed") "tool_transient" none {}, .restart true false, .markResuming,
    .attach (contextIn "CODE") true (some "code"), .persistContextTransition "phase_transition" {},
    .markTerminal .complete "", .saveCheckpoint "complete" {}, .requestPause, .restart true true]

/-- A failure, its resume, a pause that cannot be saved, and the failure that
this is. -/
def pausedRun : List Action :=
  [.attach (contextIn "PLAN") true (some "plan"), .updatePhase (some "plan") 0 0 true {},
    .finalizeFailure (failureOf "overloaded") "provider_transient" none {}, .markResuming, .requestPause,
    .markPaused "escape", .saveCheckpoint "escape" { raises := some (.osError "disk full") }]

/-- A phase that loops back, and fails before it calls `update_phase`. -/
def loopedRun : List Action :=
  [.attach (contextIn "REVIEW") true (some "review"), .updatePhase (some "review") 2 0 true {},
    .attach (contextIn "CODE") true (some "code"),
    .finalizeFailure (failureOf "overloaded") "provider_transient" none {}]

end World

end Agenthicc.Runners.Workflow
