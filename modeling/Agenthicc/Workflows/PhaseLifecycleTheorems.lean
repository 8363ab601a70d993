/-
Agenthicc.Workflows.PhaseLifecycleTheorems — resuming neither skips nor
repeats work, under which conditions.

A cursor is kept exactly where it is not ahead of the verified prefix. A
boundary is told from the one that was saved last, and only from it: the
marker of the context is that one, which `BoundaryRun.Marked` says.
-/
import Agenthicc.Workflows.PhaseLifecycle
import Agenthicc.Library.Runs
import Mathlib.Data.List.GetD
import Mathlib.Data.List.Nodup

namespace Agenthicc.Workflows

open Python Runs

variable (py : StringMethods)

/-! ## 1. The cursor -/

namespace ResumeInput

variable (args : ResumeInput)

/-- The position of the cursor in the plan; a cursor that names no phase is at
its beginning. -/
def position : Nat := if args.current py ∈ args.names py then (args.names py).idxOf (args.current py) else 0

/-- The phase at the larger of the cursor's position and the length of the
verified prefix, or the terminal phase behind a plan that is all done. -/
def expected : String :=
  if (args.verified py).length = (args.names py).length then args.terminal py
  else (args.names py).getD (max (args.position py) (args.verified py).length) ""

/-- A cursor that is resolved is at the expected phase. -/
def ResolvesForward : Prop := ∀ r, reconcilePhaseCursor py args = .ok r → r.phase_name = args.expected py

/-- There is no evidence, the plan is all done, or the cursor is not ahead of
the verified prefix. A plan that is refused has no cursor. -/
def NotAhead : Prop :=
  args.names py = [] ∨ ¬ (args.names py).Nodup ∨ args.evidence py = []
    ∨ (args.verified py).length = (args.names py).length ∨ args.position py ≤ (args.verified py).length

theorem verified_length_le : (args.verified py).length ≤ (args.names py).length :=
  (List.takeWhile_prefix _).length_le

theorem position_lt (h : args.names py ≠ []) : args.position py < (args.names py).length := by
  rw [position]
  split
  · next hmem => exact List.idxOf_lt_length_of_mem hmem
  · exact List.length_pos_of_ne_nil h

theorem verified_eq_nil (h : args.evidence py = []) : args.verified py = [] := by
  rw [verified, h]
  cases args.names py <;> simp

/-- Without evidence the cursor stays, or is at the first phase. -/
theorem selected_of_no_evidence (hpreserve : args.preserve_current = false) (hnames : args.names py ≠ [])
    (h : args.evidence py = []) : (args.selected py).1 = args.expected py := by
  have hpos := List.length_pos_of_ne_nil hnames
  rw [selected, expected, verified_eq_nil py args h]
  simp only [hpreserve, Bool.false_eq_true, false_and, if_false, h, ne_eq, not_true_eq_false,
    List.length_nil, Nat.max_zero]
  rw [if_neg (Nat.ne_of_lt hpos), position]
  split
  · next hmem =>
    rw [List.getD_eq_getElem _ _ (List.idxOf_lt_length_of_mem hmem), List.getElem_idxOf]
  · next hmem =>
    obtain ⟨name, rest, hcons⟩ := List.exists_cons_of_ne_nil hnames
    rw [hcons]
    rfl

theorem selected_of_evidence (hpreserve : args.preserve_current = false) (h : args.evidence py ≠ []) :
    (args.selected py).1 = (args.names py).getD (args.verified py).length (args.terminal py) := by
  rw [selected]
  simp only [hpreserve, Bool.false_eq_true, false_and, if_false, ne_eq, h, not_false_eq_true, if_true]

theorem resolvesForward_iff (hpreserve : args.preserve_current = false) :
    args.ResolvesForward py ↔ args.NotAhead py := by
  by_cases hplan : args.names py = [] ∨ ¬ (args.names py).Nodup
  · have herror : ∀ r, reconcilePhaseCursor py args ≠ .ok r := by
      intro r hr
      rw [reconcilePhaseCursor, if_pos hplan] at hr
      cases hr
    constructor
    · intro _
      exact hplan.imp id .inl
    · intro _ r hr
      exact absurd hr (herror r)
  · have hok : args.ResolvesForward py ↔ (args.selected py).1 = args.expected py := by
      simp [ResolvesForward, reconcilePhaseCursor, hplan]
    obtain ⟨hnames, hnodup⟩ := not_or.mp hplan
    rw [not_not] at hnodup
    have hle := args.verified_length_le py
    have hlt := args.position_lt py hnames
    have hahead : args.NotAhead py ↔ args.evidence py = []
        ∨ (args.verified py).length = (args.names py).length
        ∨ args.position py ≤ (args.verified py).length := by
      simp [NotAhead, hnames, hnodup]
    rw [hok, hahead]
    by_cases hevidence : args.evidence py = []
    · simp [hevidence, args.selected_of_no_evidence py hpreserve hnames hevidence]
    · rw [args.selected_of_evidence py hpreserve hevidence, expected]
      by_cases hall : (args.verified py).length = (args.names py).length
      · rw [if_pos hall, List.getD_eq_default _ _ (by omega)]
        simp [hall]
      · rw [if_neg hall, List.getD_eq_getElem _ _ (by omega), List.getD_eq_getElem _ _ (by omega),
          List.Nodup.getElem_inj_iff hnodup]
        simp only [hevidence, hall, false_or]
        omega

end ResumeInput

/-! ## 2. Boundaries -/

variable (handle : BoundaryHandle)

/-- The boundary that was saved is taken for this one: the same phase, next
phase, iteration and outcome, or the same key. -/
def BoundaryCall.covers (saved call : BoundaryCall) : Bool :=
  (handle.topology_index saved.next_phase saved.phase_index).any fun index =>
    call.isMarked py (saved.marker py index 0)

/-- The code gets as far as the marker. -/
def BoundaryCall.admitted (call : BoundaryCall) : Bool :=
  py.strip call.completed_phase ≠ "" && handle.checkpoint_supported

namespace BoundaryRun

/-- The context keeps a marker, and the boundary saved last is taken for this
one. -/
def recognises (s : BoundaryRun) (call : BoundaryCall) : Bool :=
  s.context.last_boundary.isSome && s.latest.any fun saved => saved.covers py handle call

/-- The context is saved, unless the call raises. -/
def Saves (s : BoundaryRun) (call : BoundaryCall) (stored : Bool) : Prop :=
  match s.call py handle call stored with
  | (context, .saved checkpoint) =>
      checkpoint.content = s.context.content ∧ context.checkpoints = s.context.checkpoints ++ [checkpoint]
  | (_, .boundaryError) | (_, .valueError) => True
  | (_, .skipped) => False

/-- A phase that completes gets its context saved; a completion that is saved
adds no revision. -/
def Faithful (s : BoundaryRun) : BoundaryEvent → Prop
  | .work _ => True
  | .complete call stored => s.Saves py handle call stored
  | .again number stored =>
      ∀ call saved, s.completions[number]? = some (call, saved) →
        if saved then (s.call py handle call stored).1.checkpoints = s.context.checkpoints
        else s.Saves py handle call stored

/-- A new completion is not taken for the boundary saved last, and one that is
saved already is. -/
def Distinct (s : BoundaryRun) : BoundaryEvent → Prop
  | .work _ => True
  | .complete call _ => call.admitted py handle = true → s.recognises py handle call = false
  | .again number stored =>
      ∀ call saved, s.completions[number]? = some (call, saved) →
        if saved then stored = true → s.recognises py handle call = true
        else call.admitted py handle = true → s.recognises py handle call = false

/-- The marker of the context is that of the boundary saved last, and what is
saved could be. -/
structure Marked (s : BoundaryRun) : Prop where
  marker : ∀ last_boundary, s.context.last_boundary = some last_boundary →
    (s.latest = none ∧ last_boundary = none)
      ∨ ∃ call index revision, s.latest = some call
        ∧ handle.topology_index call.next_phase call.phase_index = some index
        ∧ last_boundary = some (call.marker py index revision)
  saved : ∀ call, (call, true) ∈ s.completions → call.admitted py handle = true
    ∧ (handle.topology_index call.next_phase call.phase_index).isSome = true

end BoundaryRun

namespace BoundaryRun

variable {py handle} {s : BoundaryRun} {call : BoundaryCall} {stored : Bool}

theorem isMarked_iff_recognises (h : s.Marked py handle) (call : BoundaryCall) :
    s.context.last_boundary.any (·.any (call.isMarked py)) = s.recognises py handle call := by
  rw [recognises]
  cases hlast : s.context.last_boundary with
  | none => rfl
  | some last_boundary =>
    obtain ⟨hlatest, rfl⟩ | ⟨saved, index, revision, hlatest, hindex, rfl⟩ := h.marker last_boundary hlast
    · rw [hlatest]
      rfl
    · rw [hlatest]
      simp only [Option.any_some, Option.isSome_some, Bool.true_and, BoundaryCall.covers, hindex]
      rfl

theorem call_cases (h : s.Marked py handle) (call : BoundaryCall) (stored : Bool) :
    (s.call py handle call stored = (s.context, .skipped) ∧ call.admitted py handle = true
        ∧ s.recognises py handle call = true)
      ∨ (∃ error, (error = .boundaryError ∨ error = .valueError)
        ∧ s.call py handle call stored = (s.context, error)
        ∧ (call.admitted py handle = false
          ∨ s.recognises py handle call = false
            ∧ (handle.topology_index call.next_phase call.phase_index = none ∨ stored = false)))
      ∨ ∃ index, handle.topology_index call.next_phase call.phase_index = some index
        ∧ call.admitted py handle = true ∧ s.recognises py handle call = false ∧ stored = true
        ∧ s.call py handle call stored
          = ({ s.context with
              checkpoints := s.context.checkpoints ++ [s.context.checkpoint py call index]
              last_boundary := s.context.last_boundary.map fun _ =>
                some (call.marker py index (s.context.checkpoints.length + 1)) },
            .saved (s.context.checkpoint py call index)) := by
  have hmarked := isMarked_iff_recognises h call
  unfold BoundaryRun.call checkpointPhaseBoundary
  by_cases hname : py.strip call.completed_phase = ""
  · right; left
    exact ⟨.valueError, .inr rfl, by rw [if_pos hname], .inl (by simp [BoundaryCall.admitted, hname])⟩
  · rw [if_neg hname]
    cases hsupported : handle.checkpoint_supported with
    | false =>
      right; left
      exact ⟨.boundaryError, .inl rfl, rfl, .inl (by simp [BoundaryCall.admitted, hsupported])⟩
    | true =>
      have hadmitted : call.admitted py handle = true := by simp [BoundaryCall.admitted, hname, hsupported]
      rw [hmarked]
      cases hrecognised : s.recognises py handle call with
      | true =>
        left
        exact ⟨rfl, hadmitted, rfl⟩
      | false =>
        cases hindex : handle.topology_index call.next_phase call.phase_index with
        | none =>
          right; left
          exact ⟨.boundaryError, .inl rfl, rfl, .inr ⟨rfl, .inl rfl⟩⟩
        | some index =>
          cases stored with
          | false =>
            right; left
            exact ⟨.boundaryError, .inl rfl, rfl, .inr ⟨rfl, .inr rfl⟩⟩
          | true =>
            right; right
            exact ⟨index, rfl, hadmitted, rfl, rfl, rfl⟩

/-- A completion that is not taken for the boundary saved last is saved. -/
theorem saves_iff (h : s.Marked py handle) :
    s.Saves py handle call stored
      ↔ (call.admitted py handle = true → s.recognises py handle call = false) := by
  unfold Saves
  obtain ⟨hcall, hadmitted, hrecognised⟩ | ⟨error, herror, hcall, hfails⟩
    | ⟨index, -, -, hrecognised, -, hcall⟩ := call_cases h call stored
  · rw [hcall]
    simp [hadmitted, hrecognised]
  · have hcond : call.admitted py handle = true → s.recognises py handle call = false := by
      intro hadmitted
      obtain hnot | ⟨hrecognised, -⟩ := hfails
      · rw [hadmitted] at hnot
        cases hnot
      · exact hrecognised
    rw [hcall]
    obtain rfl | rfl := herror
    · exact ⟨fun _ => hcond, fun _ => trivial⟩
    · exact ⟨fun _ => hcond, fun _ => trivial⟩
  · rw [hcall]
    exact ⟨fun _ _ => hrecognised, fun _ => ⟨rfl, rfl⟩⟩

/-- A completion that is saved already adds no revision where it is taken for
the boundary saved last. -/
theorem adds_no_revision_iff (h : s.Marked py handle) (hsaved : (call, true) ∈ s.completions) :
    (s.call py handle call stored).1.checkpoints = s.context.checkpoints
      ↔ (stored = true → s.recognises py handle call = true) := by
  obtain ⟨hadmitted, hindex⟩ := h.saved call hsaved
  obtain ⟨hcall, -, hrecognised⟩ | ⟨error, -, hcall, hfails⟩
    | ⟨index, -, -, hrecognised, hstored, hcall⟩ := call_cases h call stored
  · rw [hcall]
    simp [hrecognised]
  · have hstored : stored = false := by
      obtain hnot | ⟨-, hnone | hstored⟩ := hfails
      · rw [hadmitted] at hnot
        cases hnot
      · rw [hnone] at hindex
        cases hindex
      · exact hstored
    rw [hcall]
    simp [hstored]
  · rw [hcall]
    simp [hrecognised, hstored]

theorem faithful_iff (h : s.Marked py handle) (event : BoundaryEvent) :
    s.Faithful py handle event ↔ s.Distinct py handle event := by
  cases event with
  | work content => exact Iff.rfl
  | complete call stored => exact saves_iff h
  | again number stored =>
    refine forall_congr' fun call => forall_congr' fun saved => forall_congr' fun hget => ?_
    cases saved with
    | false => exact saves_iff h
    | true => exact adds_no_revision_iff h (List.mem_of_getElem? hget)

theorem Marked.after (h : s.Marked py handle) (call : BoundaryCall) (stored : Bool)
    {completions : List (BoundaryCall × Bool)}
    (hcompletions : ∀ c, (c, true) ∈ completions → (c, true) ∈ s.completions
      ∨ c = call ∧ (s.call py handle call stored).2.isSaved = true) :
    Marked py handle ⟨(s.call py handle call stored).1, completions,
      s.latestAfter call (s.call py handle call stored).2⟩ := by
  obtain ⟨hcall, -, -⟩ | ⟨error, herror, hcall, -⟩ | ⟨index, hindex, hadmitted, -, -, hcall⟩ :=
    call_cases h call stored
  · rw [hcall] at hcompletions ⊢
    constructor
    · exact h.marker
    · intro c hc
      obtain hold | ⟨-, hsaved⟩ := hcompletions c hc
      · exact h.saved c hold
      · cases hsaved
  · rw [hcall] at hcompletions ⊢
    constructor
    · obtain rfl | rfl := herror
      · exact h.marker
      · exact h.marker
    · intro c hc
      obtain hold | ⟨-, hsaved⟩ := hcompletions c hc
      · exact h.saved c hold
      · obtain rfl | rfl := herror
        · cases hsaved
        · cases hsaved
  · rw [hcall] at hcompletions ⊢
    constructor
    · intro last_boundary hlast
      right
      obtain ⟨-, -, rfl⟩ := Option.map_eq_some_iff.mp hlast
      exact ⟨call, index, _, rfl, hindex, rfl⟩
    · intro c hc
      obtain hold | ⟨rfl, -⟩ := hcompletions c hc
      · exact h.saved c hold
      · exact ⟨hadmitted, by rw [hindex]; rfl⟩

theorem Marked.step (h : s.Marked py handle) (event : BoundaryEvent) :
    (s.step py handle event).Marked py handle := by
  cases event with
  | work content => exact ⟨h.marker, h.saved⟩
  | complete call stored =>
    apply h.after
    intro c hc
    obtain hold | hnew := List.mem_append.mp hc
    · exact .inl hold
    · right
      rw [List.mem_singleton, Prod.mk.injEq] at hnew
      exact ⟨hnew.1, hnew.2.symm⟩
  | again number stored =>
    cases hget : s.completions[number]? with
    | none =>
      simp only [BoundaryRun.step, hget]
      exact h
    | some completion =>
      obtain ⟨call, saved⟩ := completion
      simp only [BoundaryRun.step, hget]
      apply h.after
      intro c hc
      obtain hold | hnew := List.mem_or_eq_of_mem_set hc
      · exact .inl hold
      · rw [Prod.mk.injEq] at hnew
        obtain ⟨rfl, hsaved⟩ := hnew
        cases saved with
        | true => exact .inl (List.mem_of_getElem? hget)
        | false => exact .inr ⟨rfl, hsaved.symm⟩

theorem Marked.start (content : String) (keeps : Bool) : (start content keeps).Marked py handle := by
  constructor
  · intro last_boundary hlast
    cases keeps with
    | false => cases hlast
    | true => exact .inl ⟨rfl, (Option.some.inj hlast).symm⟩
  · intro call hcall
    cases hcall

/-- A run is faithful throughout exactly when each of its boundary calls is
distinct. -/
theorem run_faithful_iff (content : String) (keeps : Bool) (events : List BoundaryEvent) :
    (∀ k event, events[k]? = some event →
      ((events.take k).foldl (step py handle) (start content keeps)).Faithful py handle event)
      ↔ RunOk (step py handle) (Distinct py handle) (start content keeps) events := by
  have hinv : ∀ (s : BoundaryRun) event, s.Marked py handle → (s.step py handle event).Marked py handle :=
    fun _ event h => h.step event
  have hstep : ∀ (s : BoundaryRun) event, s.Marked py handle → True →
      ((True ∧ s.Faithful py handle event) ↔ s.Distinct py handle event) := by
    intro s event h _
    rw [true_and]
    exact faithful_iff h event
  have hrun : ((∀ _k : Nat, True) ∧ ∀ k event, events[k]? = some event →
      ((events.take k).foldl (step py handle) (start content keeps)).Faithful py handle event)
      ↔ RunOk (step py handle) (Distinct py handle) (start content keeps) events :=
    forall_steps_iff hinv hstep (Marked.start content keeps) trivial
  simpa using hrun

end BoundaryRun

/-! ## 3. Resuming -/

/-- A plan is resumed where the evidence says, and a boundary is checkpointed
once for each completion, exactly under these conditions. -/
theorem resume_neither_skips_nor_repeats_iff (py : StringMethods) :
    (∀ args : ResumeInput, ResumeInput.ResolvesForward py { args with preserve_current := false }
        ↔ ResumeInput.NotAhead py { args with preserve_current := false })
      ∧ ∀ (handle : BoundaryHandle) (content : String) (keeps : Bool) (events : List BoundaryEvent),
        (∀ k event, events[k]? = some event → ((events.take k).foldl (BoundaryRun.step py handle)
          (BoundaryRun.start content keeps)).Faithful py handle event)
          ↔ RunOk (BoundaryRun.step py handle) (BoundaryRun.Distinct py handle)
            (BoundaryRun.start content keeps) events := by
  constructor
  · intro args
    exact ResumeInput.resolvesForward_iff py _ rfl
  · intro handle content keeps events
    exact BoundaryRun.run_faithful_iff content keeps events

/-- A receipt of the first phase takes a cursor at the third back to the
second, and a phase that goes on with itself is checkpointed once. -/
theorem cursor_goes_back_and_loop_is_lost :
    ¬ ResumeInput.ResolvesForward ⟨id, id, fun text => [text]⟩
        { phase_names := ["init", "build", "review"], current_phase := some "review",
          receipt_phases := ["init"] }
      ∧ ¬ ((BoundaryRun.start "first" true).step ⟨id, id, fun text => [text]⟩ ⟨fun _ index => some index, true⟩
          (.complete ⟨"build", some "build", 1, 0, "completed"⟩ true)).Faithful
        ⟨id, id, fun text => [text]⟩ ⟨fun _ index => some index, true⟩
        (.complete ⟨"build", some "build", 1, 0, "completed"⟩ true) := by
  constructor
  · intro h
    have hname := h { phase_name := "build", phase_index := 1, completed_phases := ["init"],
                      source := .phaseReceipts, reconciled := true,
                      diagnostic := "resume cursor review resolved to build from phase_receipts; "
                        ++ "verified contiguous prefix length=1" } (by decide)
    revert hname
    decide
  · intro h
    exact h

end Agenthicc.Workflows
