/-
Agenthicc.Kernel.ProcessorTheorems — the restored state is the live one, and
what a crash in the middle of an append does to it.

`restoreFromLog_eq` separates reading from reducing: the log is read to the
events it holds and these are replayed. What the log holds is a question of
lines (`restoredEvents_written`, `restoredEvents_cut`, `restoredEvents_torn`);
that replaying what was published gives the live state is
`Replay.replay_live` at `writes`.
-/
import Agenthicc.Kernel.Processor
import Agenthicc.Library.Replay

namespace Agenthicc.Kernel

open Python

/-! ## 1. Reading and reducing -/

/-- The reducer as the replay sees it: the state, or a refusal. -/
def reducedState (reducer : ReducerFn) (state : AppState) (event : Event) : Option AppState :=
  match reducer state event with
  | .ok (newState, _) => some newState
  | .error _ => none

theorem restoreLine_eq (py : Interp) (reducer : ReducerFn) (state : AppState) (line : Line) :
    restoreLine py reducer state line
      = (lineEvents py line).map (Replay.replay (reducedState reducer) state) := by
  match line with
  | .blank => rfl
  | .corrupt => rfl
  | .entry v =>
      simp only [restoreLine, lineEvents]
      cases Event.fromDict py v with
      | error exc =>
          simp only
          split <;> rfl
      | ok event =>
          simp only [Except.map, Replay.replay, List.foldl_cons, List.foldl_nil,
            Replay.applyOrSkip, reducedState]
          cases reducer state event <;> rfl

theorem restoreLines_eq (py : Interp) (reducer : ReducerFn) :
    ∀ (lines : List Line) (state : AppState), lines.foldlM (restoreLine py reducer) state
      = (linesEvents py lines).map (Replay.replay (reducedState reducer) state)
  | [], _ => rfl
  | line :: lines, state => by
      rw [List.foldlM_cons, restoreLine_eq, linesEvents]
      cases lineEvents py line with
      | error exc => rfl
      | ok events =>
          simp only [Except.map, bind, Except.bind, restoreLines_eq py reducer lines]
          cases linesEvents py lines with
          | error exc => rfl
          | ok more => simp [Replay.replay]

theorem restoreFromLog_eq (py : Interp) (reducer : ReducerFn) (log : List Char)
    (state : AppState) : restoreFromLog py reducer log state
      = (restoredEvents py log).map (Replay.replay (reducedState reducer) state) :=
  restoreLines_eq py reducer _ state

/-! ## 2. The events a text holds -/

theorem linesEvents_append (py : Interp) {lines : List Line} {events : List Event}
    (h : linesEvents py lines = .ok events) (rest : List Line) :
    linesEvents py (lines ++ rest) = (linesEvents py rest).map (events ++ ·) := by
  induction lines generalizing events with
  | nil =>
      cases h
      cases hr : linesEvents py rest <;> simp [Except.map, hr]
  | cons line lines ih =>
      rw [linesEvents] at h
      rw [List.cons_append, linesEvents]
      cases hl : lineEvents py line with
      | error exc => rw [hl] at h; cases h
      | ok first =>
          rw [hl] at h
          cases hls : linesEvents py lines with
          | error exc => rw [hls] at h; cases h
          | ok more =>
              rw [hls] at h
              cases h
              rw [ih hls]
              cases linesEvents py rest <;> simp [Except.map]

/-- Events that can be decoded: the writer's own versions start at 1. -/
def Versioned (events : List Event) : Prop := ∀ e ∈ events, 1 ≤ e.schema_version

theorem isRecord_toDict (e : Event) : IsRecord e.toDict := ⟨_, rfl⟩

theorem wordKeyed_toDict (e : Event) : WordKeyed e.toDict := by
  refine ⟨'e', "vent_id".toList, ?_, by decide⟩
  decide

theorem isRecord_of_mem {events : List Event} {v : Json} (h : v ∈ events.map Event.toDict) :
    IsRecord v := by
  obtain ⟨e, -, rfl⟩ := List.mem_map.mp h
  exact isRecord_toDict e

theorem lineEvents_toDict (py : Interp) {e : Event} (h : 1 ≤ e.schema_version) :
    lineEvents py (.entry e.toDict) = .ok [e] := by
  simp only [lineEvents, Event.fromDict_toDict py e h]

theorem linesEvents_entries (py : Interp) : ∀ events : List Event, Versioned events →
    linesEvents py (events.map fun e => .entry e.toDict) = .ok events
  | [], _ => rfl
  | e :: events, h => by
      have htail := linesEvents_entries py events fun e' he' => h e' (by simp [he'])
      rw [List.map_cons, linesEvents, lineEvents_toDict py (h e (by simp)), htail]
      rfl

/-- **Whole records** give their events, in front of anything. -/
theorem restoredEvents_written (py : Interp) (events : List Event) (rest : List Char)
    (h : Versioned events) : restoredEvents py (jsonLines (events.map Event.toDict) ++ rest)
      = (restoredEvents py rest).map (events ++ ·) := by
  rw [restoredEvents, decodeLines_jsonLines _ _ fun v hv => isRecord_of_mem hv, List.map_map]
  exact linesEvents_append py (linesEvents_entries py events h) _

theorem restoredEvents_all (py : Interp) (events : List Event) (h : Versioned events) :
    restoredEvents py (jsonLines (events.map Event.toDict)) = .ok events := by
  have hw := restoredEvents_written py events [] h
  rw [List.append_nil] at hw
  rw [hw, show restoredEvents py [] = .ok [] from rfl]
  simp [Except.map]

/-- **A torn record** is skipped, or read when only its line break is missing. -/
theorem restoredEvents_torn (py : Interp) {e : Event} {p : List Char}
    (h : Torn p (jsonLine e.toDict)) (hv : 1 ≤ e.schema_version) :
    restoredEvents py p = .ok (if p = dumps e.toDict then [e] else []) := by
  rw [restoredEvents, decodeLines_torn (isRecord_toDict e) h]
  by_cases hnil : p = []
  · have hne : p ≠ dumps e.toDict := by
      obtain ⟨t, ht⟩ := dumps_obj_last _
      rw [hnil, Event.toDict, ht]; simp
    rw [if_pos hnil, if_neg hne]
    rfl
  · rw [if_neg hnil]
    by_cases hfull : p = dumps e.toDict
    · rw [if_pos hfull, if_pos hfull, linesEvents, lineEvents_toDict py hv]
      rfl
    · rw [if_neg hfull, if_neg hfull]
      rfl

/-- **A cut log** gives the first events. -/
theorem restoredEvents_cut (py : Interp) {events : List Event} (h : Versioned events)
    {cut : List Char} (hcut : cut <+: jsonLines (events.map Event.toDict)) :
    ∃ k ≤ events.length, restoredEvents py cut = .ok (events.take k) := by
  rcases prefix_jsonLines _ hcut with rfl | ⟨pre, v, post, q, hsplit, rfl, hq⟩
  · exact ⟨events.length, Nat.le_refl _, by rw [restoredEvents_all py events h, List.take_length]⟩
  · obtain ⟨first, last, rfl, rfl, hlast⟩ := List.map_eq_append_iff.mp hsplit
    obtain ⟨e, later, rfl, rfl, rfl⟩ := List.map_eq_cons_iff.mp hlast
    have hfirst : Versioned first := fun e' he' => h e' (by simp [he'])
    rw [restoredEvents_written py first q hfirst, restoredEvents_torn py hq (h e (by simp))]
    by_cases hfull : q = dumps e.toDict
    · exact ⟨first.length + 1, by simp, by
        simp [Except.map, hfull, List.take_length_add_append]⟩
    · exact ⟨first.length, by simp, by simp [Except.map, hfull]⟩

/-! ## 3. The live run -/

namespace EventProcessor

/-- One step of the loop for `Replay.live`. -/
def liveStep (reducer : ReducerFn) (state : AppState) (a : Arrival) : AppState × Event :=
  (nextState reducer state a, publishedEvent reducer state a)

/-- The run moves the state, and writes and publishes one event an arrival. -/
theorem run_spec (reducer : ReducerFn) : ∀ (arrivals : List Arrival) (p : EventProcessor),
    (p.run reducer arrivals).state = (Replay.live (liveStep reducer) p.state arrivals).1
      ∧ (p.run reducer arrivals).log = p.log
          ++ jsonLines ((Replay.live (liveStep reducer) p.state arrivals).2.map Event.toDict)
      ∧ (p.run reducer arrivals).published
          = p.published ++ (Replay.live (liveStep reducer) p.state arrivals).2
  | [], p => by simp [run, Replay.live]
  | a :: arrivals, p => by
      obtain ⟨hstate, hlog, hpub⟩ := process_spec reducer p a
      obtain ⟨ih1, ih2, ih3⟩ := run_spec reducer arrivals (p.process reducer a)
      simp only [run, List.foldl_cons] at ih1 ih2 ih3 ⊢
      rw [ih1, ih2, ih3, hstate, hlog, hpub]
      simp [Replay.live, liveStep]

theorem publishedEvent_version (reducer : ReducerFn) (state : AppState) {a : Arrival}
    (h : 1 ≤ a.event.schema_version) : 1 ≤ (publishedEvent reducer state a).schema_version := by
  unfold publishedEvent
  cases reducer state a.event with
  | ok r => exact h
  | error exc => exact (by decide : (1 : Int) ≤ 1)

theorem live_versioned (reducer : ReducerFn) : ∀ (arrivals : List Arrival) (state : AppState),
    (∀ a ∈ arrivals, 1 ≤ a.event.schema_version) →
      Versioned (Replay.live (liveStep reducer) state arrivals).2
  | [], _, _ => by simp [Replay.live, Versioned]
  | a :: arrivals, state, h => by
      have ih := live_versioned reducer arrivals (liveStep reducer state a).1
        fun b hb => h b (by simp [hb])
      intro e he
      rcases List.mem_cons.mp he with rfl | he
      · exact publishedEvent_version reducer state (h a (by simp))
      · exact ih e he

/-- A refusal is published as an event that reduces to nothing. -/
theorem writes (py : Interp) :
    Replay.Writes (reducedState (rootReducer py)) (liveStep (rootReducer py)) := by
  intro state a
  simp only [liveStep, publishedEvent, nextState, Replay.applyOrSkip]
  cases hr : rootReducer py state a.event with
  | ok r => simp [reducedState, hr]
  | error exc =>
      have hp := rootReducer_projection py state (rejection a exc) (by
        show "KernelEventRejected" ∈ PROJECTION_EVENT_TYPES
        decide)
      simp [reducedState, hp]

end EventProcessor

/-- The live state is the replay of what was published, whatever the cut. -/
theorem replay_published (py : Interp) (arrivals : List Arrival) (s₀ : AppState) (k : Nat) :
    Replay.replay (reducedState (rootReducer py)) s₀
        ((Replay.live (EventProcessor.liveStep (rootReducer py)) s₀ arrivals).2.take k)
      = ((EventProcessor.opened s₀ []).run (rootReducer py) (arrivals.take k)).state := by
  rw [Replay.replay_live_take (EventProcessor.writes py) k arrivals s₀,
    (EventProcessor.run_spec _ _ _).1]
  rfl

/-- The clock reading of the concrete runs. -/
def zeroClock : PyFloat := .zero

/-- An intent, and an event of a type that is not declared. -/
def sampleArrivals : List Arrival :=
  [⟨Event.create "a1" zeroClock "IntentCreated"
      [("intent_id", .str "i1"), ("raw_text", .str "fix it")], "b1", zeroClock⟩,
    ⟨Event.create "a2" zeroClock "IntentLost" [], "b2", zeroClock⟩]

/-- The log that is `old`, a torn record and what was appended behind it
restores what `old` held and what was appended; the torn record may be
missing. -/
def SurvivesTorn (py : Interp) (old : List Char) (torn : Event) (log : List Char)
    (after : List Event) : Prop :=
  ∃ before, restoredEvents py old = .ok before
    ∧ (restoredEvents py log = .ok (before ++ after)
      ∨ restoredEvents py log = .ok (before ++ torn :: after))

theorem restoredEvents_append (py : Interp) {old : List Char} {before : List Event}
    (hold : WholeLines old) (h : restoredEvents py old = .ok before) (rest : List Char) :
    restoredEvents py (old ++ rest) = (restoredEvents py rest).map (before ++ ·) := by
  rw [restoredEvents, decodeLines_wholeLines rest hold]
  exact linesEvents_append py h _

theorem restoredEvents_glued (py : Interp) {torn e : Event} {later : List Event} {p : List Char}
    (hp : Torn p (jsonLine torn.toDict)) (hne : p ≠ []) (h : Versioned later) :
    restoredEvents py (p ++ jsonLines ((e :: later).map Event.toDict)) = .ok later := by
  rw [List.map_cons, jsonLines_cons, restoredEvents,
    decodeLines_glued _ (isRecord_toDict torn) hp hne (wordKeyed_toDict e), linesEvents]
  have hlater := restoredEvents_all py later h
  rw [restoredEvents] at hlater
  simp only [lineEvents, hlater, List.nil_append]

theorem torn_brace (e : Event) : Torn ['{'] (jsonLine e.toDict) := by
  obtain ⟨t, ht⟩ := dumpsPairs_last true
    [("event_id", .str e.event_id), ("event_type", .str e.event_type),
      ("timestamp", .float e.timestamp), ("payload", .obj e.payload),
      ("source_agent_id", .ofOptStr e.source_agent_id),
      ("tool_call_id", .ofOptStr e.tool_call_id), ("schema_version", .int e.schema_version)]
  rw [jsonLine, Event.toDict, dumps, ht]
  refine ⟨⟨t ++ ['}', '\n'], by simp⟩, by simp⟩

/-- One event behind a torn one. -/
def nextArrival : Arrival := ⟨Event.create "a3" zeroClock "UIAdUpdate" [], "b3", zeroClock⟩

end Agenthicc.Kernel
