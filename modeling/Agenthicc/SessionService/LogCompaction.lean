/-
Agenthicc.SessionService.LogCompaction — compacting the log of a session.

`append` opens the log and writes to what it opened; `compact` reads the log
and replaces it later. The two share a lock only within one process, so these
are four steps that interleave at will. `history` is the log as if nothing had
ever been compacted; `Faithful` says what the log still tells of it.
-/
import Agenthicc.SessionService.ReplayTheorems
import Agenthicc.SessionService.Subscriptions
import Agenthicc.Library.Runs

namespace Agenthicc.SessionService

open Python

variable {site : Site}

/-! ## 1. Steps -/

/-- A `compact` call between its read and its replacement; `written` is how
many events had been appended when it read. -/
structure Compaction where
  events : List SessionEvent
  before_sequence : Int
  written : Nat

/-- The log of a session. An append call knows which file it has opened: its
number among the files that were at the path. The last two fields are the
events that were appended, as a reader sees them, and the `before_sequence` of
every compaction that replaced the log. -/
structure Log where
  text : Option (List Char) := none
  generation : Nat := 0
  opened : Nat → Option Nat := fun _ => none
  reads : Nat → Option Compaction := fun _ => none
  history : List SessionEvent := []
  cuts : List Int := []

/-- `all_events`. -/
def Log.events (py : Interp) (l : Log) : List SessionEvent := iterEvents py (l.text.getD [])

/-- The steps of the append and compact calls, which have numbers. -/
inductive LogStep where
  | opens (call : Nat)
  | writes (call : Nat) (event : SessionEvent)
  | reads (call : Nat) (before_sequence : Int)
  | replaces (call : Nat)

def Log.step (py : Interp) (l : Log) : LogStep → Log
  | .opens call =>
      { l with
        text := some (l.text.getD [])
        opened := Function.update l.opened call (some l.generation) }
  | .writes call event =>
      match l.opened call with
      | none => l
      | some generation =>
          { l with
            -- A file that was replaced in between is no longer at the path.
            text := if generation = l.generation then l.text.map (· ++ Files.line event) else l.text
            opened := Function.update l.opened call none
            history := l.history ++ iterEvents py (Files.line event) }
  | .reads call before_sequence =>
      { l with
        reads := Function.update l.reads call
          (some ⟨l.events py, before_sequence, l.history.length⟩) }
  | .replaces call =>
      match l.reads call with
      | none => l
      | some c =>
          match compacted c.events c.before_sequence with
          | none => { l with reads := Function.update l.reads call none }
          | some (text, _) =>
              { l with
                text := some text
                generation := l.generation + 1
                reads := Function.update l.reads call none
                cuts := c.before_sequence :: l.cuts }

/-! ## 2. What a restart rebuilds -/

/-- The runtimes agree in everything but the events that they hold and the
times. -/
structure Runtime.SameProjections (a b : Runtime) : Prop where
  snapshot : a.snapshot.Agrees b.snapshot
  command_results : SameResults a.command_results b.command_results
  deleted : a.deleted = b.deleted

theorem SessionSnapshot.Agrees.trans {s t u : SessionSnapshot} (h : s.Agrees t) (h' : t.Agrees u) :
    s.Agrees u where
  session_id := h.session_id.trans h'.session_id
  project_root := h.project_root.trans h'.project_root
  state := h.state.trans h'.state
  active_turn_id := h.active_turn_id.trans h'.active_turn_id
  parent_session_id := h.parent_session_id.trans h'.parent_session_id
  workflow := h.workflow.trans h'.workflow
  agent := h.agent.trans h'.agent
  queue := h.queue.trans h'.queue
  approvals_pending := h.approvals_pending.trans h'.approvals_pending
  questions_pending := h.questions_pending.trans h'.questions_pending
  background_jobs_running := h.background_jobs_running.trans h'.background_jobs_running
  terminals_running := h.terminals_running.trans h'.terminals_running
  last_event_sequence := h.last_event_sequence.trans h'.last_event_sequence
  capabilities := h.capabilities.trans h'.capabilities
  readiness := h.readiness.trans h'.readiness

namespace Runtime.SameProjections

variable {a b c : Runtime}

theorem trans (h : a.SameProjections b) (h' : b.SameProjections c) : a.SameProjections c :=
  ⟨h.snapshot.trans h'.snapshot, fun key => (h.command_results key).trans (h'.command_results key),
    h.deleted.trans h'.deleted⟩

theorem replay {event : SessionEvent} (hevent : event.canonical = event)
    (h : a.SameProjections b) : (a.replay site event).SameProjections (b.replay site event) where
  snapshot := by
    have happly := h.snapshot.applyEvent event
    rw [hevent] at happly
    exact happly
  command_results := h.command_results.restore event
  deleted := by
    change (a.deleted || _) = (b.deleted || _)
    rw [h.deleted]

theorem fold {events : List SessionEvent} (hevents : ∀ e ∈ events, e.canonical = e)
    (h : a.SameProjections b) : (events.foldl (Runtime.replay site) a).SameProjections
      (events.foldl (Runtime.replay site) b) := by
  induction events generalizing a b with
  | nil => exact h
  | cons event events ih =>
      refine ih (fun e he => hevents e (List.mem_cons_of_mem _ he)) ?_
      exact h.replay (hevents event List.mem_cons_self)

end Runtime.SameProjections

/-- Both rebuild the same runtime, whatever the clock says. -/
def SameRebuilt (site : Site) (events events' : List SessionEvent) : Prop :=
  ∀ now now', ∀ a ∈ runtimeFromEvents site now events, ∀ b ∈ runtimeFromEvents site now' events',
    a.SameProjections b

theorem runtimeFromEvents_some {now : PyFloat} {events : List SessionEvent} (h : events ≠ []) :
    ∃ r, runtimeFromEvents site now events = some r := by
  cases events with
  | nil => exact absurd rfl h
  | cons first rest => exact ⟨_, rfl⟩

theorem runtimeFromEvents_appended {now : PyFloat} {events : List SessionEvent} (h : events ≠ [])
    (more : List SessionEvent) : runtimeFromEvents site now (events ++ more)
      = (runtimeFromEvents site now events).map (more.foldl (Runtime.replay site)) := by
  cases events with
  | nil => exact absurd rfl h
  | cons first rest =>
      rw [List.cons_append, runtimeFromEvents, runtimeFromEvents, Option.map_some,
        ← List.cons_append, List.foldl_append]

theorem SameRebuilt.append {events events' more : List SessionEvent}
    (h : SameRebuilt site events events') (hevents : events ≠ []) (hevents' : events' ≠ [])
    (hmore : ∀ e ∈ more, e.canonical = e) : SameRebuilt site (events ++ more) (events' ++ more) := by
  intro now now' a ha b hb
  rw [runtimeFromEvents_appended hevents, Option.mem_def, Option.map_eq_some_iff] at ha
  rw [runtimeFromEvents_appended hevents', Option.mem_def, Option.map_eq_some_iff] at hb
  obtain ⟨a', ha', rfl⟩ := ha
  obtain ⟨b', hb', rfl⟩ := hb
  exact (h now now' a' ha' b' hb').fold hmore

theorem SameRebuilt.refl {events : List SessionEvent} (hevents : ∀ e ∈ events, e.canonical = e) :
    SameRebuilt site events events := by
  intro now now' a ha b hb
  cases events with
  | nil => cases ha
  | cons first rest =>
      rw [runtimeFromEvents, Option.mem_def, Option.some.injEq] at ha hb
      rw [← ha, ← hb]
      have hstart : (startRuntime site first now).SameProjections (startRuntime site first now') :=
        ⟨⟨rfl, rfl, rfl, rfl, rfl, rfl, rfl, rfl, rfl, rfl, rfl, rfl, rfl, rfl, rfl⟩, fun _ => rfl, rfl⟩
      exact hstart.fold hevents

theorem SameRebuilt.trans {events events' events'' : List SessionEvent}
    (h : SameRebuilt site events events') (hne : events' ≠ [])
    (h' : SameRebuilt site events' events'') : SameRebuilt site events events'' := by
  intro now now' a ha c hc
  obtain ⟨b, hb⟩ : ∃ b, runtimeFromEvents site now events' = some b := runtimeFromEvents_some hne
  exact (h now now a ha b hb).trans (h' now now' b hb c hc)

/-! ## 3. What a log gives back -/

/-- An event that a reader got from a log. -/
def SessionEvent.FromLog (e : SessionEvent) : Prop := e.Legible ∧ e.canonical = e

theorem identityField_ne {data : Payload} {key s : String} {dflt : Option String}
    (h : identityField data key dflt = some s) : s ≠ "" := by
  unfold identityField at h
  split at h
  · rename_i t ht
    split at h
    · cases h
    · rename_i hne
      rw [← Option.some.inj h]
      exact hne
  · cases h

theorem of_bind {α β : Type} {x : Option α} {f : α → Option β} {b : β} (h : (x >>= f) = some b) :
    ∃ a, x = some a ∧ f a = some b := Option.bind_eq_some_iff.mp h

theorem fromMapping_canonical {py : Interp} {data : Payload} {e : SessionEvent}
    (h : SessionEvent.fromMapping py (Json.canonicalPairs data) = some e) :
    e.Named ∧ e.canonical = e := by
  unfold SessionEvent.fromMapping at h
  obtain ⟨payload, hpayload, h⟩ := of_bind h
  obtain ⟨occurred_at, -, h⟩ := of_bind h
  obtain ⟨schema_version, -, h⟩ := of_bind h
  obtain ⟨event_id, hevent, h⟩ := of_bind h
  obtain ⟨session_id, hsession, h⟩ := of_bind h
  obtain ⟨source, hsource, h⟩ := of_bind h
  obtain ⟨kind, hkind, h⟩ := of_bind h
  obtain ⟨durability, -, h⟩ := of_bind h
  obtain ⟨visibility, hvisibility, h⟩ := of_bind h
  obtain ⟨sequence, -, h⟩ := of_bind h
  obtain ⟨turn_id, -, h⟩ := of_bind h
  rw [← Option.some.inj h]
  refine ⟨⟨identityField_ne hevent, identityField_ne hsession, identityField_ne hsource,
    identityField_ne hkind, identityField_ne hvisibility⟩, ?_⟩
  have hcanonical : Json.canonicalPairs payload = payload := by
    unfold mappingField Payload.get at hpayload
    rw [Json.lookup_canonicalPairs] at hpayload
    cases hlookup : Json.lookup "payload" data with
    | none =>
        rw [hlookup] at hpayload
        cases hpayload
        rw [Json.canonicalPairs]
    | some v =>
        rw [hlookup, Option.map_some] at hpayload
        cases v with
        | obj kvs =>
            rw [Json.canonical] at hpayload
            cases hpayload
            exact Json.canonicalPairs_canonicalPairs kvs
        | _ =>
            rw [Json.canonical] at hpayload
            cases hpayload
  simp [SessionEvent.canonical, hcanonical]

theorem fromLog_line {py : Interp} {event : SessionEvent} :
    ∀ e ∈ iterEvents py (Files.line event), e.FromLog := by
  intro e he
  have hlines : readLines (Files.line event) = [.entry (.obj (Json.canonicalPairs event.toDict))] := by
    have hline := readLines_sortedLine event.toDict []
    rw [List.append_nil] at hline
    exact hline
  rw [iterEvents, hlines] at he
  obtain ⟨hmem, hsequence⟩ := List.mem_filter.mp he
  obtain ⟨line, hline, hread⟩ := List.mem_filterMap.mp hmem
  rw [List.mem_singleton.mp hline, lineEvent_obj] at hread
  obtain ⟨hnamed, hcanonical⟩ := fromMapping_canonical hread
  exact ⟨⟨hnamed, of_decide_eq_true hsequence⟩, hcanonical⟩

theorem iterEvents_fromLog {py : Interp} {events : List SessionEvent} (h : ∀ e ∈ events, e.FromLog) :
    iterEvents py (Files.lines events) = events := by
  rw [iterEvents_lines py fun e he => (h e he).1]
  exact (List.map_congr_left fun e he => (h e he).2).trans (List.map_id events)

/-! ## 4. The log and its history -/

/-- What a log tells of a history. -/
structure Faithful (site : Site) (events history : List SessionEvent) : Prop where
  empty : events = [] → history = []
  rebuilt : SameRebuilt site events history
  tail : ∀ first ∈ events.head?, ∀ n ≥ first.sequence - 1,
    events.filter (·.sequence > n) = history.filter (·.sequence > n)

theorem Faithful.refl {events : List SessionEvent} (h : ∀ e ∈ events, e.canonical = e) :
    Faithful site events events where
  empty h := h
  rebuilt := .refl h
  tail _ _ _ _ := rfl

theorem Faithful.history_ne {events history : List SessionEvent} (h : Faithful site events history)
    (hne : events ≠ []) : history ≠ [] := by
  intro hnil
  obtain ⟨first, rest, hevents⟩ := List.exists_cons_of_ne_nil hne
  have htail := h.tail first (by rw [hevents]; rfl) (first.sequence - 1) le_rfl
  rw [hnil, hevents, List.filter_nil, List.filter_cons_of_pos (by simp)] at htail
  cases htail

theorem Faithful.append {events history more : List SessionEvent} (h : Faithful site events history)
    (hmore : ∀ e ∈ more, e.canonical = e) : Faithful site (events ++ more) (history ++ more) := by
  by_cases hempty : events = []
  · rw [hempty, h.empty hempty, List.nil_append]
    exact .refl hmore
  · have hhistory := h.history_ne hempty
    refine ⟨fun hnil => ?_, h.rebuilt.append hempty hhistory hmore, fun first hfirst n hn => ?_⟩
    · exact absurd (List.append_eq_nil_iff.mp hnil).1 hempty
    · rw [List.head?_append_of_ne_nil _ hempty] at hfirst
      rw [List.filter_append, List.filter_append, h.tail first hfirst n hn]

/-- A clean cut: the events below it come first, and after the first event
that is kept the projection is the same without them. -/
structure CleanCut (site : Site) (events : List SessionEvent) (before_sequence : Int) : Prop where
  first : ∀ e ∈ events.dropWhile (·.sequence < before_sequence), before_sequence ≤ e.sequence
  rebuilt : ∀ kept ∈ (events.dropWhile (·.sequence < before_sequence)).head?,
    SameRebuilt site [kept] (events.takeWhile (·.sequence < before_sequence) ++ [kept])

theorem CleanCut.retained {events : List SessionEvent} {before_sequence : Int}
    (h : CleanCut site events before_sequence) :
    events.filter (·.sequence ≥ before_sequence) = events.dropWhile (·.sequence < before_sequence) := by
  have hsplit := List.takeWhile_append_dropWhile (p := fun e : SessionEvent =>
    decide (e.sequence < before_sequence)) (l := events)
  have hdropped : (events.takeWhile (·.sequence < before_sequence)).filter
      (·.sequence ≥ before_sequence) = [] := by
    rw [List.filter_eq_nil_iff]
    intro e he
    have hbelow := List.mem_takeWhile_imp he
    simp at hbelow ⊢
    exact hbelow
  have hkept : (events.dropWhile (·.sequence < before_sequence)).filter
      (·.sequence ≥ before_sequence) = events.dropWhile (·.sequence < before_sequence) := by
    rw [List.filter_eq_self]
    intro e he
    exact decide_eq_true (h.first e he)
  calc events.filter (·.sequence ≥ before_sequence)
      = (events.takeWhile (·.sequence < before_sequence)
          ++ events.dropWhile (·.sequence < before_sequence)).filter (·.sequence ≥ before_sequence) := by
        rw [hsplit]
    _ = events.dropWhile (·.sequence < before_sequence) := by
        rw [List.filter_append, hdropped, hkept, List.nil_append]

/-- **A clean cut is faithful.** -/
theorem Faithful.compacted {events history retained : List SessionEvent} {before_sequence : Int}
    (h : Faithful site events history) (hevents : ∀ e ∈ events, e.canonical = e)
    (hcut : CleanCut site events before_sequence)
    (hretained : events.filter (·.sequence ≥ before_sequence) = retained) (hne : retained ≠ []) :
    Faithful site retained history := by
  have hdrop := hcut.retained.symm.trans hretained
  have hsub : ∀ e ∈ retained, e ∈ events := by
    intro e he
    rw [← hretained] at he
    exact (List.mem_filter.mp he).1
  have hsplit := List.takeWhile_append_dropWhile (p := fun e : SessionEvent =>
    decide (e.sequence < before_sequence)) (l := events)
  rw [hdrop] at hsplit
  obtain ⟨kept, rest, hkept⟩ := List.exists_cons_of_ne_nil hne
  have hnonempty : events ≠ [] := by
    intro hnil
    rw [hnil, List.filter_nil] at hretained
    exact hne hretained.symm
  refine ⟨fun hnil => absurd hnil hne, ?_, fun first hfirst n hn => ?_⟩
  · have hfirst := hcut.rebuilt kept (by rw [hdrop, hkept]; rfl)
    have hrest : SameRebuilt site ([kept] ++ rest)
        (events.takeWhile (·.sequence < before_sequence) ++ [kept] ++ rest) :=
      hfirst.append (by simp) (by simp) fun e he =>
        hevents e (hsub e (by rw [hkept]; exact List.mem_cons_of_mem _ he))
    rw [List.append_assoc, List.singleton_append, ← hkept, hsplit] at hrest
    exact hrest.trans hnonempty h.rebuilt
  · have habove : before_sequence ≤ first.sequence := by
      have hmem := List.mem_of_mem_head? hfirst
      rw [← hdrop] at hmem
      exact hcut.first first hmem
    have hsame : retained.filter (·.sequence > n) = events.filter (·.sequence > n) := by
      rw [← hretained, List.filter_filter]
      refine List.filter_congr fun e _ => ?_
      by_cases he : e.sequence > n
      · simp [he]
        omega
      · simp [he]
    rw [hsame]
    obtain ⟨head, others, hhead⟩ := List.exists_cons_of_ne_nil hnonempty
    refine h.tail head (by rw [hhead]; rfl) n ?_
    by_cases hbelow : head.sequence < before_sequence
    · omega
    · have hdropall : retained = events := by
        rw [← hdrop, hhead, List.dropWhile_cons_of_neg (by simpa using hbelow)]
      rw [hdropall, hhead] at hfirst
      cases hfirst
      exact hn

/-! ## 5. Runs -/

/-- The condition on a step: an append writes to the file that is at the path,
and a compaction replaces a log that nothing was appended to since it read it,
at a clean cut. -/
def Undisturbed (site : Site) (l : Log) : LogStep → Prop
  | .opens _ => True
  | .writes call _ => ∀ generation ∈ l.opened call, generation = l.generation
  | .reads _ _ => True
  | .replaces call => ∀ c ∈ l.reads call, compacted c.events c.before_sequence ≠ none →
      c.written = l.history.length ∧ CleanCut site c.events c.before_sequence

/-- What is left of a history: all of it, but for what was cut. -/
structure Remains (site : Site) (cuts : List Int) (events history : List SessionEvent) : Prop where
  faithful : Faithful site events history
  fromLog : ∀ e ∈ events, e.FromLog
  kept : ∀ e ∈ history, e ∈ events ∨ ∃ cut ∈ cuts, e.sequence < cut

theorem Remains.cut {cuts : List Int} {events history : List SessionEvent} (cut : Int)
    (h : Remains site cuts events history) : Remains site (cut :: cuts) events history where
  faithful := h.faithful
  fromLog := h.fromLog
  kept e he := (h.kept e he).imp id fun ⟨c, hc, hlt⟩ => ⟨c, List.mem_cons_of_mem _ hc, hlt⟩

theorem Remains.append {cuts : List Int} {events history more : List SessionEvent}
    (h : Remains site cuts events history) (hmore : ∀ e ∈ more, e.FromLog) :
    Remains site cuts (events ++ more) (history ++ more) where
  faithful := h.faithful.append fun e he => (hmore e he).2
  fromLog e he := (List.mem_append.mp he).elim (h.fromLog e) (hmore e)
  kept e he := by
    rcases List.mem_append.mp he with he | he
    · exact (h.kept e he).imp (List.mem_append_left _) id
    · exact .inl (List.mem_append_right _ he)

theorem Remains.compacted {cuts : List Int} {events history retained : List SessionEvent}
    {before_sequence : Int} (h : Remains site cuts events history)
    (hcut : CleanCut site events before_sequence)
    (hretained : events.filter (·.sequence ≥ before_sequence) = retained) (hne : retained ≠ []) :
    Remains site (before_sequence :: cuts) retained history where
  faithful := h.faithful.compacted (fun e he => (h.fromLog e he).2) hcut hretained hne
  fromLog e he := h.fromLog e (List.mem_filter.mp (hretained ▸ he)).1
  kept e he := by
    rcases (h.cut before_sequence).kept e he with he | he
    · by_cases hbefore : e.sequence < before_sequence
      · exact .inr ⟨_, List.mem_cons_self, hbefore⟩
      · refine .inl ?_
        rw [← hretained]
        exact List.mem_filter.mpr ⟨he, decide_eq_true (by omega)⟩
    · exact .inr he

/-- The log and every compaction under way. -/
structure Log.Inv (site : Site) (l : Log) : Prop where
  whole : WholeLines (l.text.getD [])
  remains : Remains site l.cuts (l.events site.py) l.history
  opened : ∀ call, l.opened call ≠ none → l.text ≠ none
  reads : ∀ call c, l.reads call = some c → c.written ≤ l.history.length
    ∧ Remains site l.cuts c.events (l.history.take c.written)

theorem Log.inv_init (site : Site) : Log.Inv site {} where
  whole := .inl rfl
  remains := {
    faithful := .refl fun _ he => nomatch he
    fromLog _ he := nomatch he
    kept _ he := nomatch he }
  opened _ h := absurd rfl h
  reads _ _ h := nomatch h

theorem compacted_some {events : List SessionEvent} {before_sequence earliest : Int}
    {text : List Char} (h : compacted events before_sequence = some (text, earliest)) :
    ∃ retained, events.filter (·.sequence ≥ before_sequence) = retained ∧ retained ≠ []
      ∧ text = Files.lines retained := by
  refine ⟨_, rfl, ?_⟩
  unfold compacted at h
  split at h
  · cases h
  · rename_i first rest hretained
    cases h
    rw [hretained]
    exact ⟨by simp, rfl⟩

theorem Log.Inv.write {l : Log} {call : Nat} (event : SessionEvent) (h : Log.Inv site l)
    (hok : Undisturbed site l (.writes call event)) :
    Log.Inv site (l.step site.py (.writes call event)) := by
  unfold Log.step
  dsimp only
  cases hopened : l.opened call with
  | none => exact h
  | some generation =>
      have hsame : generation = l.generation := hok generation hopened
      obtain ⟨text, htext⟩ := Option.ne_none_iff_exists'.mp (h.opened call (by simp [hopened]))
      have hwhole := h.whole
      have hremains := h.remains
      unfold Log.events at hremains
      rw [htext, Option.getD_some] at hwhole hremains
      have hmore : ∀ e ∈ iterEvents site.py (Files.line event), e.FromLog := fromLog_line
      dsimp only
      rw [if_pos hsame, htext, Option.map_some]
      refine ⟨?_, ?_, fun _ _ => by simp, fun call' c hc => ?_⟩
      · exact hwhole.append (wholeLines_sortedLine _)
      · change Remains site l.cuts (iterEvents site.py (text ++ Files.line event)) _
        rw [iterEvents_wholeLines site.py _ _ hwhole]
        exact hremains.append hmore
      · obtain ⟨hwritten, hreads⟩ := h.reads call' c hc
        dsimp only
        rw [List.length_append, List.take_append_of_le_length hwritten]
        exact ⟨by omega, hreads⟩

theorem Log.Inv.replace {l : Log} {call : Nat} (h : Log.Inv site l)
    (hok : Undisturbed site l (.replaces call)) :
    Log.Inv site (l.step site.py (.replaces call)) := by
  have hother : ∀ call' c, Function.update l.reads call none call' = some c →
      l.reads call' = some c := by
    intro call' c hc
    by_cases heq : call' = call
    · rw [heq, Function.update_self] at hc
      cases hc
    · rwa [Function.update_of_ne heq] at hc
  unfold Log.step
  dsimp only
  cases hread : l.reads call with
  | none => exact h
  | some c =>
      dsimp only
      cases hcompacted : compacted c.events c.before_sequence with
      | none => exact ⟨h.whole, h.remains, h.opened, fun call' c' hc' => h.reads call' c' (hother _ _ hc')⟩
      | some result =>
          obtain ⟨text, earliest⟩ := result
          obtain ⟨hwritten, hcut⟩ := hok c hread (by simp [hcompacted])
          obtain ⟨-, hremains⟩ := h.reads call c hread
          rw [hwritten, List.take_length] at hremains
          obtain ⟨retained, hretained, hne, rfl⟩ := compacted_some hcompacted
          have hnext := hremains.compacted hcut hretained hne
          refine ⟨wholeLines_lines retained, ?_, fun _ _ => by simp, fun call' c' hc' => ?_⟩
          · change Remains site _ (iterEvents site.py (Files.lines retained)) _
            rw [iterEvents_fromLog hnext.fromLog]
            exact hnext
          · obtain ⟨hle, hreads⟩ := h.reads call' c' (hother _ _ hc')
            exact ⟨hle, hreads.cut _⟩

/-- **A step.** -/
theorem Log.Inv.step {l : Log} {s : LogStep} (h : Log.Inv site l) (hok : Undisturbed site l s) :
    Log.Inv site (l.step site.py s) := by
  cases s with
  | opens call =>
      refine ⟨h.whole, h.remains, fun _ _ => by simp [Log.step], h.reads⟩
  | writes call event => exact h.write event hok
  | reads call before_sequence =>
      refine ⟨h.whole, h.remains, h.opened, fun call' c hc => ?_⟩
      by_cases heq : call' = call
      · change Function.update l.reads call _ call' = some c at hc
        rw [heq, Function.update_self] at hc
        cases hc
        refine ⟨le_rfl, ?_⟩
        change Remains site l.cuts _ (l.history.take l.history.length)
        rw [List.take_length]
        exact h.remains
      · change Function.update l.reads call _ call' = some c at hc
        rw [Function.update_of_ne heq] at hc
        exact h.reads call' c hc
  | replaces call => exact h.replace hok

/-- A restart on this log is a restart on the log as if nothing had ever been
compacted: the same projections and command results, no event missing but
those below a cut, and to every cursor the reply that the whole history gives
behind the same replay boundary, so a replay gap or every event after it. -/
structure Log.Kept (site : Site) (l : Log) : Prop where
  loadable : l.events site.py = [] → l.history = []
  rebuilt : SameRebuilt site (l.events site.py) l.history
  missing : ∀ e ∈ l.history, e ∈ l.events site.py ∨ ∃ cut ∈ l.cuts, e.sequence < cut
  replayed : ∀ now, ∀ r ∈ runtimeFromEvents site now (l.events site.py), ∀ session_id after caps,
    r.eventsAfter site session_id after caps
      = ({ r with events := l.history } : Runtime).eventsAfter site session_id after caps

theorem replay_events (site : Site) : ∀ (events : List SessionEvent) (r : Runtime),
    (events.foldl (Runtime.replay site) r).events = r.events ++ events
  | [], r => (List.append_nil _).symm
  | event :: events, r => by
      rw [List.foldl_cons, replay_events site events]
      change r.events ++ [event] ++ events = _
      rw [List.append_assoc]
      rfl

theorem runtimeFromEvents_events {now : PyFloat} {events : List SessionEvent} {r : Runtime}
    (h : runtimeFromEvents site now events = some r) : r.events = events
      ∧ ∃ first ∈ events.head?, r.earliest_sequence = first.sequence := by
  cases events with
  | nil => cases h
  | cons first rest =>
      rw [runtimeFromEvents, Option.some.injEq] at h
      rw [← h]
      refine ⟨replay_events site _ _, first, rfl, ?_⟩
      rw [replay_earliest]
      rfl

theorem Log.Inv.kept {l : Log} (h : Log.Inv site l) : Log.Kept site l where
  loadable := h.remains.faithful.empty
  rebuilt := h.remains.faithful.rebuilt
  missing := h.remains.kept
  replayed := by
    intro now r hr session_id after caps
    obtain ⟨hevents, first, hfirst, hearliest⟩ := runtimeFromEvents_events hr
    have hne : r.events ≠ [] := by
      intro hnil
      rw [← hevents, hnil] at hfirst
      cases hfirst
    have hhistory := h.remains.faithful.history_ne (hevents ▸ hne)
    unfold Runtime.eventsAfter
    dsimp only
    by_cases hgap : after < r.earliest_sequence - 1
    · simp only [hne, hhistory, hgap, ne_eq, not_false_eq_true, and_self, if_true]
      rfl
    · have hsame : durableAfter after r.events = durableAfter after l.history := by
        have htail := h.remains.faithful.tail first hfirst after (by omega)
        unfold durableAfter
        rw [hevents, ← List.filter_filter, ← List.filter_filter, List.filter_comm, htail,
          List.filter_comm]
      rw [hsame]
      simp only [hgap, and_false]

def sampleEvent (sequence : Int) (kind : String) (payload : Payload) : SessionEvent where
  event_id := "evt_1"
  sequence := sequence
  session_id := "s1"
  turn_id := none
  source := "session_service"
  kind := kind
  occurred_at := .zero
  durability := .durable
  visibility := "session"
  payload := payload

/-- Two events, and a compaction that drops the first. -/
def sampleCompaction (first second : SessionEvent) : List LogStep :=
  [.opens 0, .writes 0 first, .opens 0, .writes 0 second, .reads 1 2, .replaces 1]

/-- An append that nothing comes between. -/
def Log.append (py : Interp) (l : Log) (event : SessionEvent) : Log :=
  (l.step py (.opens 0)).step py (.writes 0 event)

theorem append_text (py : Interp) (l : Log) (event : SessionEvent) :
    (l.append py event).text = some (l.text.getD [] ++ Files.line event)
      ∧ (l.append py event).history = l.history ++ iterEvents py (Files.line event) := by
  simp [Log.append, Log.step]

theorem foldl_sample (py : Interp) (first second : SessionEvent) :
    (sampleCompaction first second).foldl (Log.step py) {}
      = (((Log.append py {} first).append py second).step py (.reads 1 2)).step py (.replaces 1) := by
  simp only [sampleCompaction, List.foldl_cons, List.foldl_nil, Log.append]

theorem iterEvents_single {py : Interp} {e : SessionEvent} (h : e.FromLog) :
    iterEvents py (Files.line e) = [e] := by
  have hread : iterEvents py (Files.lines [e]) = [e] :=
    iterEvents_fromLog (List.forall_mem_singleton.mpr h)
  rwa [Files.lines, List.flatMap_cons, List.flatMap_nil, List.append_nil] at hread

theorem events_append (py : Interp) {first second : SessionEvent} (hfirst : first.FromLog)
    (hsecond : second.FromLog) :
    ((Log.append py {} first).append py second).events py = [first, second]
      ∧ ((Log.append py {} first).append py second).history = [first, second] := by
  obtain ⟨htext, hhistory⟩ := append_text py {} first
  obtain ⟨htext', hhistory'⟩ := append_text py (Log.append py {} first) second
  have hline : WholeLines (Files.line first) := wholeLines_sortedLine _
  constructor
  · rw [Log.events, htext', htext, Option.getD_some, Option.getD_some, Option.getD_none,
      List.nil_append, iterEvents_wholeLines py _ _ hline, iterEvents_single hfirst,
      iterEvents_single hsecond]
    rfl
  · rw [hhistory', hhistory, iterEvents_single hfirst, iterEvents_single hsecond]
    rfl

theorem compact_text {py : Interp} {l : Log} {first second : SessionEvent}
    (h : l.events py = [first, second]) (hfirst : first.sequence < 2) (hsecond : 2 ≤ second.sequence) :
    ((l.step py (.reads 1 2)).step py (.replaces 1)).text = some (Files.lines [second])
      ∧ ((l.step py (.reads 1 2)).step py (.replaces 1)).history = l.history := by
  have hcompacted : compacted [first, second] 2 = some (Files.lines [second], second.sequence) := by
    simp [compacted, hsecond, hfirst]
  simp [Log.step, h, hcompacted]

theorem fromLog_sample {sequence : Int} {kind : String} {payload : Payload} (hsequence : 0 < sequence)
    (hkind : kind ≠ "") (hpayload : Json.canonicalPairs payload = payload) :
    (sampleEvent sequence kind payload).FromLog where
  left := ⟨⟨by simp [sampleEvent], by simp [sampleEvent], by simp [sampleEvent], hkind,
    by simp [sampleEvent]⟩, hsequence⟩
  right := by simp [SessionEvent.canonical, sampleEvent, hpayload]

theorem applyKind_note (s : SessionSnapshot) : s.applyKind [] "note" none = s := by
  simp [SessionSnapshot.applyKind]

theorem applyEvent_note (s : SessionSnapshot) (sequence : Int) :
    s.applyEvent (sampleEvent sequence "note" [])
      = { s with updated_at := .zero, last_event_sequence := max s.last_event_sequence sequence } := by
  rw [SessionSnapshot.applyEvent]
  change { s.applyKind [] "note" none with
    updated_at := PyFloat.zero, last_event_sequence := max s.last_event_sequence sequence } = _
  rw [applyKind_note]

theorem fromLog_note {sequence : Int} (h : 0 < sequence) : (sampleEvent sequence "note" []).FromLog :=
  fromLog_sample h (by decide) (by rw [Json.canonicalPairs])

theorem cleanCut_notes :
    CleanCut sampleSite [sampleEvent 1 "note" [], sampleEvent 2 "note" []] 2 where
  first e he := by
    have hmem : e ∈ [sampleEvent 2 "note" []] := he
    rw [List.mem_singleton.mp hmem]
    decide
  rebuilt kept hkept := by
    cases hkept
    intro now now' a ha b hb
    have hsnapshot : ∀ s t : SessionSnapshot, s.Agrees t → t.last_event_sequence = 0 →
        (s.applyEvent (sampleEvent 2 "note" [])).Agrees
          ((t.applyEvent (sampleEvent 1 "note" [])).applyEvent (sampleEvent 2 "note" [])) := by
      intro s t h hlast
      rw [applyEvent_note, applyEvent_note, applyEvent_note]
      refine { h with last_event_sequence := ?_ }
      have hs := h.last_event_sequence
      change max s.last_event_sequence 2 = max (max t.last_event_sequence 1) 2
      omega
    cases ha
    cases hb
    exact ⟨hsnapshot _ _ ⟨rfl, rfl, rfl, rfl, rfl, rfl, rfl, rfl, rfl, rfl, rfl, rfl, rfl, rfl, rfl⟩ rfl,
      fun _ => rfl, rfl⟩

theorem undisturbed_append (l : Log) (event : SessionEvent) :
    Undisturbed site (l.step site.py (.opens 0)) (.writes 0 event) := by
  intro generation h
  simpa [Log.step] using h.symm

theorem undisturbed_compact {l : Log} (h : CleanCut site (l.events site.py) 2) :
    Undisturbed site (l.step site.py (.reads 1 2)) (.replaces 1) := by
  intro c hc _
  have hread : c = ⟨l.events site.py, 2, l.history.length⟩ := by
    simpa [Log.step] using hc.symm
  rw [hread]
  exact ⟨rfl, h⟩

end Agenthicc.SessionService
