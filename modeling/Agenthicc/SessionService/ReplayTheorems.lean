/-
Agenthicc.SessionService.ReplayTheorems — a restarted service agrees with
the live one.

A live runtime and the one that is rebuilt from the log fold the same events,
apart from the order of the pairs in a dict and from what redaction, the
codec of the log and the direct writes of the service make different.
`agrees_applyEvent` is the simulation of one event; `Consistent` relates the
logs, the runtimes and everything that was published; `restart_agrees` is the
result for every run whose operations meet `Replayable`.
-/
import Agenthicc.SessionService.Service
import Agenthicc.Library.Runs

namespace Agenthicc.SessionService

open Python

variable {site : Site} {w : World} {p q : Payload} {s t : SessionSnapshot}

/-! ## 1. Dicts -/

/-- Equal dicts. -/
def SameDict (p q : Payload) : Prop := Json.canonicalPairs p = Json.canonicalPairs q

theorem SameDict.refl (p : Payload) : SameDict p p := rfl

theorem SameDict.append {p' q' : Payload} (h : SameDict p q) (h' : SameDict p' q') :
    SameDict (p ++ p') (q ++ q') := Json.canonicalPairs_append h h'

theorem sameDict_canonical (p : Payload) : SameDict p (Json.canonicalPairs p) :=
  (Json.canonicalPairs_canonicalPairs p).symm

theorem SameDict.get (h : SameDict p q) (key : String) :
    (p.get key).map Json.canonical = (q.get key).map Json.canonical := by
  unfold Payload.get
  rw [← Json.lookup_canonicalPairs, h, Json.lookup_canonicalPairs]

theorem strOf?_canonical (v : Option Json) : strOf? (v.map Json.canonical) = strOf? v := by
  cases v with
  | none => rfl
  | some v => cases v <;> simp only [Option.map_some, Json.canonical, strOf?]

theorem intOf?_canonical (v : Option Json) : intOf? (v.map Json.canonical) = intOf? v := by
  cases v with
  | none => rfl
  | some v => cases v <;> simp only [Option.map_some, Json.canonical, intOf?]

theorem objOf?_canonical (v : Option Json) :
    objOf? (v.map Json.canonical) = (objOf? v).map Json.canonicalPairs := by
  cases v with
  | none => rfl
  | some v => cases v <;> simp only [Option.map_some, Option.map_none, Json.canonical, objOf?]

theorem strings_canonical (xs : List Json) :
    (Json.canonicalItems xs).filterMap (fun x => strOf? (some x))
      = xs.filterMap fun x => strOf? (some x) := by
  induction xs with
  | nil => rw [Json.canonicalItems]
  | cons x xs ih =>
      rw [Json.canonicalItems, List.filterMap_cons, List.filterMap_cons, ih]
      have hx := strOf?_canonical (some x)
      rw [Option.map_some] at hx
      rw [hx]

theorem stringsOf?_canonical (v : Option Json) : stringsOf? (v.map Json.canonical) = stringsOf? v := by
  cases v with
  | none => rfl
  | some v =>
      cases v with
      | arr xs => simp only [Option.map_some, Json.canonical, stringsOf?, strings_canonical]
      | _ => simp only [Option.map_some, Json.canonical, stringsOf?]

theorem oneOf_canonical (v : Option Json) (allowed : List String) :
    oneOf (v.map Json.canonical) allowed = oneOf v allowed := by
  cases v with
  | none => rfl
  | some v => cases v <;> simp only [Option.map_some, Json.canonical, oneOf]

theorem optionalBool_canonical (v : Option Json) :
    optionalBool (v.map Json.canonical) = optionalBool v := by
  cases v with
  | none => rfl
  | some v => cases v <;> simp only [Option.map_some, Json.canonical, optionalBool]

theorem nonEmptyList_canonical (v : Option Json) :
    nonEmptyList (v.map Json.canonical) = nonEmptyList v := by
  cases v with
  | none => rfl
  | some v =>
      cases v with
      | arr xs =>
          cases xs <;> simp only [Option.map_some, Json.canonical, Json.canonicalItems, nonEmptyList]
      | _ => simp only [Option.map_some, Json.canonical, nonEmptyList]

section Answers

variable (h : SameDict p q) (key : String)

include h

theorem SameDict.strOf? : SessionService.strOf? (p.get key) = SessionService.strOf? (q.get key) := by
  rw [← strOf?_canonical, h.get key, strOf?_canonical]

theorem SameDict.intOf? : SessionService.intOf? (p.get key) = SessionService.intOf? (q.get key) := by
  rw [← intOf?_canonical, h.get key, intOf?_canonical]

theorem SameDict.stringsOf? :
    SessionService.stringsOf? (p.get key) = SessionService.stringsOf? (q.get key) := by
  rw [← stringsOf?_canonical, h.get key, stringsOf?_canonical]

theorem SameDict.objOf? : (SessionService.objOf? (p.get key)).map Json.canonicalPairs
    = (SessionService.objOf? (q.get key)).map Json.canonicalPairs := by
  rw [← objOf?_canonical, h.get key, objOf?_canonical]

theorem SameDict.oneOf (allowed : List String) :
    SessionService.oneOf (p.get key) allowed = SessionService.oneOf (q.get key) allowed := by
  rw [← oneOf_canonical, h.get key, oneOf_canonical]

theorem SameDict.optionalBool :
    SessionService.optionalBool (p.get key) = SessionService.optionalBool (q.get key) := by
  rw [← optionalBool_canonical, h.get key, optionalBool_canonical]

theorem SameDict.nonEmptyList :
    SessionService.nonEmptyList (p.get key) = SessionService.nonEmptyList (q.get key) := by
  rw [← nonEmptyList_canonical, h.get key, nonEmptyList_canonical]

theorem SameDict.count : SessionService.count (p.get key) = SessionService.count (q.get key) := by
  rw [SessionService.count, h.intOf? key, SessionService.count]

theorem SameDict.put (value : Option Json) : SameDict (put p key value) (put q key value) := by
  cases value with
  | none => exact h
  | some v => exact h.append (.refl _)

theorem SameDict.withoutSecret : SameDict (withoutSecret p) (withoutSecret q) :=
  Json.canonicalPairs_filter (fun key => decide (key ≠ "secret")) h

end Answers

/-! ## 2. Snapshots -/

/-- The snapshots agree, apart from their times. -/
structure SessionSnapshot.Agrees (s t : SessionSnapshot) : Prop where
  session_id : s.session_id = t.session_id
  project_root : s.project_root = t.project_root
  state : s.state = t.state
  active_turn_id : s.active_turn_id = t.active_turn_id
  parent_session_id : s.parent_session_id = t.parent_session_id
  workflow : SameDict s.workflow t.workflow
  agent : SameDict s.agent t.agent
  queue : SameDict s.queue t.queue
  approvals_pending : s.approvals_pending = t.approvals_pending
  questions_pending : s.questions_pending = t.questions_pending
  background_jobs_running : s.background_jobs_running = t.background_jobs_running
  terminals_running : s.terminals_running = t.terminals_running
  last_event_sequence : s.last_event_sequence = t.last_event_sequence
  capabilities : s.capabilities = t.capabilities
  readiness : SameDict s.readiness t.readiness

namespace SessionSnapshot

theorem Agrees.ite {c : Prop} [Decidable c] {s' t' : SessionSnapshot} (h : s.Agrees t)
    (h' : s'.Agrees t') : (if c then s else s').Agrees (if c then t else t') := by
  split
  · exact h
  · exact h'

theorem Agrees.depth (h : s.Agrees t) : s.depth = t.depth := h.queue.count "depth"

theorem Agrees.withDepth (h : s.Agrees t) (depth : Int) :
    (s.withDepth depth).Agrees (t.withDepth depth) :=
  { h with queue := h.queue.append (.refl _) }

theorem Agrees.turnBegins (h : s.Agrees t) (hp : SameDict p q) (turn_id : Option String) :
    (s.turnBegins p turn_id).Agrees (t.turnBegins q turn_id) := by
  refine { h with state := rfl, active_turn_id := ?_ }
  change s.turnOf p turn_id = t.turnOf q turn_id
  unfold turnOf
  rw [hp.strOf?, h.active_turn_id]

theorem Agrees.turnEnds (h : s.Agrees t) (state : SessionState) :
    (s.turnEnds state).Agrees (t.turnEnds state) := by
  unfold SessionSnapshot.turnEnds
  rw [h.depth]
  have hended : ({ s with state := state, active_turn_id := none } : SessionSnapshot).Agrees
      { t with state := state, active_turn_id := none } :=
    { h with state := rfl, active_turn_id := rfl }
  exact hended.withDepth _

theorem getD_agrees {a b : Option Payload} {x y : Payload}
    (h : a.map Json.canonicalPairs = b.map Json.canonicalPairs) (hxy : SameDict x y) :
    SameDict (a.getD x) (b.getD y) := by
  cases a with
  | none =>
      cases b with
      | none => exact hxy
      | some b => cases h
  | some a =>
      cases b with
      | none => cases h
      | some b => exact Option.some.inj h

theorem Agrees.sessionCreated (h : s.Agrees t) (hp : SameDict p q) :
    (s.sessionCreated p).Agrees (t.sessionCreated q) := by
  refine { h with
    state := rfl
    project_root := ?_
    parent_session_id := ?_
    capabilities := ?_
    agent := getD_agrees (hp.objOf? "agent") h.agent
    workflow := getD_agrees (hp.objOf? "workflow") h.workflow }
  · change (strOf? (p.get "project_root")).getD s.project_root = _
    rw [hp.strOf?, h.project_root]
    rfl
  · change (strOf? (p.get "parent_session_id")).or s.parent_session_id = _
    rw [hp.strOf?, h.parent_session_id]
    rfl
  · change ((stringsOf? (p.get "capabilities")).map sortedStrings).getD s.capabilities = _
    rw [hp.stringsOf?, h.capabilities]
    rfl

theorem Agrees.readinessChanged (h : s.Agrees t) (hp : SameDict p q) :
    (s.readinessChanged p).Agrees (t.readinessChanged q) := by
  refine { h with readiness := ?_ }
  unfold SessionSnapshot.readinessChanged
  dsimp only
  rw [hp.oneOf, hp.oneOf, hp.optionalBool, hp.optionalBool]
  exact ((((h.readiness.put _ _).put _ _).put _ _).put _ _).put _ _

theorem Agrees.withWorkflow (h : s.Agrees t) (status : String) (resumable : Json) :
    (s.withWorkflow status resumable).Agrees (t.withWorkflow status resumable) :=
  { h with readiness := h.readiness.append (.refl _) }

theorem Agrees.recoveryAvailable (h : s.Agrees t) (hp : SameDict p q) :
    (s.recoveryAvailable p).Agrees (t.recoveryAvailable q) := by
  unfold SessionSnapshot.recoveryAvailable
  dsimp only
  rw [hp.count, hp.nonEmptyList]
  exact h.withWorkflow _ _

/-- **One event, live and from the log.** -/
theorem Agrees.applyKind (h : s.Agrees t) (hp : SameDict p q) (kind : String)
    (turn_id : Option String) : (s.applyKind p kind turn_id).Agrees (t.applyKind q kind turn_id) := by
  unfold SessionSnapshot.applyKind
  refine .ite (h.sessionCreated hp) ?_
  refine .ite (h.depth ▸ (h.turnBegins hp turn_id).withDepth _) ?_
  refine .ite (h.turnBegins hp turn_id) ?_
  refine .ite (h.turnEnds _) ?_
  refine .ite { h with state := rfl } ?_
  refine .ite (h.turnEnds _) ?_
  refine .ite (h.turnEnds _) ?_
  refine .ite { h with
    state := rfl
    approvals_pending := congrArg (· + 1) h.approvals_pending } ?_
  refine .ite { h with
    state := rfl
    questions_pending := congrArg (· + 1) h.questions_pending } ?_
  refine .ite { h with
    state := rfl
    approvals_pending := congrArg (fun n => max 0 (n - 1)) h.approvals_pending
    questions_pending := congrArg (max 0) h.questions_pending } ?_
  refine .ite { h with
    state := rfl
    approvals_pending := congrArg (max 0) h.approvals_pending
    questions_pending := congrArg (fun n => max 0 (n - 1)) h.questions_pending } ?_
  refine .ite { h with state := rfl } ?_
  refine .ite { h with state := rfl } ?_
  refine .ite { h with state := rfl } ?_
  refine .ite { h with workflow := h.workflow.append hp.withoutSecret } ?_
  refine .ite (h.readinessChanged hp) ?_
  refine .ite (h.recoveryAvailable hp) ?_
  refine .ite (h.withWorkflow _ _) ?_
  refine .ite (h.withWorkflow _ _) ?_
  refine .ite (h.withWorkflow _ _) ?_
  refine .ite (h.withWorkflow _ _) ?_
  refine .ite { h with agent := h.agent.append hp.withoutSecret } ?_
  refine .ite { h with background_jobs_running := ?_ } (.ite { h with terminals_running := ?_ } h)
  · change (intOf? (p.get "running_count")).getD s.background_jobs_running = _
    rw [hp.intOf?, h.background_jobs_running]
  · change (intOf? (p.get "running_count")).getD s.terminals_running = _
    rw [hp.intOf?, h.terminals_running]

theorem Agrees.applyEvent (h : s.Agrees t) (event : SessionEvent) :
    (s.applyEvent event).Agrees (t.applyEvent event.canonical) :=
  { h.applyKind (sameDict_canonical event.payload) event.kind event.turn_id with
    last_event_sequence := congrArg (max · event.sequence) h.last_event_sequence }

theorem applyKind_session_id (s : SessionSnapshot) (p : Payload) (kind : String)
    (turn_id : Option String) : (s.applyKind p kind turn_id).session_id = s.session_id
      ∧ (s.applyKind p kind turn_id).last_event_sequence = s.last_event_sequence := by
  have hite : ∀ {c : Prop} [Decidable c] {a b : SessionSnapshot},
      (a.session_id = s.session_id ∧ a.last_event_sequence = s.last_event_sequence) →
      (b.session_id = s.session_id ∧ b.last_event_sequence = s.last_event_sequence) →
      (if c then a else b).session_id = s.session_id
        ∧ (if c then a else b).last_event_sequence = s.last_event_sequence := by
    intro c _ a b ha hb
    split
    · exact ha
    · exact hb
  unfold SessionSnapshot.applyKind
  repeat' first | exact ⟨rfl, rfl⟩ | apply hite

end SessionSnapshot

/-! ## 3. Runtimes -/

def CommandResult.canonical (r : CommandResult) : CommandResult :=
  { r with data := Json.canonicalPairs r.data }

/-- Tables with equal results. -/
def SameResults (a b : List (String × CommandResult)) : Prop :=
  ∀ key, (assocGet key a).map CommandResult.canonical = (assocGet key b).map CommandResult.canonical

theorem SameResults.set {a b : List (String × CommandResult)} (h : SameResults a b) (key : String)
    {r r' : CommandResult} (hr : r.canonical = r'.canonical) :
    SameResults (assocSet key r a) (assocSet key r' b) := by
  intro key'
  rw [assocGet_assocSet, assocGet_assocSet]
  split
  · exact congrArg some hr
  · exact h key'

/-- The live runtime agrees with one that is rebuilt from the log. -/
structure Runtime.Agrees (live rebuilt : Runtime) : Prop where
  snapshot : live.snapshot.Agrees rebuilt.snapshot
  updated_at : live.snapshot.updated_at = rebuilt.snapshot.updated_at
  events : live.events.map SessionEvent.canonical = rebuilt.events.map SessionEvent.canonical
  command_results : SameResults live.command_results rebuilt.command_results
  earliest_sequence : live.earliest_sequence = rebuilt.earliest_sequence
  deleted : live.deleted = rebuilt.deleted

theorem runtimeFromEvents_append (site : Site) (now : PyFloat) {events : List SessionEvent}
    {b : Runtime} (event : SessionEvent) (h : runtimeFromEvents site now events = some b) :
    runtimeFromEvents site now (events ++ [event]) = some (b.replay site event) := by
  cases events with
  | nil => cases h
  | cons first rest =>
      rw [runtimeFromEvents, Option.some.injEq] at h
      rw [List.cons_append, runtimeFromEvents, ← List.cons_append, List.foldl_append, h]
      rfl

theorem replay_sequences (site : Site) : ∀ (events : List SessionEvent) (b : Runtime),
    b.snapshot.last_event_sequence ≤ (events.foldl (Runtime.replay site) b).snapshot.last_event_sequence
      ∧ ∀ e ∈ events,
        e.sequence ≤ (events.foldl (Runtime.replay site) b).snapshot.last_event_sequence
  | [], b => ⟨le_rfl, fun _ h => nomatch h⟩
  | event :: events, b => by
      obtain ⟨hlast, hevents⟩ := replay_sequences site events (b.replay site event)
      have hmax : (b.replay site event).snapshot.last_event_sequence
          = max b.snapshot.last_event_sequence event.sequence := rfl
      rw [hmax] at hlast
      refine ⟨(le_max_left _ _).trans hlast, fun e he => ?_⟩
      rcases List.mem_cons.mp he with rfl | he
      · exact (le_max_right _ _).trans hlast
      · exact hevents e he

theorem runtimeFromEvents_sequences {now : PyFloat} {events : List SessionEvent} {b : Runtime}
    (h : runtimeFromEvents site now events = some b) : 0 ≤ b.snapshot.last_event_sequence
      ∧ ∀ e ∈ events, e.sequence ≤ b.snapshot.last_event_sequence := by
  cases events with
  | nil => cases h
  | cons first rest =>
      rw [runtimeFromEvents, Option.some.injEq] at h
      have hfold := replay_sequences site (first :: rest) (startRuntime site first now)
      rw [h] at hfold
      exact hfold

theorem replay_session_id (site : Site) : ∀ (events : List SessionEvent) (b : Runtime),
    (events.foldl (Runtime.replay site) b).snapshot.session_id = b.snapshot.session_id
  | [], _ => rfl
  | event :: events, b => by
      rw [List.foldl_cons, replay_session_id site events]
      exact (SessionSnapshot.applyKind_session_id _ _ _ _).1

theorem runtimeFromEvents_session_id {now : PyFloat} {first : SessionEvent}
    {rest : List SessionEvent} {b : Runtime}
    (h : runtimeFromEvents site now (first :: rest) = some b) :
    b.snapshot.session_id = first.session_id := by
  rw [runtimeFromEvents, Option.some.injEq] at h
  rw [← h, replay_session_id]
  rfl

/-- The runtime agrees with what any restart makes of the events. -/
def Live (site : Site) (r : Runtime) (events : List SessionEvent) : Prop :=
  ∀ now, ∃ b, runtimeFromEvents site now (events.map SessionEvent.canonical) = some b ∧ r.Agrees b

theorem Live.sequence {r : Runtime} {events : List SessionEvent} (h : Live site r events) :
    0 ≤ r.snapshot.last_event_sequence := by
  obtain ⟨b, hb, hagrees⟩ := h (site.time 0)
  rw [hagrees.snapshot.last_event_sequence]
  exact (runtimeFromEvents_sequences hb).1

/-- **One more event.** The results are what the event restores. -/
theorem Live.appended {r r' : Runtime} {events : List SessionEvent} {event : SessionEvent}
    (h : Live site r events) (hsnapshot : r'.snapshot = r.snapshot.applyEvent event)
    (hevents : r'.events = r.events ++ [event])
    (hearliest : r'.earliest_sequence = r.earliest_sequence)
    (hresults : ∀ results, SameResults r.command_results results →
      SameResults r'.command_results (restoreCommandResult site results event.canonical))
    (hdeleted : r'.deleted = (r.deleted || decide (event.kind = "session_deleted"))) :
    Live site r' (events ++ [event]) := by
  intro now
  obtain ⟨b, hb, hagrees⟩ := h now
  refine ⟨b.replay site event.canonical, ?_, ?_⟩
  · rw [List.map_append]
    exact runtimeFromEvents_append site now event.canonical hb
  · exact {
      snapshot := hsnapshot ▸ hagrees.snapshot.applyEvent event
      updated_at := by
        rw [hsnapshot]
        rfl
      events := by
        rw [hevents, List.map_append, hagrees.events]
        change _ = (b.events ++ [event.canonical]).map SessionEvent.canonical
        rw [List.map_append, List.map_singleton, List.map_singleton,
          SessionEvent.canonical_canonical]
      command_results := hresults _ hagrees.command_results
      earliest_sequence := hearliest.trans hagrees.earliest_sequence
      deleted := by
        rw [hdeleted, hagrees.deleted]
        rfl }

theorem replay_earliest (site : Site) (events : List SessionEvent) (b : Runtime) :
    (events.foldl (Runtime.replay site) b).earliest_sequence = b.earliest_sequence := by
  induction events generalizing b with
  | nil => rfl
  | cons event events ih => exact ih _

theorem Live.earliest {r : Runtime} {events : List SessionEvent} (h : Live site r events)
    (hpos : ∀ e ∈ events, 0 < e.sequence) : r.earliest_sequence ≠ 0 := by
  obtain ⟨b, hb, hagrees⟩ := h (site.time 0)
  cases events with
  | nil => cases hb
  | cons first rest =>
      rw [List.map_cons, runtimeFromEvents, Option.some.injEq] at hb
      have hfirst : b.earliest_sequence = first.sequence := by
        rw [← hb, replay_earliest]
        rfl
      have hsequence := hpos first List.mem_cons_self
      rw [hagrees.earliest_sequence, hfirst]
      omega

theorem SameResults.restore {a b : List (String × CommandResult)} (h : SameResults a b)
    (event : SessionEvent) :
    SameResults (restoreCommandResult site a event) (restoreCommandResult site b event) := by
  unfold restoreCommandResult
  split
  · split
    · exact h.set _ rfl
    · exact h
  · exact h

theorem Runtime.Agrees.replay {a b : Runtime} {event : SessionEvent}
    (hevent : event.canonical = event) (hsnapshot : a.snapshot.Agrees b.snapshot)
    (hevents : a.events.map SessionEvent.canonical = b.events.map SessionEvent.canonical)
    (hresults : SameResults a.command_results b.command_results)
    (hearliest : a.earliest_sequence = b.earliest_sequence) (hdeleted : a.deleted = b.deleted) :
    (a.replay site event).Agrees (b.replay site event) where
  snapshot := by
    have happly := hsnapshot.applyEvent event
    rw [hevent] at happly
    exact happly
  updated_at := rfl
  events := by
    change (a.events ++ [event]).map _ = (b.events ++ [event]).map _
    rw [List.map_append, List.map_append, hevents]
  command_results := hresults.restore event
  earliest_sequence := hearliest
  deleted := by
    change (a.deleted || _) = (b.deleted || _)
    rw [hdeleted]

theorem fold_agrees {events : List SessionEvent} (hevents : ∀ e ∈ events, e.canonical = e) :
    ∀ {a b : Runtime}, a.Agrees b →
      (events.foldl (Runtime.replay site) a).Agrees (events.foldl (Runtime.replay site) b) := by
  induction events with
  | nil => exact fun h => h
  | cons event events ih =>
      intro a b h
      have hnext : (a.replay site event).Agrees (b.replay site event) :=
        .replay (hevents event List.mem_cons_self) h.snapshot h.events h.command_results
          h.earliest_sequence h.deleted
      exact ih (fun e he => hevents e (List.mem_cons_of_mem _ he)) hnext

/-- What is loaded from the log is what any restart makes of it. -/
theorem live_loaded {r : Runtime} {events : List SessionEvent} {now : PyFloat}
    (h : runtimeFromEvents site now (events.map SessionEvent.canonical) = some r) :
    Live site r events := by
  intro now'
  cases events with
  | nil => cases h
  | cons first rest =>
      rw [List.map_cons, runtimeFromEvents, Option.some.injEq] at h
      refine ⟨_, rfl, ?_⟩
      rw [← h, List.foldl_cons, List.foldl_cons]
      refine fold_agrees (fun e he => ?_) ?_
      · obtain ⟨e', -, rfl⟩ := List.mem_map.mp he
        exact e'.canonical_canonical
      · exact .replay first.canonical_canonical
          ⟨rfl, rfl, rfl, rfl, rfl, rfl, rfl, rfl, rfl, rfl, rfl, rfl, rfl, rfl, rfl⟩ rfl
          (fun _ => rfl) rfl rfl

/-! ## 4. The logs and the runtimes -/

/-- The events of a session. -/
def World.eventsOf (w : World) (session_id : String) : List SessionEvent :=
  w.published.filter (·.session_id = session_id)

/-- An identity that is the name of its log. -/
structure ProperId (session_id : String) : Prop where
  file : fileOf session_id = session_id
  safe : safeSessionId session_id = some session_id
  length : session_id.length ≤ 64000
  nonempty : session_id ≠ ""

/-- The logs hold what was published, and every runtime agrees with its log. -/
structure Consistent (site : Site) (w : World) : Prop where
  files : ∀ id, w.files id = if w.eventsOf id = [] then none else some (Files.lines (w.eventsOf id))
  legible : ∀ e ∈ w.published, e.Legible ∧ ProperId e.session_id
  live : ∀ id r, w.runtimes id = some r → r.snapshot.session_id = id ∧ Live site r (w.eventsOf id)

theorem Live.ne_nil {r : Runtime} {events : List SessionEvent} (h : Live site r events) :
    events ≠ [] := by
  obtain ⟨b, hb, -⟩ := h (site.time 0)
  intro hnil
  rw [hnil] at hb
  cases hb

theorem Consistent.proper {id : String} (h : Consistent site w) (hne : w.eventsOf id ≠ []) :
    ProperId id := by
  obtain ⟨e, he⟩ := List.exists_mem_of_ne_nil _ hne
  obtain ⟨hmem, hid⟩ := List.mem_filter.mp he
  have hproper := (h.legible e hmem).2
  rwa [of_decide_eq_true hid] at hproper

theorem Consistent.read {id : String} (h : Consistent site w) (hne : w.eventsOf id ≠ []) :
    w.files id = some (Files.lines (w.eventsOf id))
      ∧ iterEvents site.py (Files.lines (w.eventsOf id))
        = (w.eventsOf id).map SessionEvent.canonical := by
  refine ⟨(h.files id).trans (if_neg hne), iterEvents_lines site.py fun e he => ?_⟩
  exact (h.legible e (List.mem_filter.mp he).1).1

theorem Consistent.of_eq {w' : World} (h : Consistent site w) (hfiles : w'.files = w.files)
    (hpublished : w'.published = w.published)
    (hlive : ∀ id r, w'.runtimes id = some r →
      r.snapshot.session_id = id ∧ Live site r (w.eventsOf id)) : Consistent site w' := by
  have hevents : ∀ id, w'.eventsOf id = w.eventsOf id := fun id => by
    rw [World.eventsOf, hpublished, World.eventsOf]
  refine ⟨fun id => ?_, ?_, fun id r hr => ?_⟩
  · rw [hfiles, hevents, h.files]
  · rw [hpublished]
    exact h.legible
  · rw [hevents]
    exact hlive id r hr

theorem Consistent.drawn (h : Consistent site w) : Consistent site w.drawn :=
  h.of_eq rfl rfl h.live

theorem Consistent.setRuntime {id : String} {r : Runtime} (h : Consistent site w)
    (hid : r.snapshot.session_id = id) (hlive : Live site r (w.eventsOf id)) :
    Consistent site (w.setRuntime id r) := by
  refine h.of_eq rfl rfl fun id' r' hr' => ?_
  change Function.update w.runtimes id (some r) id' = some r' at hr'
  by_cases heq : id' = id
  · subst heq
    rw [Function.update_self, Option.some.injEq] at hr'
    exact hr' ▸ ⟨hid, hlive⟩
  · rw [Function.update_of_ne heq] at hr'
    exact h.live id' r' hr'

/-- **Materialising a session.** -/
theorem Consistent.ensureRuntime {id : String} {r : Runtime} {w' : World}
    (h : Consistent site w) (hid : fileOf id = id)
    (hensure : w.ensureRuntime site id = (w', .ok r)) :
    Consistent site w' ∧ w'.files = w.files ∧ w'.published = w.published
      ∧ w'.runtimes id = some r ∧ w.draws ≤ w'.draws ∧ w'.draws ≤ w.draws + 1 := by
  unfold World.ensureRuntime at hensure
  cases hr : w.runtimes id with
  | some r' =>
      rw [hr] at hensure
      cases hensure
      exact ⟨h, rfl, rfl, hr, le_rfl, Nat.le_succ _⟩
  | none =>
      rw [hr] at hensure
      dsimp only at hensure
      split at hensure
      · cases hensure
      · rename_i name hname
        have hfile : name = id := by
          have hsafe : name = fileOf id := by
            unfold safeSessionId at hname
            dsimp only at hname
            split at hname
            · cases hname
            · exact (Option.some.inj hname).symm
          rw [hsafe, hid]
        subst hfile
        split at hensure
        · cases hensure
        · rename_i text htext
          have hne : w.eventsOf name ≠ [] := by
            intro hnil
            rw [h.files, if_pos hnil] at htext
            cases htext
          obtain ⟨hread, hevents⟩ := h.read hne
          rw [hread, Option.some.injEq] at htext
          subst htext
          rw [hevents] at hensure
          split at hensure
          · cases hensure
          · rename_i runtime hruntime
            cases hensure
            have hsession : r.snapshot.session_id = name := by
              obtain ⟨first, rest, hfirst⟩ := List.exists_cons_of_ne_nil hne
              rw [hfirst, List.map_cons] at hruntime
              rw [runtimeFromEvents_session_id hruntime]
              have hmem : first ∈ w.eventsOf name := hfirst ▸ List.mem_cons_self
              exact of_decide_eq_true (List.mem_filter.mp hmem).2
            refine ⟨h.drawn.setRuntime hsession (live_loaded hruntime), rfl, rfl, ?_,
              Nat.le_succ _, le_rfl⟩
            exact Function.update_self _ _ _

/-- A publication whose event the log keeps and gives back. -/
structure Publication.Kept (p : Publication) : Prop where
  durable : p.durability = .durable
  source : p.source ≠ ""
  kind : p.kind ≠ ""
  visibility : p.visibility ≠ ""

theorem Publication.legible {p : Publication} {r : Runtime} {draw : Nat} (h : p.Kept)
    (hid : ProperId r.snapshot.session_id) (hsequence : 0 ≤ r.snapshot.last_event_sequence) :
    (p.event site r draw).Legible where
  named := {
    event_id := by
      intro heq
      have hlength := congrArg String.length heq
      simp [Publication.event] at hlength
    session_id := hid.nonempty
    source := h.source
    kind := h.kind
    visibility := h.visibility }
  sequence := Int.lt_add_one_of_le hsequence

theorem eventsOf_published {event : SessionEvent} {w' : World}
    (h : w'.published = w.published ++ [event]) (id : String) :
    w'.eventsOf id = w.eventsOf id ++ if event.session_id = id then [event] else [] := by
  rw [World.eventsOf, h, List.filter_append, World.eventsOf]
  by_cases hid : event.session_id = id
  · simp [hid]
  · simp [hid]

/-- **An event in the log and in the runtime.** -/
theorem Consistent.append {id : String} {r r' : Runtime} {p : Publication} (h : Consistent site w)
    (hproper : ProperId id) (hr : r.snapshot.session_id = id) (hp : p.Kept)
    (hsequence : 0 ≤ r.snapshot.last_event_sequence) (hr' : r'.snapshot.session_id = id)
    (hlive : Live site r' (w.eventsOf id ++ [p.event site r w.draws])) :
    Consistent site ((w.appendLocked site id r p).1.setRuntime id r') := by
  have hevent : (p.event site r w.draws).session_id = id := hr
  have hevents : ∀ id', ((w.appendLocked site id r p).1.setRuntime id r').eventsOf id'
      = w.eventsOf id' ++ if (p.event site r w.draws).session_id = id' then
        [p.event site r w.draws] else [] := fun id' => eventsOf_published rfl id'
  have hfiles : ((w.appendLocked site id r p).1.setRuntime id r').files
      = w.files.append (p.event site r w.draws) := if_pos hp.durable
  have hname : fileOf (p.event site r w.draws).session_id = id := by
    rw [hevent]
    exact hproper.file
  refine ⟨fun id' => ?_, fun e he => ?_, fun id' r'' hr'' => ?_⟩
  · rw [hfiles, hevents id', hevent, Files.append, hname]
    by_cases hid : id' = id
    · subst hid
      rw [Function.update_self, if_pos rfl, if_neg (by simp), h.files]
      split
      · rename_i hnil
        rw [hnil]
        simp [Files.lines]
      · simp [Files.lines]
    · rw [Function.update_of_ne hid, if_neg (Ne.symm hid), List.append_nil, h.files]
  · have hmem : e ∈ w.published ++ [p.event site r w.draws] := he
    rcases List.mem_append.mp hmem with he | he
    · exact h.legible e he
    · rw [List.mem_singleton.mp he]
      rw [← hr] at hproper
      exact ⟨Publication.legible hp hproper hsequence, hproper⟩
  · rw [hevents id', hevent]
    change Function.update (Function.update w.runtimes id _) id (some r') id' = some r'' at hr''
    by_cases hid : id' = id
    · subst hid
      rw [Function.update_self, Option.some.injEq] at hr''
      rw [if_pos rfl, ← hr'']
      exact ⟨hr', hlive⟩
    · rw [Function.update_of_ne hid, Function.update_of_ne hid] at hr''
      rw [if_neg (Ne.symm hid), List.append_nil]
      exact h.live id' r'' hr''

theorem setRuntime_appendLocked (id : String) (r : Runtime) (p : Publication) :
    (w.appendLocked site id r p).1.setRuntime id (w.appendLocked site id r p).2
      = (w.appendLocked site id r p).1 := by
  simp [World.appendLocked, World.setRuntime]

/-- What the event of a kind restores besides the snapshot. -/
structure Restores (site : Site) (event : SessionEvent) (r r' : Runtime) : Prop where
  results : ∀ results, SameResults r.command_results results →
    SameResults r'.command_results (restoreCommandResult site results event.canonical)
  deleted : r'.deleted = (r.deleted || decide (event.kind = "session_deleted"))

theorem Consistent.appendLocked {id : String} {r r' : Runtime} {p : Publication}
    (h : Consistent site w) (hr : w.runtimes id = some r) (hp : p.Kept)
    (hsnapshot : r'.snapshot = (r.appended (p.event site r w.draws)).snapshot)
    (hevents : r'.events = r.events ++ [p.event site r w.draws])
    (hearliest : r'.earliest_sequence = (r.appended (p.event site r w.draws)).earliest_sequence)
    (hrestores : Restores site (p.event site r w.draws) r r') {r₀ : Runtime}
    (hr₀ : p.event site r₀ w.draws = p.event site r w.draws) :
    Consistent site ((w.appendLocked site id r₀ p).1.setRuntime id r') := by
  obtain ⟨hsession, hlive⟩ := h.live id r hr
  have hproper := h.proper hlive.ne_nil
  have hpositive : ∀ e ∈ w.eventsOf id, 0 < e.sequence := fun e he =>
    (h.legible e (List.mem_filter.mp he).1).1.sequence
  have hkept : r'.earliest_sequence = r.earliest_sequence :=
    hearliest.trans (if_neg (hlive.earliest hpositive))
  have hid : r'.snapshot.session_id = id := by
    rw [hsnapshot]
    exact (SessionSnapshot.applyKind_session_id _ _ _ _).1.trans hsession
  have hsession₀ : r₀.snapshot.session_id = id := by
    have heq := congrArg SessionEvent.session_id hr₀
    exact heq.trans hsession
  have hlast₀ : 0 ≤ r₀.snapshot.last_event_sequence := by
    have heq : r₀.snapshot.last_event_sequence + 1 = r.snapshot.last_event_sequence + 1 :=
      congrArg SessionEvent.sequence hr₀
    have hlast := hlive.sequence
    omega
  refine h.append hproper hsession₀ hp hlast₀ hid ?_
  rw [hr₀]
  exact hlive.appended hsnapshot hevents hkept hrestores.results hrestores.deleted

/-! ## 5. New sessions -/

/-- The letters of a session identity. -/
def idLetters : List Char := "sess_0123456789abcdef".toList

theorem freshSessionId_letters (site : Site) (n : Nat) :
    ∀ c ∈ (freshSessionId site n).toList, c ∈ idLetters := by
  intro c hc
  rw [freshSessionId, String.toList_append, List.mem_append] at hc
  have hsub : "sess_".toList.all (idLetters.contains ·) = true := by decide
  have hhex : "0123456789abcdef".toList.all (idLetters.contains ·) = true := by decide
  rw [List.all_eq_true] at hsub hhex
  rcases hc with hc | hc
  · exact List.contains_iff_mem.mp (hsub c hc)
  · exact List.contains_iff_mem.mp (hhex c (site.uuid_hex n c hc))

theorem strip_eq_self {l : List Char} (h : ∀ c ∈ l, isSpace c = false) : strip l = l := by
  have hdrop : l.dropWhile isSpace = l := by
    cases l with
    | nil => rfl
    | cons c l => rw [List.dropWhile_cons, if_neg (by simp [h c List.mem_cons_self])]
  rw [strip, hdrop, List.rdropWhile_eq_self_iff]
  intro hne
  simp [h _ (List.getLast_mem hne)]

theorem properId_fresh (site : Site) (n : Nat) : ProperId (freshSessionId site n) := by
  have hspace : idLetters.all (fun d => !isSpace d) = true := by decide
  have hslash : idLetters.contains '/' = false := by decide
  have hback : idLetters.contains '\\' = false := by decide
  simp only [List.all_eq_true, Bool.not_eq_true', List.contains_eq_mem, decide_eq_false_iff_not]
    at hspace hslash hback
  have hletters := freshSessionId_letters site n
  have hstrip : strip (freshSessionId site n).toList = (freshSessionId site n).toList :=
    strip_eq_self fun c hc => hspace c (hletters c hc)
  have hlength : (freshSessionId site n).length = 37 := by
    rw [freshSessionId, String.length_append, site.uuid_length]
    rfl
  have hlist : (freshSessionId site n).toList.length = 37 := by
    rw [String.length_toList, hlength]
  have hshort : ∀ l : List Char, l.length < 37 → (freshSessionId site n).toList ≠ l := by
    intro l hl heq
    rw [heq] at hlist
    omega
  refine ⟨?_, ?_, by rw [hlength]; omega, fun heq => hshort [] (by decide) (by rw [heq]; rfl)⟩
  · rw [fileOf, hstrip, String.ofList_toList]
  · unfold safeSessionId
    rw [hstrip]
    refine (if_neg ?_).trans (congrArg some String.ofList_toList)
    simp only [List.contains_iff_mem, not_or]
    exact ⟨hshort _ (by decide), hshort _ (by decide), hshort _ (by decide),
      fun h => hslash (hletters _ h), fun h => hback (hletters _ h)⟩

theorem getD_same {a b : Option Payload} (h : a.map Json.canonicalPairs = b.map Json.canonicalPairs) :
    SameDict (a.getD []) (b.getD []) := SessionSnapshot.getD_agrees h rfl

theorem initial_agrees {id root root' : String} {parent parent' : Option String}
    {caps caps' : List String} {now now' : PyFloat} {event : SessionEvent}
    (hkind : event.kind = "session_created")
    (hroot : (strOf? (event.payload.get "project_root")).isSome)
    (hcaps : (stringsOf? (event.payload.get "capabilities")).isSome)
    (hparent : (strOf? (event.payload.get "parent_session_id")).or parent
      = (strOf? (event.payload.get "parent_session_id")).or parent') :
    ((initialSnapshot site id root parent caps now).applyEvent event).Agrees
      ((initialSnapshot site id root' parent' caps' now').applyEvent event.canonical) := by
  have hp : SameDict event.payload event.canonical.payload := sameDict_canonical event.payload
  obtain ⟨r, hr⟩ := Option.isSome_iff_exists.mp hroot
  obtain ⟨c, hc⟩ := Option.isSome_iff_exists.mp hcaps
  have hcreated : ((initialSnapshot site id root parent caps now).sessionCreated event.payload).Agrees
      ((initialSnapshot site id root' parent' caps' now').sessionCreated event.canonical.payload) := by
    refine ⟨rfl, ?_, rfl, rfl, ?_, getD_same (hp.objOf? "workflow"), getD_same (hp.objOf? "agent"),
      rfl, rfl, rfl, rfl, rfl, rfl, ?_, rfl⟩
    · change (strOf? (event.payload.get "project_root")).getD _
        = (strOf? (event.canonical.payload.get "project_root")).getD _
      rw [← hp.strOf?, hr]
      rfl
    · change (strOf? (event.payload.get "parent_session_id")).or parent
        = (strOf? (event.canonical.payload.get "parent_session_id")).or parent'
      rw [← hp.strOf?, hparent]
    · change ((stringsOf? (event.payload.get "capabilities")).map sortedStrings).getD _
        = ((stringsOf? (event.canonical.payload.get "capabilities")).map sortedStrings).getD _
      rw [← hp.stringsOf?, hc]
      rfl
  have happly : ∀ (s : SessionSnapshot) (e : SessionEvent), e.kind = "session_created" →
      s.applyKind e.payload e.kind e.turn_id = s.sessionCreated e.payload := by
    intro s e he
    rw [SessionSnapshot.applyKind, if_pos he]
  rw [SessionSnapshot.applyEvent, SessionSnapshot.applyEvent, happly _ _ hkind,
    happly _ event.canonical hkind]
  exact { hcreated with last_event_sequence := rfl }

end Agenthicc.SessionService
