/-
Agenthicc.SessionService.RestartTheorems — any run of the service can be
restarted.

The operations on the service one by one: each keeps `Consistent`, so that in
every state a new service that reads the logs agrees with the live one. What
it takes is `Replayable`: the event is in the log, the log gives it back, and
redaction leaves alone what the live runtime takes unredacted.
-/
import Agenthicc.SessionService.ReplayTheorems

namespace Agenthicc.SessionService

open Python

variable {site : Site} {w : World}

/-! ## 1. What redaction leaves alone -/

/-- The keys that the service itself writes. -/
def plainKeys : List String :=
  ["project_root", "client_id", "capabilities", "agent", "workflow", "parent_session_id",
    "forked_from_sequence", "idempotency_key", "result", "ok", "command_id", "session_id", "code",
    "message", "data", "replayed", "accepted", "turn_id", "cancel_requested", "resolved", "state",
    "deleted", "snapshot"]

theorem isSensitive_plain {key : String} (h : key ∈ plainKeys) : isSensitive key = false := by
  have hall : plainKeys.all (fun key => !isSensitive key) = true := by decide
  rw [List.all_eq_true] at hall
  simpa using hall key h

theorem redactPairs_cons {key : String} (v : Json) (rest : Payload) (h : key ∈ plainKeys) :
    redactPairs ((key, v) :: rest) = (key, redact v) :: redactPairs rest := by
  rw [redactPairs, isSensitive_plain h]
  rfl

theorem redactPairs_nil : redactPairs [] = [] := by rw [redactPairs]

theorem bounded_of_le {s : String} (h : s.length ≤ 64000) : bounded s = s := if_neg (by omega)

theorem redact_str {s : String} (h : s.length ≤ 64000) : redact (.str s) = .str s := by
  rw [redact, bounded_of_le h]

theorem get_redactPairs {key : String} (h : key ∈ plainKeys) : ∀ payload : Payload,
    (redactPairs payload).get key = (payload.get key).map redact
  | [] => by
      rw [redactPairs]
      rfl
  | (k, v) :: rest => by
      have hrest := get_redactPairs h rest
      unfold Payload.get at hrest ⊢
      rw [redactPairs, Json.lookup, Json.lookup, hrest]
      cases hlookup : Json.lookup key rest with
      | some u => rfl
      | none =>
          by_cases hk : k = key
          · simp [hk, isSensitive_plain h]
          · simp [hk]

theorem redactPairs_single {key : String} {v : Json} (h : key ∈ plainKeys) (hv : redact v = v) :
    redactPairs [(key, v)] = [(key, v)] := by
  rw [redactPairs_cons v [] h, hv, redactPairs_nil]

/-! ## 2. New sessions -/

/-- The identities that the next operation may draw name no log. -/
def World.Mints (site : Site) (w : World) : Prop :=
  ∀ n < 3, w.files (freshSessionId site (w.draws + n)) = none

theorem eventsOf_fresh {id : String} (h : Consistent site w) (hid : w.files id = none) :
    w.eventsOf id = [] := by
  rw [h.files] at hid
  split at hid
  · assumption
  · cases hid

theorem live_first {r : Runtime} {event : SessionEvent}
    (h : ∀ now, r.Agrees ((startRuntime site event.canonical now).replay site event.canonical)) :
    Live site r [event] := fun now => ⟨_, rfl, h now⟩

/-- What both first events of a session have. -/
structure Publication.Creates (p : Publication) (parent : Option String) : Prop where
  kept : p.Kept
  kind : p.kind = "session_created"
  project_root : (strOf? ((redactPairs p.payload).get "project_root")).isSome
  capabilities : (stringsOf? ((redactPairs p.payload).get "capabilities")).isSome
  parent : strOf? ((redactPairs p.payload).get "parent_session_id") = none → parent = none

/-- **The first event of a session.** -/
theorem Consistent.created {id root : String} {parent : Option String} {caps : List String}
    {now : PyFloat} {p : Publication} {r' : Runtime} (h : Consistent site w)
    (hproper : ProperId id) (hnew : w.files id = none) (hp : p.Creates parent)
    (hr' : ∀ b : Runtime,
      ((emptyRuntime (initialSnapshot site id root parent caps now)).appended
        (p.event site (emptyRuntime (initialSnapshot site id root parent caps now)) w.draws)).Agrees b →
      r'.Agrees b) :
    Consistent site ((w.appendLocked site id
      (emptyRuntime (initialSnapshot site id root parent caps now)) p).1.setRuntime id r') := by
  generalize hr : emptyRuntime (initialSnapshot site id root parent caps now) = r at hr' ⊢
  have hsession : r.snapshot.session_id = id := by
    rw [← hr]
    rfl
  have hlast : r.snapshot.last_event_sequence = 0 := by
    rw [← hr]
    rfl
  have hagrees : ∀ now', r'.Agrees
      ((startRuntime site (p.event site r w.draws).canonical now').replay site
        (p.event site r w.draws).canonical) := by
    intro now'
    refine hr' _ ?_
    have hkind : (p.event site r w.draws).kind = "session_created" := hp.kind
    have hnone : ∀ results, restoreCommandResult site results (p.event site r w.draws).canonical
        = results := by
      intro results
      refine if_neg ?_
      change (p.event site r w.draws).kind ≠ _
      rw [hkind]
      decide
    refine {
      snapshot := ?_
      updated_at := rfl
      events := ?_
      command_results := ?_
      earliest_sequence := ?_
      deleted := ?_ }
    · rw [← hr]
      refine initial_agrees hp.kind hp.project_root hp.capabilities ?_
      have hsame : SameDict (redactPairs p.payload) (Json.canonicalPairs (redactPairs p.payload)) :=
        sameDict_canonical _
      change (strOf? ((redactPairs p.payload).get _)).or parent
        = (strOf? ((redactPairs p.payload).get _)).or
          (strOf? (Payload.get (Json.canonicalPairs (redactPairs p.payload)) _))
      rw [← hsame.strOf?]
      cases hparent : strOf? ((redactPairs p.payload).get "parent_session_id") with
      | none => rw [hp.parent hparent]
      | some s => rfl
    · rw [← hr]
      change [_] = [_]
      rw [SessionEvent.canonical_canonical]
    · change SameResults r.command_results (restoreCommandResult site _ _)
      rw [hnone, ← hr]
      exact fun _ => rfl
    · change (if r.earliest_sequence = 0 then _ else r.earliest_sequence)
        = r.snapshot.last_event_sequence + 1
      rw [hlast, ← hr]
      rfl
    · change r.deleted = (false || decide ((p.event site r w.draws).kind = "session_deleted"))
      rw [hkind, ← hr]
      rfl
  have hid' : r'.snapshot.session_id = id := by
    have hfirst := (hagrees now).snapshot.session_id
    rw [hfirst]
    exact (SessionSnapshot.applyKind_session_id _ _ _ _).1.trans hsession
  refine h.append hproper hsession hp.kept (le_of_eq hlast.symm) hid' ?_
  rw [eventsOf_fresh h hnew]
  exact live_first hagrees

theorem createSession_creates (n : NewSession) :
    (n.publication site).Creates n.parent_session_id where
  kept := {
    durable := rfl
    source := by simp [NewSession.publication]
    kind := by simp [NewSession.publication]
    visibility := by simp [NewSession.publication] }
  kind := rfl
  project_root := by
    rw [get_redactPairs (by decide)]
    change (strOf? (some (redact (.str _)))).isSome
    rw [redact]
    rfl
  capabilities := by
    rw [get_redactPairs (by decide)]
    change (stringsOf? (some (redact (.arr _)))).isSome
    rw [redact]
    rfl
  parent := by
    intro hnone
    rw [get_redactPairs (by decide)] at hnone
    have hget : (n.publication site).payload.get "parent_session_id"
        = some (Json.ofOptStr n.parent_session_id) := rfl
    rw [hget] at hnone
    cases hparent : n.parent_session_id with
    | none => rfl
    | some s => simp [hparent, Json.ofOptStr, redact, strOf?] at hnone

theorem createSession_agrees {n : NewSession} {event : SessionEvent} {r b : Runtime}
    (hkind : event.kind = "session_created") (hevent : event.payload = redactPairs (n.publication site).payload)
    (hagent : redactPairs n.agent = n.agent) (hworkflow : redactPairs n.workflow = n.workflow)
    (h : (r.appended event).Agrees b) :
    ({ r.appended event with snapshot := { (r.appended event).snapshot with
        agent := n.agent, workflow := n.workflow } } : Runtime).Agrees b := by
  have hcreated : (r.appended event).snapshot
      = { r.snapshot.sessionCreated event.payload with
          updated_at := event.occurred_at
          last_event_sequence := max r.snapshot.last_event_sequence event.sequence } := by
    change r.snapshot.applyEvent event = _
    rw [SessionSnapshot.applyEvent, SessionSnapshot.applyKind, if_pos hkind]
  have hobj : ∀ {key : String} {value : Payload}, key ∈ plainKeys → redactPairs value = value →
      (n.publication site).payload.get key = some (.obj value) →
      objOf? (event.payload.get key) = some value := by
    intro key value hkey hvalue hget
    rw [hevent, get_redactPairs hkey, hget, Option.map_some, redact, hvalue]
    rfl
  have hagent' : (r.appended event).snapshot.agent = n.agent := by
    rw [hcreated]
    change (objOf? (event.payload.get "agent")).getD _ = _
    rw [hobj (by decide) hagent rfl]
    rfl
  have hworkflow' : (r.appended event).snapshot.workflow = n.workflow := by
    rw [hcreated]
    change (objOf? (event.payload.get "workflow")).getD _ = _
    rw [hobj (by decide) hworkflow rfl]
    rfl
  rw [← hagent', ← hworkflow']
  exact h

/-- **A created session.** -/
theorem Consistent.createSession {n : NewSession} (h : Consistent site w) (hmints : w.Mints site)
    (hagent : redactPairs n.agent = n.agent) (hworkflow : redactPairs n.workflow = n.workflow) :
    Consistent site (w.createSession site n).1 := by
  unfold World.createSession
  split
  · exact h
  · refine h.drawn.created (properId_fresh site _) (hmints 0 (by decide))
      (createSession_creates n) fun b hb => ?_
    exact createSession_agrees rfl rfl hagent hworkflow hb

/-! ## 3. Commands -/

theorem fork_creates (c : SessionCommand) (runtime : Runtime) :
    (c.forked runtime).Creates (some runtime.snapshot.session_id) where
  kept := {
    durable := rfl
    source := by simp [SessionCommand.forked]
    kind := by simp [SessionCommand.forked]
    visibility := by simp [SessionCommand.forked] }
  kind := rfl
  project_root := by
    rw [get_redactPairs (by decide)]
    change (strOf? (some (redact (.str _)))).isSome
    rw [redact]
    rfl
  capabilities := by
    rw [get_redactPairs (by decide)]
    change (stringsOf? (some (redact (.arr _)))).isSome
    rw [redact]
    rfl
  parent := by
    intro hnone
    rw [get_redactPairs (by decide)] at hnone
    change strOf? (some (redact (.str _))) = none at hnone
    rw [redact] at hnone
    cases hnone

/-- **A forked session.** -/
theorem Consistent.forkLocked {c : SessionCommand} {runtime : Runtime} (h : Consistent site w)
    (hnew : w.files (freshSessionId site w.draws) = none) :
    Consistent site (w.forkLocked site c runtime).1 := by
  unfold World.forkLocked
  dsimp only
  rw [← setRuntime_appendLocked]
  exact h.drawn.created (properId_fresh site _) hnew (fork_creates c runtime) fun _ hb => hb

/-- What `carryOut` and `record` rely on. -/
def Effect.Sound : Effect → Prop
  | .nothing data => redactPairs data = data
  | .event p data deletes => p.Kept ∧ p.kind ≠ "command_accepted"
      ∧ deletes = decide (p.kind = "session_deleted") ∧ ∀ s, redactPairs (data s) = data s
  | .fork => True

theorem effect_ite {c : Prop} [Decidable c] {x y : Except Raised Effect} {P : Effect → Prop}
    (hx : ∀ e, x = .ok e → P e) (hy : ∀ e, y = .ok e → P e) : ∀ e, (if c then x else y) = .ok e → P e := by
  split
  · exact hx
  · exact hy

/-- The snapshot that an attaching client gets has nothing to redact. -/
def SessionCommand.ShowsPlain (site : Site) (c : SessionCommand) (runtime : Runtime) : Prop :=
  c.kind = "attach" → ∀ s, projectSnapshot site runtime.snapshot c.capabilities = .ok s →
    redactPairs s.toDict = s.toDict

theorem redact_bool (b : Bool) : redact (.bool b) = .bool b := by rw [redact]

theorem state_value_short (state : SessionState) : state.value.length ≤ 64000 := by
  cases state <;> decide

theorem effect_sound {c : SessionCommand} {runtime : Runtime} {digits : String}
    (hdigits : digits.length = 32) (hshows : c.ShowsPlain site runtime) :
    ∀ e, c.effect site runtime digits = .ok e → e.Sound := by
  have hevent : ∀ (p : Publication) (data : SessionSnapshot → Payload) (deletes : Bool),
      (p.Kept ∧ p.kind ≠ "command_accepted" ∧ deletes = decide (p.kind = "session_deleted")) →
      (∀ s, redactPairs (data s) = data s) →
      ∀ e, (Except.ok (Effect.event p data deletes) : Except Raised Effect) = .ok e → e.Sound := by
    intro p data deletes hp hdata e he
    cases he
    exact ⟨hp.1, hp.2.1, hp.2.2, hdata⟩
  have hraised : ∀ (r : Raised) (e : Effect), (Except.error r : Except Raised Effect) = .ok e → e.Sound :=
    fun _ _ h => nomatch h
  have hplain : ∀ (kind : String) (payload : Payload) (turn_id : Option String) (deletes : Bool),
      kind ≠ "" → kind ≠ "command_accepted" → deletes = decide (kind = "session_deleted") →
      let p : Publication := { kind := kind, payload := payload, turn_id := turn_id }
      p.Kept ∧ p.kind ≠ "command_accepted" ∧ deletes = decide (p.kind = "session_deleted") :=
    fun kind _ _ _ hne haccepted hdeletes => ⟨⟨rfl, by simp, hne, by simp⟩, haccepted, hdeletes⟩
  have hturn : redact (.str ("turn_" ++ digits)) = .str ("turn_" ++ digits) := by
    refine redact_str ?_
    rw [String.length_append, hdigits]
    decide
  have hstate : ∀ s : SessionSnapshot, redactPairs [("state", .str s.state.value)]
      = [("state", .str s.state.value)] := fun s =>
    redactPairs_single (by decide) (redact_str (state_value_short s.state))
  unfold SessionCommand.effect
  by_cases hattach : c.kind = "attach"
  · rw [if_pos hattach]
    intro e he
    cases hsnapshot : projectSnapshot site runtime.snapshot c.capabilities with
    | error raised =>
        rw [hsnapshot] at he
        cases he
    | ok s =>
        rw [hsnapshot] at he
        cases he
        refine redactPairs_single (by decide) ?_
        rw [redact, hshows hattach s hsnapshot]
  rw [if_neg hattach]
  refine effect_ite ?_ (effect_ite ?_ (effect_ite ?_ (effect_ite ?_ (effect_ite ?_ (effect_ite ?_
    (effect_ite ?_ (effect_ite ?_ (effect_ite ?_ ?_))))))))
  · split
    · refine effect_ite (hraised _) (hevent _ _ _ (hplain _ _ _ _ (by decide) (by decide) (by decide))
        fun s => ?_)
      rw [redactPairs_cons _ _ (by decide), redact_bool, redactPairs_single (by decide) hturn]
    · exact hraised _
  · exact hevent _ _ _ (hplain _ _ _ _ (by decide) (by decide) (by decide))
      fun s => redactPairs_single (by decide) (redact_bool _)
  · exact hevent _ _ _ (hplain _ _ _ _ (by decide) (by decide) (by decide))
      fun s => redactPairs_single (by decide) (redact_bool _)
  · exact hevent _ _ _ (hplain _ _ _ _ (by decide) (by decide) (by decide))
      fun s => redactPairs_single (by decide) (redact_bool _)
  · exact hevent _ _ _ (hplain _ _ _ _ (by decide) (by decide) (by decide)) hstate
  · exact hevent _ _ _ (hplain _ _ _ _ (by decide) (by decide) (by decide)) hstate
  · exact hevent _ _ _ (hplain _ _ _ _ (by decide) (by decide) (by decide))
      fun s => redactPairs_single (by decide) (redact_str (by decide))
  · exact hevent _ _ _ (hplain _ _ _ _ (by decide) (by decide) (by decide))
      fun s => redactPairs_single (by decide) (redact_bool _)
  · intro e he
    cases he
    trivial
  · exact effect_ite (hevent _ _ _ (hplain _ _ _ _ (by decide) (by decide) (by decide))
      fun s => redactPairs_single (by decide) (redact_bool _)) (hraised _)

theorem Consistent.live_ne_fresh {key id : String} {r : Runtime} (h : Consistent site w)
    (hr : w.runtimes key = some r) (hnew : w.files id = none) : key ≠ id := by
  intro heq
  have hne := (h.live key r hr).2.ne_nil
  rw [heq] at hne
  exact hne (eventsOf_fresh h hnew)

/-- **What a command does to its session, or the session it forks.** -/
theorem Consistent.carryOut {key : String} {r : Runtime} {c : SessionCommand} {e : Effect}
    (h : Consistent site w) (hr : w.runtimes key = some r) (he : e.Sound)
    (hnew : w.files (freshSessionId site w.draws) = none) :
    Consistent site (w.carryOut site key r c e).1
      ∧ (w.carryOut site key r c e).1.runtimes key = some (w.carryOut site key r c e).2.1
      ∧ redactPairs (w.carryOut site key r c e).2.2 = (w.carryOut site key r c e).2.2 := by
  cases e with
  | nothing data => exact ⟨h, hr, he⟩
  | event p data deletes =>
      obtain ⟨hkept, haccepted, hdeletes, hdata⟩ := he
      refine ⟨?_, Function.update_self _ _ _, hdata _⟩
      have hrestores : Restores site (p.event site r w.draws) r
          { r.appended (p.event site r w.draws) with deleted := r.deleted || deletes } := {
        results := fun results hresults => by
          have hnone : restoreCommandResult site results (p.event site r w.draws).canonical
              = results := if_neg haccepted
          rw [hnone]
          exact hresults
        deleted := congrArg (r.deleted || ·) hdeletes }
      have hstep : Consistent site ((w.appendLocked site key r p).1.setRuntime key
          { r.appended (p.event site r w.draws) with deleted := r.deleted || deletes }) := by
        refine h.appendLocked hr hkept ?_ ?_ ?_ hrestores rfl
        · rfl
        · rfl
        · rfl
      exact hstep
  | fork =>
      refine ⟨h.forkLocked hnew, ?_, ?_⟩
      · exact (Function.update_of_ne (h.live_ne_fresh hr hnew) _ _).trans hr
      · exact redactPairs_single (by decide) (redact_str (properId_fresh site _).length)

theorem get_stored {key : String} (h : key ∈ plainKeys) (payload : Payload) :
    Payload.get (Json.canonicalPairs (redactPairs payload)) key
      = (payload.get key).map fun v => Json.canonical (redact v) := by
  unfold Payload.get
  rw [Json.lookup_canonicalPairs]
  change ((redactPairs payload).get key).map _ = _
  rw [get_redactPairs h, Option.map_map]
  rfl

theorem stored_str {s : String} (h : s.length ≤ 64000) :
    Json.canonical (redact (.str s)) = .str s := by
  rw [redact_str h, Json.canonical]

theorem restored_acceptance {c : SessionCommand} {data : Payload}
    (hkey : c.idempotency_key.length ≤ 64000) (hcommand : c.command_id.length ≤ 64000)
    (hsession : c.session_id.length ≤ 64000) (hdata : redactPairs data = data) :
    let result : CommandResult :=
      { ok := true, command_id := c.command_id, session_id := some c.session_id, data := data }
    ∃ r, restoredResult site (Json.canonicalPairs (redactPairs (c.acceptance result).payload))
        = some (c.idempotency_key, r) ∧ r.canonical = result.canonical := by
  intro result
  let stored : Payload := Json.canonicalPairs (redactPairs (c.acceptance result).payload)
  let inner : Payload := Json.canonicalPairs (redactPairs result.toDict)
  have hidempotency : stored.get "idempotency_key" = some (.str c.idempotency_key) := by
    change Payload.get (Json.canonicalPairs _) _ = _
    rw [get_stored (by decide)]
    exact congrArg some (stored_str hkey)
  have hresult : stored.get "result" = some (.obj inner) := by
    change Payload.get (Json.canonicalPairs _) _ = _
    rw [get_stored (by decide)]
    change some (Json.canonical (redact (.obj _))) = _
    rw [redact, Json.canonical]
  have hinner : ∀ {key : String} (v : Json), key ∈ plainKeys → result.toDict.get key = some v →
      inner.get key = some (Json.canonical (redact v)) := by
    intro key v hk hget
    change Payload.get (Json.canonicalPairs _) _ = _
    rw [get_stored hk, hget]
    rfl
  have hok : inner.get "ok" = some (.bool true) := by
    rw [hinner (.bool true) (by decide) rfl, redact_bool, Json.canonical]
  have hcode : inner.get "code" = some (.str "ok") := by
    rw [hinner (.str "ok") (by decide) rfl, stored_str (by decide)]
  have hmessage : inner.get "message" = some (.str "") := by
    rw [hinner (.str "") (by decide) rfl, stored_str (by decide)]
  have hid : inner.get "command_id" = some (.str c.command_id) := by
    rw [hinner (.str c.command_id) (by decide) rfl, stored_str hcommand]
  have hof : inner.get "session_id" = some (.str c.session_id) := by
    rw [hinner (.str c.session_id) (by decide) rfl, stored_str hsession]
  have hstored : inner.get "data" = some (.obj (Json.canonicalPairs data)) := by
    rw [hinner (.obj data) (by decide) rfl, redact, hdata, Json.canonical]
  refine ⟨{ result with data := Json.canonicalPairs data }, ?_, ?_⟩
  · change restoredResult site stored = _
    rw [restoredResult, hidempotency, hresult]
    dsimp only [strOf?, objOf?]
    rw [hok, hcode, hmessage, hid, hof, hstored]
    rfl
  · simp [CommandResult.canonical, result]

theorem restoreCommandResult_some {event : SessionEvent} {key : String} {r : CommandResult}
    (hkind : event.kind = "command_accepted") (h : restoredResult site event.payload = some (key, r))
    (results : List (String × CommandResult)) :
    restoreCommandResult site results event = assocSet key r results := by
  rw [restoreCommandResult, if_pos hkind, h]

theorem restoreCommandResult_none {event : SessionEvent}
    (h : restoredResult site event.payload = none) (results : List (String × CommandResult)) :
    restoreCommandResult site results event = results := by
  rw [restoreCommandResult, h, ite_self]

/-- **The record of an accepted command.** -/
theorem Consistent.record {key : String} {r : Runtime} {c : SessionCommand} {data : Payload}
    (h : Consistent site w) (hr : w.runtimes key = some r)
    (hkey : c.idempotency_key.length ≤ 64000) (hcommand : c.command_id.length ≤ 64000)
    (hsession : c.session_id.length ≤ 64000) (hdata : redactPairs data = data) :
    Consistent site (w.record site key r c
      { ok := true, command_id := c.command_id, session_id := some c.session_id, data := data }) := by
  obtain ⟨restored, hrestored, hcanonical⟩ :=
    @restored_acceptance site c data hkey hcommand hsession hdata
  unfold World.record
  dsimp only
  rw [← setRuntime_appendLocked]
  have hkept : ∀ result, (c.acceptance result).Kept := fun result => {
    durable := rfl
    source := by simp [SessionCommand.acceptance]
    kind := by simp [SessionCommand.acceptance]
    visibility := by simp [SessionCommand.acceptance] }
  refine h.appendLocked hr (hkept _) ?_ ?_ ?_ ⟨fun results hresults => ?_, ?_⟩ ?_
  · rfl
  · rfl
  · rfl
  · rw [restoreCommandResult_some rfl hrestored]
    exact hresults.set _ hcanonical.symm
  · change r.deleted = (r.deleted || decide ("command_accepted" = "session_deleted"))
    simp
  · rfl

/-! ## 4. Operations -/

/-- The runtime that serves a session, loaded from its log if need be. -/
def World.loaded (site : Site) (w : World) (session_id : String) : Option Runtime :=
  (w.ensureRuntime site session_id).2.toOption

/-- The command is carried out. -/
def SessionCommand.accepted (site : Site) (c : SessionCommand) (r : Runtime) : Bool :=
  (assocGet c.idempotency_key r.command_results).isNone
    && (c.admitted site c.session_id r).isOk && (c.effect site r "").isOk

/-- A command that leaves no more in memory than in the log. -/
structure SessionCommand.Replayable (site : Site) (w : World) (c : SessionCommand) (r : Runtime) :
    Prop where
  idempotency_key : c.idempotency_key.length ≤ 64000
  command_id : c.command_id.length ≤ 64000
  shows : c.ShowsPlain site r
  mints : w.Mints site

/-- A publication that leaves no more in memory than in the log. -/
structure Publication.Replayable (site : Site) (p : Publication) : Prop extends p.Kept where
  deletes : p.kind ≠ "session_deleted"
  accepts : p.kind = "command_accepted" →
    restoredResult site (Json.canonicalPairs (redactPairs p.payload)) = none

inductive Action where
  | createSession (n : NewSession)
  | submit (c : SessionCommand)
  | publish (session_id : String) (p : Publication)
  | close
  | restart

/-- One operation. What the cancelled turns of `close` publish are
publications of their own. -/
def World.step (site : Site) (w : World) : Action → World
  | .createSession n => (w.createSession site n).1
  | .submit c => (w.submit site c).1
  | .publish session_id p => (w.publish site session_id p).1
  | .close => w
  | .restart => w.restarted

/-- The condition on an operation. -/
def Replayable (site : Site) (w : World) : Action → Prop
  | .createSession n => "control" ∈ n.capabilities ∨ "admin" ∈ n.capabilities →
      w.Mints site ∧ redactPairs n.agent = n.agent ∧ redactPairs n.workflow = n.workflow
  | .submit c => ∀ r ∈ w.loaded site c.session_id, fileOf c.session_id = c.session_id
      ∧ (c.accepted site r = true → c.Replayable site w r)
  | .publish session_id p => ∀ r ∈ w.loaded site session_id, fileOf session_id = session_id
      ∧ (r.deleted = false → p.Replayable site)
  | .close => True
  | .restart => True

theorem ensureRuntime_error {id : String} {w' : World} {raised : Raised}
    (h : w.ensureRuntime site id = (w', .error raised)) : w' = w := by
  unfold World.ensureRuntime at h
  split at h
  · cases h
  · split at h
    · cases h
      rfl
    · split at h
      · cases h
        rfl
      · split at h
        · cases h
          rfl
        · cases h

theorem Consistent.publish {id : String} {p : Publication} (h : Consistent site w)
    (hok : Replayable site w (.publish id p)) : Consistent site (w.publish site id p).1 := by
  unfold World.publish
  cases hensure : w.ensureRuntime site id with
  | mk w' result =>
      cases result with
      | error raised =>
          rw [ensureRuntime_error hensure]
          exact h
      | ok r =>
          obtain ⟨hid, hp⟩ := hok r (by rw [World.loaded, hensure]; rfl)
          obtain ⟨h', hfiles, hpublished, hr, -, -⟩ := h.ensureRuntime hid hensure
          dsimp only
          split
          · exact h'
          · rename_i hdeleted
            obtain ⟨hkept, hdeletes, haccepts⟩ := hp (by simpa using hdeleted)
            have hrestores : Restores site (p.event site r w'.draws) r
                (r.appended (p.event site r w'.draws)) := {
              results := fun results hresults => by
                have hnone : restoreCommandResult site results
                    (p.event site r w'.draws).canonical = results := by
                  by_cases hkind : p.kind = "command_accepted"
                  · exact restoreCommandResult_none (haccepts hkind) results
                  · exact if_neg hkind
                rw [hnone]
                exact hresults
              deleted := by
                have hfalse : decide ((p.event site r w'.draws).kind = "session_deleted") = false :=
                  decide_eq_false hdeletes
                rw [hfalse, Bool.or_false]
                rfl }
            rw [← setRuntime_appendLocked]
            exact h'.appendLocked hr hkept rfl rfl rfl hrestores rfl

theorem isOk_ite {α : Type} {c : Prop} [Decidable c] {x y x' y' : Except Raised α}
    (hx : x.isOk = x'.isOk) (hy : y.isOk = y'.isOk) :
    (if c then x else y).isOk = (if c then x' else y').isOk := by
  split
  · exact hx
  · exact hy

theorem isOk_effect (c : SessionCommand) (r : Runtime) (digits : String) :
    (c.effect site r digits).isOk = (c.effect site r "").isOk := by
  unfold SessionCommand.effect
  refine isOk_ite rfl (isOk_ite ?_ rfl)
  split
  · exact isOk_ite rfl rfl
  · rfl

theorem Consistent.submit {c : SessionCommand} (h : Consistent site w)
    (hok : Replayable site w (.submit c)) : Consistent site (w.submit site c).1 := by
  unfold World.submit
  split
  · exact h
  cases hensure : w.ensureRuntime site c.session_id with
  | mk w' result =>
      cases result with
      | error raised =>
          rw [ensureRuntime_error hensure]
          exact h
      | ok r =>
          obtain ⟨hid, hc⟩ := hok r (by rw [World.loaded, hensure]; rfl)
          obtain ⟨h', hfiles, -, hr, hdraws⟩ := h.ensureRuntime hid hensure
          dsimp only
          cases hexisting : assocGet c.idempotency_key r.command_results with
          | some existing => exact h'
          | none =>
              dsimp only
              cases hadmitted : c.admitted site c.session_id r with
              | error raised => exact h'
              | ok u =>
                  cases heffect : c.effect site r (site.uuid w'.draws) with
                  | error raised => exact h'
                  | ok e =>
                      obtain ⟨hkey, hcommand, hshows, hmints⟩ := hc (by
                        rw [SessionCommand.accepted, hexisting, hadmitted, ← isOk_effect c r,
                          heffect]
                        rfl)
                      have hdigits := site.uuid_length w'.draws
                      have hsession : ProperId c.session_id :=
                        h'.proper (h'.live _ r hr).2.ne_nil
                      have hnew : w'.drawn.files (freshSessionId site w'.drawn.draws) = none := by
                        have hdrawn : ∃ n < 3, w'.draws + 1 = w.draws + n :=
                          ⟨w'.draws + 1 - w.draws, by omega, by omega⟩
                        obtain ⟨n, hn, heq⟩ := hdrawn
                        change w'.files (freshSessionId site (w'.draws + 1)) = none
                        rw [hfiles, heq]
                        exact hmints n hn
                      have hsound := effect_sound hdigits hshows e heffect
                      cases hcarry : w'.drawn.carryOut site c.session_id r c e with
                      | mk w₂ rest =>
                          obtain ⟨r₂, data⟩ := rest
                          have hcarried := h'.drawn.carryOut (c := c) hr hsound hnew
                          rw [hcarry] at hcarried
                          obtain ⟨h₂, hr₂, hdata⟩ := hcarried
                          have hrecord := h₂.record hr₂ hkey hcommand hsession.length hdata
                          simp only [bind, Except.bind, hcarry]
                          exact hrecord

instance (c : SessionCommand) (r : Runtime) : Decidable (c.ShowsPlain site r) :=
  decidable_of_iff (c.kind = "attach" →
      ∀ s ∈ (projectSnapshot site r.snapshot c.capabilities).toOption, redactPairs s.toDict = s.toDict) <| by
    cases hs : projectSnapshot site r.snapshot c.capabilities <;>
      simp [SessionCommand.ShowsPlain, hs, Except.toOption]

instance : Decidable (w.Mints site) := inferInstanceAs (Decidable (∀ n < 3, _))

instance (c : SessionCommand) (r : Runtime) : Decidable (c.Replayable site w r) :=
  decidable_of_iff (c.idempotency_key.length ≤ 64000 ∧ c.command_id.length ≤ 64000
      ∧ c.ShowsPlain site r ∧ w.Mints site)
    ⟨fun h => ⟨h.1, h.2.1, h.2.2.1, h.2.2.2⟩, fun h => ⟨h.1, h.2, h.3, h.4⟩⟩

instance (p : Publication) : Decidable p.Kept :=
  decidable_of_iff (p.durability = .durable ∧ p.source ≠ "" ∧ p.kind ≠ "" ∧ p.visibility ≠ "")
    ⟨fun h => ⟨h.1, h.2.1, h.2.2.1, h.2.2.2⟩, fun h => ⟨h.1, h.2, h.3, h.4⟩⟩

instance (p : Publication) : Decidable (p.Replayable site) :=
  decidable_of_iff (p.Kept ∧ p.kind ≠ "session_deleted" ∧ (p.kind = "command_accepted" →
      (restoredResult site (Json.canonicalPairs (redactPairs p.payload))).isNone))
    ⟨fun h => ⟨h.1, h.2.1, fun hkind => by simpa using h.2.2 hkind⟩,
      fun h => ⟨h.1, h.2, fun hkind => by simpa using h.3 hkind⟩⟩

instance (a : Action) : Decidable (Replayable site w a) :=
  match a with
  | .createSession _ => inferInstanceAs (Decidable (_ → _))
  | .submit c => inferInstanceAs (Decidable (∀ r ∈ w.loaded site c.session_id, _ ∧ _))
  | .publish id _ => inferInstanceAs (Decidable (∀ r ∈ w.loaded site id, _ ∧ _))
  | .close => inferInstanceAs (Decidable True)
  | .restart => inferInstanceAs (Decidable True)

theorem Consistent.step {a : Action} (h : Consistent site w) (hok : Replayable site w a) :
    Consistent site (w.step site a) := by
  cases a with
  | createSession n =>
      by_cases hcaps : "control" ∈ n.capabilities ∨ "admin" ∈ n.capabilities
      · obtain ⟨hmints, hagent, hworkflow⟩ := hok hcaps
        exact h.createSession hmints hagent hworkflow
      · have hraised : ∃ raised, requireCapability site n.capabilities "control" = .error raised := by
          rw [not_or] at hcaps
          exact ⟨_, if_pos hcaps⟩
        obtain ⟨raised, hraised⟩ := hraised
        have hsame : w.step site (.createSession n) = w := by
          change (w.createSession site n).1 = w
          unfold World.createSession
          rw [hraised]
        rw [hsame]
        exact h
  | submit c => exact h.submit hok
  | publish id p => exact h.publish hok
  | close => exact h
  | restart => exact h.of_eq rfl rfl fun _ _ hr => nomatch hr

theorem consistent_init (site : Site) : Consistent site {} where
  files _ := rfl
  legible _ he := nomatch he
  live _ _ hr := nomatch hr

/-! ## 5. Restarts -/

/-- What a service makes of a session that it has not loaded. -/
theorem Consistent.reloaded {id : String} {r : Runtime} (h : Consistent site w)
    (hr : w.runtimes id = some r) {w₂ : World} (hfiles : w₂.files = w.files)
    (hnone : w₂.runtimes id = none) : ∃ w' b, w₂.ensureRuntime site id = (w', .ok b) ∧ r.Agrees b := by
  obtain ⟨-, hlive⟩ := h.live id r hr
  obtain ⟨hread, hevents⟩ := h.read hlive.ne_nil
  obtain ⟨b, hb, hagrees⟩ := hlive (site.time w₂.draws)
  have hsafe := (h.proper hlive.ne_nil).safe
  refine ⟨w₂.drawn.setRuntime id b, b, ?_, hagrees⟩
  rw [← hfiles] at hread
  unfold World.ensureRuntime
  simp only [hnone, hsafe, hread, hevents, hb]

/-- The first publication of a service that has not loaded the session. -/
theorem Consistent.published_after {id : String} {p : Publication} {w₂ w' : World}
    {e : SessionEvent} (h : Consistent site w) (hfiles : w₂.files = w.files)
    (hnone : w₂.runtimes id = none) (hpublish : w₂.publish site id p = (w', .ok e)) :
    ∀ e' ∈ w.published, e'.session_id = e.session_id → e'.sequence < e.sequence := by
  intro e' he' hsession
  unfold World.publish at hpublish
  cases hensure : w₂.ensureRuntime site id with
  | mk w₃ result =>
      rw [hensure] at hpublish
      cases result with
      | error raised => cases hpublish
      | ok r =>
          dsimp only at hpublish
          split at hpublish
          · cases hpublish
          cases hpublish
          unfold World.ensureRuntime at hensure
          rw [hnone] at hensure
          dsimp only at hensure
          split at hensure
          · cases hensure
          rename_i name hname
          split at hensure
          · cases hensure
          rename_i text htext
          have hne : w.eventsOf name ≠ [] := by
            intro hnil
            rw [hfiles, h.files, if_pos hnil] at htext
            cases htext
          obtain ⟨hread, hevents⟩ := h.read hne
          rw [hfiles, hread, Option.some.injEq] at htext
          rw [← htext, hevents] at hensure
          split at hensure
          · cases hensure
          rename_i runtime hruntime
          cases hensure
          obtain ⟨first, rest, hfirst⟩ := List.exists_cons_of_ne_nil hne
          have hid : r.snapshot.session_id = name := by
            rw [hfirst, List.map_cons] at hruntime
            rw [runtimeFromEvents_session_id hruntime]
            have hmem : first ∈ w.eventsOf name := hfirst ▸ List.mem_cons_self
            exact of_decide_eq_true (List.mem_filter.mp hmem).2
          have hmem : e'.canonical ∈ (w.eventsOf name).map SessionEvent.canonical := by
            refine List.mem_map_of_mem (List.mem_filter.mpr ⟨he', decide_eq_true ?_⟩)
            exact hsession.trans hid
          have hlast := (runtimeFromEvents_sequences hruntime).2 _ hmem
          exact Int.lt_add_one_of_le hlast

/-- A service that starts on the logs now agrees with this one, and numbers
its next event above everything that was shown. -/
structure RestartAgrees (site : Site) (w : World) : Prop where
  rebuilt : ∀ id r, w.runtimes id = some r →
    ∃ w' b, w.restarted.ensureRuntime site id = (w', .ok b) ∧ r.Agrees b
  fresh : ∀ id p w' e, w.restarted.publish site id p = (w', .ok e) →
    ∀ e' ∈ w.published, e'.session_id = e.session_id → e'.sequence < e.sequence

theorem Consistent.restartAgrees (h : Consistent site w) : RestartAgrees site w where
  rebuilt _ _ hr := h.reloaded hr rfl rfl
  fresh _ _ _ _ hpublish := h.published_after (by rfl) (by rfl) hpublish

/-- **A restarted service agrees with the live one** in every state of every
run whose operations are replayable. -/
theorem restart_agrees (site : Site) (actions : List Action)
    (h : Runs.RunOk (World.step site) (Replayable site) {} actions) (k : Nat) :
    RestartAgrees site ((actions.take k).foldl (World.step site) {}) :=
  (h.invariant (fun _ _ hinv hok => hinv.step hok) (consistent_init site) k).restartAgrees

/-! ## 6. Sample runs -/

/-- The first session of the sample site. -/
def sampleId : String := freshSessionId sampleSite 0

def sampleCommand (kind : String) (payload : Payload) : SessionCommand where
  kind := kind
  session_id := sampleId
  command_id := "c1"
  idempotency_key := "k1"
  payload := payload

/-- A session with one turn, and a restart. -/
def sampleTurn : List Action :=
  [.createSession {}, .submit (sampleCommand "submit_message" [("text", .str "hello")]),
    .publish sampleId { kind := "turn_started" }, .restart]

theorem restart_agrees_turn :
    RestartAgrees sampleSite ((sampleTurn.take 3).foldl (World.step sampleSite) {}) :=
  restart_agrees sampleSite sampleTurn (by decide) 3

theorem publish_loaded {id : String} {r : Runtime} {p : Publication} (hr : w.runtimes id = some r)
    (hdeleted : r.deleted = false) :
    w.publish site id p = ((w.appendLocked site id r p).1, .ok (p.event site r w.draws)) := by
  unfold World.publish World.ensureRuntime
  simp [hr, hdeleted]

/-- An event without a record takes a number that a restart gives again. -/
theorem not_restartAgrees_ephemeral : ¬ ∀ (site : Site) (actions : List Action),
    RestartAgrees site (actions.foldl (World.step site) {}) := by
  intro hall
  let created := World.step sampleSite {} (.createSession {})
  let shown : Publication := { kind := "text_delta", durability := .ephemeral }
  let kept : Publication := { kind := "turn_started" }
  have hcreated : Consistent sampleSite created := (consistent_init _).step (by decide)
  obtain ⟨r, hr⟩ : ∃ r, created.runtimes sampleId = some r :=
    Option.isSome_iff_exists.mp (by decide)
  have hfacts : (created.runtimes sampleId).map
      (fun r => (r.deleted, r.snapshot.last_event_sequence, r.snapshot.session_id))
      = some (false, 1, sampleId) := by decide
  rw [hr, Option.map_some, Option.some.injEq, Prod.mk.injEq, Prod.mk.injEq] at hfacts
  obtain ⟨hdeleted, hlast, hid⟩ := hfacts
  let after := World.step sampleSite created (.publish sampleId shown)
  have hafter : after = (created.appendLocked sampleSite sampleId r shown).1 :=
    congrArg Prod.fst (publish_loaded hr hdeleted)
  have hfiles : after.restarted.files = created.files := by
    rw [hafter]
    rfl
  obtain ⟨w', b, hensure, hagrees⟩ := hcreated.reloaded hr hfiles (by rfl)
  have hpublish : after.restarted.publish sampleSite sampleId kept
      = ((w'.appendLocked sampleSite sampleId b kept).1, .ok (kept.event sampleSite b w'.draws)) := by
    unfold World.publish
    rw [hensure]
    simp [← hagrees.deleted, hdeleted]
  have hshown : shown.event sampleSite r created.draws ∈ after.published := by
    rw [hafter]
    exact List.mem_append_right _ List.mem_cons_self
  have hagain := (hall sampleSite [.createSession {}, .publish sampleId shown]).fresh _ _ _ _
    hpublish _ hshown (hagrees.snapshot.session_id)
  change r.snapshot.last_event_sequence + 1 < b.snapshot.last_event_sequence + 1 at hagain
  rw [hagrees.snapshot.last_event_sequence] at hagain
  omega

end Agenthicc.SessionService
