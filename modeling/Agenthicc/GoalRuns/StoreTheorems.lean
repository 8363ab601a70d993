/-
Agenthicc.GoalRuns.StoreTheorems — what the fold makes of an appended event.

`evolve` overlays the mapping of a run, so everything is about what the
overlaid mapping answers. `evolve_serialized` is the replay of an update: the
serialized record gives the record that was serialized, with the agents the
run had and the clock of the fold. `withAgent_eq` is the same for an agent.
From them each writer has one lemma: behind a file of whole lines its event
folds to the record it returned.
-/
import Agenthicc.GoalRuns.Store

namespace Agenthicc.GoalRuns

open Python Background

/-! ## 1. `evolve` -/

namespace GoalRun

variable {r u : GoalRun} {now : Clock} {py : Interp} {changes : List (String × Json)}

@[simp] theorem touched_last_updated_at (r : GoalRun) (now : Clock) :
    (r.touched now).last_updated_at = now.time :=
  Record.set_value r RunField.last_updated_at now.time

@[simp] theorem withAgents_agents (r : GoalRun) (agents : List RunAgentRecord) :
    (r.withAgents agents).agents = agents :=
  Record.set_value r RunField.agents agents

@[simp] theorem touched_agents (r : GoalRun) (now : Clock) : (r.touched now).agents = r.agents :=
  Record.set_value_ne r _ (by decide : RunField.agents ≠ RunField.last_updated_at)

@[simp] theorem touched_touched (r : GoalRun) (now now' : Clock) :
    (r.touched now).touched now' = r.touched now' :=
  Record.set_set ..

@[simp] theorem withAgents_withAgents (r : GoalRun) (agents agents' : List RunAgentRecord) :
    (r.withAgents agents).withAgents agents' = r.withAgents agents' :=
  Record.set_set ..

theorem withAgents_touched (r : GoalRun) (agents : List RunAgentRecord) (now : Clock) :
    (r.touched now).withAgents agents = (r.withAgents agents).touched now :=
  Record.set_comm r _ _ (by decide : RunField.last_updated_at ≠ RunField.agents)

@[simp] theorem withAgents_self (r : GoalRun) : r.withAgents r.agents = r :=
  Record.set_eq_self.mpr rfl

/-- Where the time is the run's own already, nothing changes. -/
theorem touched_eq_self : r.touched now = r ↔ now.time = r.last_updated_at := Record.set_eq_self

theorem touched_normal (h : r.Normal) (now : Clock) : (r.touched now).Normal :=
  Record.set_normal h now.ne_zero rfl

theorem withAgents_normal {agents : List RunAgentRecord} (h : r.Normal)
    (ha : ∀ a ∈ agents, a.Normal) : (r.withAgents agents).Normal :=
  Record.set_normal h ha rfl

/-- The mapping that `evolve` reads the run back from. -/
def overlaid (r : GoalRun) (now : Clock) (changes : List (String × Json)) : List (String × Json) :=
  r.toDict ++ changes ++ [("last_updated_at", .float now.time)]

theorem lookup_overlaid (r : GoalRun) (now : Clock) (changes : List (String × Json)) (k : String) :
    Json.lookup k (r.overlaid now changes) =
      if k = "last_updated_at" then some (.float now.time)
      else (Json.lookup k changes).or (Json.lookup k r.toDict) := by
  rw [overlaid, Json.lookup_append, Json.lookup_append]
  by_cases h : k = "last_updated_at"
  · simp [Json.lookup, h]
  · simp [Json.lookup, h, Ne.symm h]

theorem not_mem_keys {k : String} {f : RunField} (h : k ≠ f.name) (h1 : f ≠ .worker_pid)
    (h2 : f ≠ .attention_reasons) : (k, f) ∉ runSchema.keys := by
  intro hmem
  have hall : ∀ e ∈ RunField.keys, e.2 ≠ .worker_pid → e.2 ≠ .attention_reasons →
      e.1 = e.2.name := by decide
  exact h (hall _ hmem h1 h2)

theorem lookup_touched (r : GoalRun) (now : Clock) {k : String} (h : k ≠ "last_updated_at") :
    Json.lookup k (r.touched now).toDict = Json.lookup k r.toDict :=
  Record.lookup_set r _ (not_mem_keys h (by decide) (by decide))

theorem lookup_withAgents (r : GoalRun) (agents : List RunAgentRecord) {k : String}
    (h : k ≠ "agents") : Json.lookup k (r.withAgents agents).toDict = Json.lookup k r.toDict :=
  Record.lookup_set r _ (not_mem_keys h (by decide) (by decide))

theorem lookup_last_updated_at (r : GoalRun) :
    Json.lookup "last_updated_at" r.toDict = some (.float r.last_updated_at) :=
  r.lookup_key (by decide : ("last_updated_at", RunField.last_updated_at) ∈ RunField.keys)

theorem lookup_agents (r : GoalRun) :
    Json.lookup "agents" r.toDict = some (Record.dumpAll r.agents) :=
  r.lookup_key (by decide : ("agents", RunField.agents) ∈ RunField.keys)

/-- `evolve` does not look at the time the run was updated last. -/
theorem evolve_touched (py : Interp) (now now' : Clock) (r : GoalRun)
    (changes : List (String × Json)) :
    (r.touched now').evolve py now changes = r.evolve py now changes := by
  have hcongr : Record.fromMapping runSchema py now ((r.touched now').overlaid now changes)
      = Record.fromMapping runSchema py now (r.overlaid now changes) := by
    refine Record.fromMapping_congr fun k => ?_
    rw [lookup_overlaid, lookup_overlaid]
    by_cases h : k = "last_updated_at"
    · rw [if_pos h, if_pos h]
    · rw [if_neg h, if_neg h, lookup_touched r now' h]
  unfold evolve
  rw [← overlaid, ← overlaid, hcongr]

/-- What `evolve` returns: a normal run with the time of the call and, where
the changes do not name them, the agents of the run. -/
theorem evolve_spec (hr : r.Normal) (h : r.evolve py now changes = .ok u) :
    u.Normal ∧ u.touched now = u ∧
      (Json.lookup "agents" changes = none → u.agents = r.agents) := by
  unfold evolve at h
  split at h
  · cases h
  rw [← overlaid] at h
  obtain ⟨-, -, v, hv, hval⟩ := Record.fromMapping_eq_ok.mp h
  refine ⟨Record.fromMapping_normal h, touched_eq_self.mpr ?_, fun hnone => ?_⟩
  · have hf : (runSchema.codec RunField.last_updated_at).read py now
        (Json.lookup "last_updated_at" (r.overlaid now changes))
          = .ok (v RunField.last_updated_at) := hv RunField.last_updated_at
    have hd := (runSchema.codec RunField.last_updated_at).read_dump py now now.ne_zero
    rw [lookup_overlaid, if_pos rfl] at hf
    rw [last_updated_at, hval]
    exact Except.ok.inj (hd.symm.trans hf)
  · have hf : (runSchema.codec RunField.agents).read py now
        (Json.lookup "agents" (r.overlaid now changes)) = .ok (v RunField.agents) :=
      hv RunField.agents
    have hd := (runSchema.codec RunField.agents).read_dump py now (hr.value RunField.agents)
    rw [lookup_overlaid, if_neg (by decide), hnone, Option.none_or, lookup_agents] at hf
    rw [agents, hval]
    exact Except.ok.inj (hf.symm.trans hd)

theorem lookup_toDictWithoutAgents (u : GoalRun) (k : String) :
    Json.lookup k u.toDictWithoutAgents
      = if k = "agents" then none else Json.lookup k u.toDict := by
  have h := Json.lookup_filter (fun key => decide (key ≠ "agents")) k u.toDict
  rw [toDictWithoutAgents, h]
  by_cases hk : k = "agents" <;> simp [hk]

/-- **Replay of an update**: the serialized run is read back, with the agents
of the run it is laid over and the time of the replay. -/
theorem evolve_serialized (py : Interp) (now : Clock) (hr : r.Normal) (hu : u.Normal) :
    r.evolve py now u.toDictWithoutAgents = .ok ((u.withAgents r.agents).touched now) := by
  have hself : Json.lookup "self" u.toDictWithoutAgents = none := by
    rw [lookup_toDictWithoutAgents, if_neg (by decide), Record.lookup_eq_none_iff]
    exact (by decide : "self" ∉ "run_id" :: RunField.keys.map Prod.fst)
  have hnormal : ((u.withAgents r.agents).touched now).Normal :=
    touched_normal (withAgents_normal hu (hr.value RunField.agents)) now
  have hcongr : Record.fromMapping runSchema py now (r.overlaid now u.toDictWithoutAgents)
      = Record.fromMapping runSchema py now ((u.withAgents r.agents).touched now).toDict := by
    refine Record.fromMapping_congr fun k => ?_
    rw [lookup_overlaid, lookup_toDictWithoutAgents]
    by_cases ht : k = "last_updated_at"
    · subst ht
      rw [if_pos rfl, lookup_last_updated_at, touched_last_updated_at]
    rw [if_neg ht, lookup_touched _ _ ht]
    by_cases ha : k = "agents"
    · subst ha
      rw [if_pos rfl, Option.none_or, lookup_agents, lookup_agents, withAgents_agents]
    · rw [if_neg ha, lookup_withAgents u r.agents ha, Record.lookup_or_toDict]
  unfold evolve
  rw [hself, if_neg (by decide), ← overlaid, hcongr, Record.fromMapping_toDict py now hnormal]

end GoalRun

/-! ## 2. Linking an agent -/

/-- What reading an agent's mapping gives for each of its fields. -/
theorem agentCodec_reads (f : AgentField) (x : f.Value) :
    ∃ y, ∀ py now, (AgentField.codec f).read py now (some ((AgentField.codec f).dump x)) = .ok y := by
  cases f with
  | started_at | completed_at | last_heartbeat_at | last_activity_at =>
    exact ⟨x, fun py now => Fields.timestamp.read_dump py now trivial⟩
  | _ => exact ⟨_, fun _ _ => rfl⟩

/-- An agent with an ID of its own is read back from its mapping, with the
texts cut to their limits. -/
theorem agent_reads {agent : RunAgentRecord} (hne : agent.id ≠ "") (hlen : agent.id.length ≤ 8000) :
    ∃ a : RunAgentRecord, a.id = agent.id ∧
      ∀ py now, Record.fromMapping agentSchema py now agent.toDict = .ok a := by
  have hid : idText (.str agent.id) = agent.id := strTake_eq_self.mpr hlen
  have hreads : ∀ f : AgentField, ∃ y, ∀ py now, (AgentField.codec f).read py now
      (some ((AgentField.codec f).dump (agent.value f))) = .ok y :=
    fun f => agentCodec_reads f (agent.value f)
  choose y hy using hreads
  refine ⟨⟨agent.id, AgentField.settle y⟩, rfl, fun py now => ?_⟩
  refine Record.fromMapping_eq_ok.mpr ⟨hne, ?_, y, fun f => ?_, rfl⟩
  · rw [Record.lookup_id_toDict, Option.getD_some, hid]
  · have hmapped := agentSchema.mapped_keys (.str agent.id)
      (fun g => (agentSchema.codec g).dump (agent.value g)) f
    rw [Record.toDict, Schema.pairs, hmapped]
    exact hy f py now

/-- An agent that is read back has the status it was given. -/
theorem status_of_reads {py : Interp} {now : Clock} {agent a : RunAgentRecord}
    (h : Record.fromMapping agentSchema py now agent.toDict = .ok a) :
    a.status = strTake 8000 agent.status := by
  obtain ⟨-, -, v, hv, hval⟩ := Record.fromMapping_eq_ok.mp h
  have hread := hv AgentField.status
  have hmapped := agentSchema.mapped_keys (.str agent.id)
    (fun g => (agentSchema.codec g).dump (agent.value g)) AgentField.status
  rw [Record.toDict, Schema.pairs, hmapped] at hread
  rw [RunAgentRecord.status, hval]
  exact (Except.ok.inj hread).symm

/-- The mappings of normal agents and of one more are read one by one. -/
theorem readAll_relinked (py : Interp) (now : Clock) {agent a : RunAgentRecord}
    (ha : Record.fromMapping agentSchema py now agent.toDict = .ok a) :
    ∀ {agents : List RunAgentRecord}, (∀ x ∈ agents, x.Normal) →
      Record.readAll agentSchema py now ((agents ++ [agent]).map fun r => .obj r.toDict)
        = .ok (agents ++ [a])
  | [], _ => by
      rw [List.nil_append, List.map_singleton, Record.readAll, ha]
      rfl
  | x :: xs, h => by
      have hx := Record.fromMapping_toDict py now (h x List.mem_cons_self)
      have ih := readAll_relinked py now ha fun z hz => h z (List.mem_cons_of_mem x hz)
      rw [List.cons_append, List.map_cons, Record.readAll, hx]
      simp only [ih]
      rfl

namespace GoalRun

variable {r u : GoalRun} {now : Clock} {py : Interp}

/-- The run with an agent linked at a time. -/
def linked (r : GoalRun) (a : RunAgentRecord) (now : Clock) : GoalRun :=
  (r.withAgents (relinked r.agents a)).touched now

theorem mapped_of_others {kvs kvs' : List (String × Json)}
    (h : ∀ k, k ≠ "agents" → Json.lookup k kvs = Json.lookup k kvs') {f : RunField}
    (hf : f ≠ .agents) : RunField.mapped kvs f = RunField.mapped kvs' f := by
  cases f with
  | agents => exact absurd rfl hf
  | worker_pid =>
    simp only [RunField.mapped, getEither, h "worker_pid" (by decide), h "pid" (by decide)]
  | attention_reasons =>
    simp only [RunField.mapped, getEither, h "attention_reasons" (by decide),
      h "attention" (by decide)]
  | _ =>
    refine h _ ?_
    decide

/-- **Linking**: the agent replaces the one of its ID and stands last. -/
theorem withAgent_eq {agent a : RunAgentRecord} (hr : r.Normal) (hid : a.id = agent.id)
    (ha : Record.fromMapping agentSchema py now agent.toDict = .ok a) :
    r.withAgent py now agent = .ok (r.linked a now) := by
  have hagents : ∀ x ∈ r.agents, x.Normal := hr.value RunField.agents
  have hfilter : ∀ x ∈ r.agents.filter (fun item => item.id ≠ agent.id), x.Normal :=
    fun x hx => hagents x (List.mem_of_mem_filter hx)
  have hrelinked : relinked r.agents a
      = r.agents.filter (fun item => item.id ≠ agent.id) ++ [a] := by rw [relinked, hid]
  have hanormal : ∀ x ∈ relinked r.agents a, x.Normal := by
    intro x hx
    rw [hrelinked] at hx
    rcases List.mem_append.mp hx with h | h
    · exact hfilter x h
    · rw [List.mem_singleton.mp h]
      exact Record.fromMapping_normal ha
  have hnormal : (r.linked a now).Normal := touched_normal (withAgents_normal hr hanormal) now
  have hself : Json.lookup "self" [("agents", Record.dumpAll (relinked r.agents agent))] = none := by
    simp [Json.lookup]
  have hother : ∀ k, k ≠ "agents" → Json.lookup k
      (r.overlaid now [("agents", Record.dumpAll (relinked r.agents agent))])
        = Json.lookup k (r.linked a now).toDict := by
    intro k hk
    rw [lookup_overlaid, linked]
    by_cases ht : k = "last_updated_at"
    · subst ht
      rw [if_pos rfl, lookup_last_updated_at, touched_last_updated_at]
    · rw [if_neg ht, lookup_touched _ _ ht, lookup_withAgents _ _ hk]
      simp [Json.lookup, Ne.symm hk]
  unfold withAgent evolve
  rw [hself, if_neg (by decide), ← overlaid]
  refine Record.fromMapping_eq_ok.mpr
    ⟨hnormal.id_ne, ?_, (r.linked a now).value, fun f => ?_, rfl⟩
  · have hlookup := hother "run_id" (by decide)
    have hrun := (r.linked a now).lookup_id_toDict
    have htext : idText (.str (r.linked a now).id) = (r.linked a now).id :=
      strTake_eq_self.mpr hnormal.id_length
    rw [show runSchema.idName = "run_id" from rfl] at hrun ⊢
    rw [hlookup, hrun, Option.getD_some, htext]
  · by_cases hf : f = RunField.agents
    · subst hf
      have hkey : Json.lookup "agents"
          (r.overlaid now [("agents", Record.dumpAll (relinked r.agents agent))])
            = some (Record.dumpAll (relinked r.agents agent)) := by
        rw [lookup_overlaid, if_neg (by decide)]
        simp [Json.lookup]
      have hread := readAll_relinked py now ha hfilter
      have hvalue : (r.linked a now).value RunField.agents = relinked r.agents a := by
        exact (touched_agents _ now).trans (withAgents_agents r _)
      have hmapped : runSchema.mapped (r.overlaid now
          [("agents", Record.dumpAll (relinked r.agents agent))]) RunField.agents
            = some (Record.dumpAll (relinked r.agents agent)) := hkey
      rw [hmapped, hvalue, hrelinked]
      exact hread
    · have hmapped : runSchema.mapped (r.overlaid now
          [("agents", Record.dumpAll (relinked r.agents agent))]) f
            = runSchema.mapped (r.linked a now).toDict f := mapped_of_others hother hf
      have hback := runSchema.mapped_keys (.str (r.linked a now).id)
        (fun g => (runSchema.codec g).dump ((r.linked a now).value g)) f
      rw [hmapped, Record.toDict, Schema.pairs, hback]
      exact (runSchema.codec f).read_dump py now (hnormal.value f)

theorem linked_touched (r : GoalRun) (a : RunAgentRecord) (now now' : Clock) :
    (r.touched now').linked a now = r.linked a now := by
  rw [linked, touched_agents, withAgents_touched, touched_touched, linked]

end GoalRun

/-! ## 3. The file behind an append -/

namespace RunStore

variable {py : Interp} {now : Clock} {text : List Char} {run_id : String} {r : GoalRun}

theorem read_append (rest : List Char) (h : WholeLines text) :
    read (text ++ rest) = read text ++ read rest := by
  rw [read, readLines_wholeLines rest h, List.filterMap_append]
  rfl

theorem read_compactLine (kvs : List (String × Json)) : read (compactLine (.obj kvs)) = [kvs] := by
  have h := readLines_compactLine kvs []
  rw [List.append_nil] at h
  rw [read, h]
  rfl

/-- An event appended behind whole lines is the next step of the fold. -/
theorem fold_append_line (py : Interp) (now now' : Clock) (kind : String)
    (payload : List (String × Json)) (h : WholeLines text) :
    fold py now' (text ++ line now text kind payload)
      = (fold py now' text).bind fun runs =>
          applyEvent py now' runs (record now (read text) kind payload) := by
  rw [fold, read_append _ h, line, read_compactLine, List.foldlM_append, fold]
  cases (read text).foldlM (applyEvent py now') Dict.empty with
  | error exc => rfl
  | ok runs =>
      change List.foldlM (applyEvent py now') runs [record now (read text) kind payload]
        = applyEvent py now' runs (record now (read text) kind payload)
      rw [List.foldlM_cons]
      cases applyEvent py now' runs (record now (read text) kind payload) <;> rfl

/-- An append that only lacks its line break is read like a whole one. -/
theorem read_unbroken {kvs : List (String × Json)} {p : List Char} (h : WholeLines text)
    (hp : p ++ ['\n'] = compactLine (.obj kvs)) :
    read (text ++ p) = read (text ++ compactLine (.obj kvs)) := by
  obtain rfl : p = compactDumps (.obj kvs) := List.append_cancel_right hp
  have hread : read (compactDumps (.obj kvs)) = [kvs] := by
    rw [read, readLines_compactDumps]
    rfl
  rw [read_append _ h, read_append _ h, read_compactLine, hread]

/-- **A cut append** is lost otherwise. -/
theorem read_cut {kvs : List (String × Json)} {p : List Char} (h : WholeLines text)
    (hp : p <+: compactLine (.obj kvs)) (hne : p ≠ compactLine (.obj kvs))
    (hcut : p ++ ['\n'] ≠ compactLine (.obj kvs)) : read (text ++ p) = read text := by
  rw [read_append _ h]
  rcases readLines_cut hp hne with hread | hread | ⟨rfl, -⟩
  · rw [read, read, hread]
    simp
  · rw [read, read, hread]
    simp
  · exact absurd rfl hcut

/-! ## 4. The run behind a write -/

/-- However late it is folded, the file holds the run, at one time or
another. -/
structure Stands (py : Interp) (text : List Char) (run_id : String) (r : GoalRun) : Prop where
  normal : r.Normal
  id_ne : run_id ≠ ""
  folds : ∀ now, ∃ runs then_, fold py now text = .ok runs ∧
    runs.get? run_id = some (r.touched then_)

/-- The file folds to the run, with the time of the fold. -/
structure Folds (py : Interp) (text : List Char) (run_id : String) (r : GoalRun) : Prop where
  normal : r.Normal
  id_ne : run_id ≠ ""
  folds : ∀ now, ∃ runs, fold py now text = .ok runs ∧ runs.get? run_id = some (r.touched now)

theorem Folds.stands (h : Folds py text run_id r) : Stands py text run_id r where
  normal := h.normal
  id_ne := h.id_ne
  folds now := by
    obtain ⟨runs, hfold, hget⟩ := h.folds now
    exact ⟨runs, now, hfold, hget⟩

theorem get_of_fold {runs : Runs} {run : GoalRun} (hfold : fold py now text = .ok runs)
    (hget : runs.get? run_id = some run) : get py now text run_id = .ok run := by
  simp only [RunStore.get, hfold, bind, Except.bind, hget]
  rfl

theorem Stands.get (h : Stands py text run_id r) (now : Clock) :
    ∃ then_, RunStore.get py now text run_id = .ok (r.touched then_) := by
  obtain ⟨runs, then_, hfold, hget⟩ := h.folds now
  exact ⟨then_, get_of_fold hfold hget⟩

theorem Folds.get (h : Folds py text run_id r) (now : Clock) :
    RunStore.get py now text run_id = .ok (r.touched now) := by
  obtain ⟨runs, hfold, hget⟩ := h.folds now
  exact get_of_fold hfold hget

/-- An event that its step turns into the run makes the file fold to it. -/
theorem folds_line {kind : String} {payload : List (String × Json)} {u : GoalRun}
    (h : Stands py text run_id r) (hw : WholeLines text) (hu : u.Normal)
    (hstep : ∀ now' runs then_, runs.get? run_id = some (r.touched then_) →
      applyEvent py now' runs (record now (read text) kind payload)
        = .ok (runs.set run_id (u.touched now'))) :
    Folds py (text ++ line now text kind payload) run_id u where
  normal := hu
  id_ne := h.id_ne
  folds now' := by
    obtain ⟨runs, then_, hfold, hget⟩ := h.folds now'
    refine ⟨runs.set run_id (u.touched now'), ?_, ?_⟩
    · rw [fold_append_line py now now' kind payload hw, hfold]
      exact hstep now' runs then_ hget
    · rw [Dict.get?_set, if_pos rfl]

/-- An event of a run that is there, by what its payload holds. -/
theorem applyEvent_run {runs : Runs} {kind : String} {payload : List (String × Json)}
    {prior : List (List (String × Json))} {current : GoalRun} (now' : Clock) (hne : run_id ≠ "")
    (hkind : kind ≠ "run_created") (hid : Json.lookup "run_id" payload = some (.str run_id))
    (hget : runs.get? run_id = some current) :
    applyEvent py now' runs (record now prior kind payload)
      = applyPayload py now' runs run_id kind payload current := by
  have hpayload : Json.lookup "payload" (record now prior kind payload) = some (.obj payload) := by
    simp [record, Json.lookup]
  have htype : Json.lookup "event_type" (record now prior kind payload) = some (.str kind) := by
    simp [record, Json.lookup]
  simp only [applyEvent, hpayload, htype, hid, hget, if_neg hne, if_neg hkind]

theorem update_folds {changes : List (String × Json)} {w : Written} (h : Stands py text run_id r)
    (hw : WholeLines text) (hok : update py now text run_id changes = .ok w)
    (hagents : Json.lookup "agents" changes = none) :
    w.run.touched now = w.run ∧ Folds py (text ++ w.line) run_id w.run := by
  obtain ⟨then_, hget⟩ := h.get now
  rw [update, hget] at hok
  obtain ⟨current, hcurrent, hok⟩ := bind_ok hok
  obtain ⟨u, hu, hw'⟩ := bind_ok hok
  cases hcurrent
  rw [GoalRun.evolve_touched] at hu
  obtain ⟨hnormal, htouched, hsame⟩ := GoalRun.evolve_spec h.normal hu
  cases hw'
  refine ⟨htouched, folds_line h hw hnormal fun now' runs then' hruns => ?_⟩
  have hchanges : Json.lookup "changes" [("run_id", .str run_id), ("changes",
      .obj u.toDictWithoutAgents)] = some (.obj u.toDictWithoutAgents) := by simp [Json.lookup]
  have hreplay := GoalRun.evolve_serialized py now' h.normal hnormal
  rw [← hsame hagents, GoalRun.withAgents_self] at hreplay
  rw [applyEvent_run now' h.id_ne (by decide) (by simp [Json.lookup]) hruns, applyPayload,
    if_pos rfl, hchanges]
  simp only [GoalRun.evolve_touched, hreplay]
  rfl

end RunStore

namespace RunStore

variable {py : Interp} {now : Clock} {text : List Char} {run_id : String} {r : GoalRun}

theorem linkAgent_eq {agent a : RunAgentRecord} (now : Clock) (h : Stands py text run_id r)
    (hid : a.id = agent.id)
    (hreads : ∀ py now, Record.fromMapping agentSchema py now agent.toDict = .ok a) :
    linkAgent py now text run_id agent = .ok ⟨line now text "agent_linked"
      [("run_id", .str run_id), ("agent", .obj agent.toDict)], r.linked a now⟩ := by
  obtain ⟨then_, hget⟩ := h.get now
  have hlinked := GoalRun.withAgent_eq (GoalRun.touched_normal h.normal then_) hid (hreads py now)
  rw [GoalRun.linked_touched] at hlinked
  simp only [linkAgent, hget, hlinked, bind, Except.bind]
  rfl

theorem linked_normal {a : RunAgentRecord} (hr : r.Normal) (ha : a.Normal) (now : Clock) :
    (r.linked a now).Normal := by
  have hwith := GoalRun.withAgent_eq hr rfl (Record.fromMapping_toDict plainInterp now ha)
  unfold GoalRun.withAgent at hwith
  exact (GoalRun.evolve_spec hr hwith).1

theorem linkAgent_folds {agent : RunAgentRecord} {w : Written} (h : Stands py text run_id r)
    (hw : WholeLines text) (hok : linkAgent py now text run_id agent = .ok w)
    (hne : agent.id ≠ "") (hlen : agent.id.length ≤ 8000) :
    w.run.touched now = w.run ∧ Folds py (text ++ w.line) run_id w.run := by
  obtain ⟨a, hid, hreads⟩ := agent_reads hne hlen
  have ha : a.Normal := Record.fromMapping_normal (hreads py now)
  rw [linkAgent_eq now h hid hreads] at hok
  cases hok
  refine ⟨GoalRun.touched_touched _ now now,
    folds_line h hw (linked_normal h.normal ha now) fun now' runs then' hruns => ?_⟩
  have hagent : Json.lookup "agent" [("run_id", .str run_id), ("agent", .obj agent.toDict)]
      = some (.obj agent.toDict) := by simp [Json.lookup]
  have hlinked : (r.touched then').withAgent py now' a = .ok (r.linked a now') := by
    rw [GoalRun.withAgent_eq (GoalRun.touched_normal h.normal then') rfl
      (Record.fromMapping_toDict py now' ha), GoalRun.linked_touched]
  rw [applyEvent_run now' h.id_ne (by decide) (by simp [Json.lookup]) hruns, applyPayload,
    if_neg (by decide), if_pos rfl, hagent]
  simp only [hreads, Except.bind, hlinked]
  rw [settleRun, GoalRun.linked, GoalRun.linked, GoalRun.touched_touched]

theorem projectSessionAttempt_folds {session_id : String} {attempt : Int} {agent : RunAgentRecord}
    {changes : List (String × Json)} {w : Written} (h : Stands py text run_id r)
    (hw : WholeLines text)
    (hok : projectSessionAttempt py now text run_id session_id attempt agent changes = .ok w)
    (hagents : Json.lookup "agents" changes = none) (hne : agent.id ≠ "")
    (hlen : agent.id.length ≤ 8000) :
    w.line = [] ∨ w.run.touched now = w.run ∧ Folds py (text ++ w.line) run_id w.run := by
  obtain ⟨then_, hget⟩ := h.get now
  obtain ⟨a, hid, hreads⟩ := agent_reads hne hlen
  unfold projectSessionAttempt at hok
  split at hok
  · cases hok
  split at hok
  · cases hok
  rw [hget] at hok
  obtain ⟨current, hcurrent, hok⟩ := bind_ok hok
  cases hcurrent
  by_cases hover : overtaken (r.touched then_).agents session_id attempt
  · rw [if_pos hover] at hok
    cases hok
    exact .inl rfl
  rw [if_neg hover] at hok
  obtain ⟨evolved, hevolved, hok⟩ := bind_ok hok
  obtain ⟨u, hu, hw'⟩ := bind_ok hok
  rw [GoalRun.evolve_touched] at hevolved
  obtain ⟨henormal, -, hsame⟩ := GoalRun.evolve_spec h.normal hevolved
  have hrecord := hsame hagents
  rw [GoalRun.withAgent_eq henormal hid (hreads py now)] at hu
  cases hu
  cases hw'
  have ha : a.Normal := Record.fromMapping_normal (hreads py now)
  have hnormal := linked_normal henormal ha now
  refine .inr ⟨GoalRun.touched_touched _ now now,
    folds_line h hw hnormal fun now' runs then' hruns => ?_⟩
  have hattempt : Json.lookup "attempt" [("run_id", .str run_id), ("session_id", .str session_id),
      ("attempt", .int attempt), ("changes", .obj (evolved.linked a now).toDictWithoutAgents),
      ("agent", .obj agent.toDict)] = some (.int attempt) := by simp [Json.lookup]
  have hsession : Json.lookup "session_id" [("run_id", .str run_id),
      ("session_id", .str session_id), ("attempt", .int attempt),
      ("changes", .obj (evolved.linked a now).toDictWithoutAgents),
      ("agent", .obj agent.toDict)] = some (.str session_id) := by simp [Json.lookup]
  have hagent : Json.lookup "agent" [("run_id", .str run_id), ("session_id", .str session_id),
      ("attempt", .int attempt), ("changes", .obj (evolved.linked a now).toDictWithoutAgents),
      ("agent", .obj agent.toDict)] = some (.obj agent.toDict) := by simp [Json.lookup]
  have hchanges : Json.lookup "changes" [("run_id", .str run_id), ("session_id", .str session_id),
      ("attempt", .int attempt), ("changes", .obj (evolved.linked a now).toDictWithoutAgents),
      ("agent", .obj agent.toDict)]
        = some (.obj (evolved.linked a now).toDictWithoutAgents) := by simp [Json.lookup]
  have hreplay := GoalRun.evolve_serialized py now' (GoalRun.touched_normal h.normal then') hnormal
  rw [GoalRun.touched_agents] at hover hreplay
  rw [applyEvent_run now' h.id_ne (by decide) (by simp [Json.lookup]) hruns, applyPayload,
    if_neg (by decide), if_neg (by decide), if_pos rfl, hattempt, hsession, hagent, hchanges]
  simp only [GoalRun.touched_agents, if_neg hover, hreplay, Except.bind, hreads]
  -- the fold links to the agents the run had, as the writer did
  have hbase : ((evolved.linked a now).withAgents r.agents).touched now' = evolved.touched now' := by
    rw [GoalRun.linked, GoalRun.withAgents_touched, GoalRun.touched_touched,
      GoalRun.withAgents_withAgents, ← hrecord, GoalRun.withAgents_self]
  have hlinked : (evolved.touched now').withAgent py now' a = .ok (evolved.linked a now') := by
    rw [GoalRun.withAgent_eq (GoalRun.touched_normal henormal now') rfl
      (Record.fromMapping_toDict py now' ha), GoalRun.linked_touched]
  rw [hbase, hlinked, settleRun, GoalRun.linked, GoalRun.linked, GoalRun.touched_touched]

/-- The calls whose event holds all they wrote: the serialized changes leave
the agents out, and a linked agent is found by an ID that is not cut. -/
def Write.Replayable : Write → Prop
  | .update changes => Json.lookup "agents" changes = none
  | .linkAgent agent => agent.id ≠ "" ∧ agent.id.length ≤ 8000
  | .projectSessionAttempt _ _ agent changes =>
      Json.lookup "agents" changes = none ∧ agent.id ≠ "" ∧ agent.id.length ≤ 8000

/-- **Every writer's event folds to the record it returned.** -/
theorem Write.perform_folds {call : Write} {w : Written} (h : Stands py text run_id r)
    (hw : WholeLines text) (hok : call.perform py now text run_id = .ok w)
    (hcall : call.Replayable) (hline : w.line ≠ []) :
    w.run.touched now = w.run ∧ Folds py (text ++ w.line) run_id w.run := by
  cases call with
  | update changes => exact update_folds h hw hok hcall
  | linkAgent agent => exact linkAgent_folds h hw hok hcall.1 hcall.2
  | projectSessionAttempt session_id attempt agent changes =>
    rcases projectSessionAttempt_folds h hw hok hcall.1 hcall.2.1 hcall.2.2 with hnil | hfolds
    · exact absurd hnil hline
    · exact hfolds

theorem Write.perform_line {call : Write} {w : Written}
    (hok : call.perform py now text run_id = .ok w) :
    w.line = [] ∨ ∃ kvs, w.line = compactLine (.obj kvs) := by
  cases call with
  | update changes =>
    obtain ⟨_, _, hok⟩ := bind_ok hok
    obtain ⟨_, _, hok⟩ := bind_ok hok
    cases hok
    exact .inr ⟨_, rfl⟩
  | linkAgent agent =>
    obtain ⟨_, _, hok⟩ := bind_ok hok
    obtain ⟨_, _, hok⟩ := bind_ok hok
    cases hok
    exact .inr ⟨_, rfl⟩
  | projectSessionAttempt session_id attempt agent changes =>
    change RunStore.projectSessionAttempt py now text run_id session_id attempt agent changes = .ok w
      at hok
    unfold RunStore.projectSessionAttempt at hok
    split at hok
    · cases hok
    split at hok
    · cases hok
    obtain ⟨current, _, hok⟩ := bind_ok hok
    by_cases hover : overtaken current.agents session_id attempt
    · rw [if_pos hover] at hok
      cases hok
      exact .inl rfl
    · rw [if_neg hover] at hok
      obtain ⟨_, _, hok⟩ := bind_ok hok
      obtain ⟨_, _, hok⟩ := bind_ok hok
      cases hok
      exact .inr ⟨_, rfl⟩

/-! ## 5. The creation of a run -/

theorem stands_created (now : Clock) (hr : r.Normal) :
    Stands py (line now [] "run_created" [("run_id", .str r.id), ("run", .obj r.toDict)]) r.id r where
  normal := hr
  id_ne := hr.id_ne
  folds now' := by
    have hzero : r.last_updated_at.isZero = false := hr.value RunField.last_updated_at
    refine ⟨Dict.empty.set r.id r, ⟨r.last_updated_at, hzero⟩, ?_, ?_⟩
    · have hempty : WholeLines [] := .inl rfl
      have hfold := fold_append_line py now now' "run_created"
        [("run_id", .str r.id), ("run", .obj r.toDict)] hempty
      rw [List.nil_append] at hfold
      rw [hfold]
      have hempty : fold py now' [] = .ok Dict.empty := rfl
      rw [hempty, Except.bind, applyEvent]
      simp [RunStore.record, Json.lookup, hr.id_ne, Record.fromMapping_toDict py now' hr, settleRun]
    · rw [Dict.get?_set, if_pos rfl, GoalRun.touched_eq_self.mpr rfl]

end RunStore

end Agenthicc.GoalRuns
