/-
Agenthicc.GoalRuns.ServiceTheorems — when the record of a run keeps up with
its session.

Nothing but `project_session_attempt` looks at what is recorded already, so
what counts is the order in which the calls write. `World.InOrder` is the
condition on a step: whoever writes a view of the session leaves no call
behind that still holds an earlier one, the file ends with a whole line, and
the event holds all that was written. `World.Inv.step` is the induction over
the steps: every view that is still held is at least as new as whatever was
written to its target.
-/
import Agenthicc.GoalRuns.Service
import Agenthicc.GoalRuns.StoreTheorems
import Agenthicc.Library.Runs

namespace Agenthicc.GoalRuns

open Python Background

/-! ## 1. Views that are held -/

/-- The call is yet to write its view of the session, of that version, to the
target. -/
def Call.Holds (c : Call) (t : Target) (v : Nat) : Prop :=
  match c with
  | .listing _ _ version => t = .run ∧ v = version
  | .writing (some version) writes => v = version ∧ ∃ call ∈ writes, t ∈ call.targets
  | _ => False

namespace World

variable (py : Interp) (run_id : String)

/-- Behind this step no call holds an earlier view than the file, and no
record is lost. -/
def InOrder (w : World) : Step → Prop
  | .write i _ | .writeCut i _ _ =>
      ∀ version call rest, w.calls i = .writing version (call :: rest) →
        WholeLines w.text ∧ call.Replayable ∧
          ∀ v, version = some v → ∀ t ∈ call.targets, ∀ j ≠ i, ∀ v',
            (w.calls j).Holds t v' → v ≤ v'
  | _ => True

/-- No write replaced what a later version of the session gave. -/
def NeverBack (w : World) : Prop :=
  w.projected.Pairwise fun a b => a.target = b.target → a.version ≤ b.version

/-- The file folds to what the last write returned, but for the time of its
last update: that is the clock of whoever folds it. -/
def ShowsLastWrite (w : World) : Prop :=
  ∀ r, w.returned = some r → ∀ now,
    RunStore.get py now w.text run_id = .ok r ↔ now.time = r.last_updated_at

/-- Behind `create`: nobody has read or written the run. -/
structure Starts (w : World) : Prop where
  created : ∃ r, RunStore.Stands py w.text run_id r
  idle : ∀ i, w.calls i = .idle
  projected : w.projected = []
  returned : w.returned = none

/-- What every step in order keeps. -/
structure Inv (w : World) : Prop where
  stands : ∃ r, RunStore.Stands py w.text run_id r
  returned : ∀ r, w.returned = some r → RunStore.Folds py w.text run_id r
  below : ∀ p ∈ w.projected, p.version ≤ w.version
  held : ∀ i t v, (w.calls i).Holds t v → v ≤ w.version ∧
    ∀ p ∈ w.projected, p.target = t → p.version ≤ v
  order : w.NeverBack

variable {py run_id} {w : World}

theorem Starts.inv (h : w.Starts py run_id) : w.Inv py run_id where
  stands := h.created
  returned r hr := by simp [h.returned] at hr
  below p hp := by simp [h.projected] at hp
  held i t v hv := by
    rw [h.idle i] at hv
    exact hv.elim
  order := by simp [NeverBack, h.projected]

theorem Inv.showsLastWrite (h : w.Inv py run_id) : w.ShowsLastWrite py run_id := by
  intro r hr now
  rw [(h.returned r hr).get now]
  constructor
  · intro heq
    exact GoalRun.touched_eq_self.mp (Except.ok.inj heq)
  · intro heq
    exact congrArg Except.ok (GoalRun.touched_eq_self.mpr heq)

/-! ## 2. One step -/

@[simp] theorem setCall_calls_self (w : World) (i : Nat) (c : Call) :
    (w.setCall i c).calls i = c := Function.update_self ..

theorem setCall_calls_ne (w : World) {i j : Nat} (c : Call) (h : j ≠ i) :
    (w.setCall i c).calls j = w.calls j := Function.update_of_ne h ..

theorem Inv.setCall (h : w.Inv py run_id) (i : Nat) (c : Call)
    (hc : ∀ t v, c.Holds t v → v ≤ w.version ∧ ∀ p ∈ w.projected, p.target = t → p.version ≤ v) :
    (w.setCall i c).Inv py run_id where
  stands := h.stands
  returned := h.returned
  below := h.below
  held j t v hv := by
    by_cases hj : j = i
    · subst hj
      rw [setCall_calls_self] at hv
      exact hc t v hv
    · rw [setCall_calls_ne w c hj] at hv
      exact h.held j t v hv
  order := h.order

/-- A call that has just read the session holds its newest view. -/
theorem Inv.reads (h : w.Inv py run_id) (i : Nat) (c : Call)
    (hc : ∀ t v, c.Holds t v → v = w.version) : (w.setCall i c).Inv py run_id := by
  refine h.setCall i c fun t v hv => ?_
  rw [hc t v hv]
  exact ⟨Nat.le_refl _, fun p hp _ => h.below p hp⟩

theorem Inv.keeps (h : w.Inv py run_id) (i : Nat) (c : Call)
    (hc : ∀ t v, c.Holds t v → (w.calls i).Holds t v) : (w.setCall i c).Inv py run_id :=
  h.setCall i c fun t v hv => h.held i t v (hc t v hv)

theorem Inv.drops (h : w.Inv py run_id) (i : Nat) : (w.setCall i .idle).Inv py run_id :=
  h.keeps i .idle fun _ _ hv => hv.elim

theorem mem_views {version : Option Nat} {call : RunStore.Write} {p : Projected} :
    p ∈ views version call ↔ version = some p.version ∧ p.target ∈ call.targets := by
  cases version with
  | none => simp [views]
  | some v =>
    simp only [views, List.mem_map, Option.some.injEq]
    constructor
    · rintro ⟨t, ht, rfl⟩
      exact ⟨rfl, ht⟩
    · rintro ⟨rfl, ht⟩
      exact ⟨p.target, ht, rfl⟩

/-- **A write in order** of the call `i` whose record is in the file. -/
theorem Inv.record {i : Nat} {version : Option Nat} {call : RunStore.Write}
    {rest : List RunStore.Write} {written : RunStore.Written} {line : List Char} {c : Call}
    (h : w.Inv py run_id) (hcall : w.calls i = .writing version (call :: rest))
    (horder : ∀ v, version = some v → ∀ t ∈ call.targets, ∀ j ≠ i, ∀ v',
      (w.calls j).Holds t v' → v ≤ v')
    (hfolds : RunStore.Folds py (w.text ++ line) run_id written.run)
    (hc : ∀ t v, c.Holds t v → (w.calls i).Holds t v) :
    ((w.record version call written line).setCall i c).Inv py run_id := by
  have hheld : ∀ v, version = some v → ∀ t ∈ call.targets, (w.calls i).Holds t v := by
    intro v hv t ht
    rw [hcall, hv]
    exact ⟨rfl, call, List.mem_cons_self, ht⟩
  have hsame : ∀ t v v', version = some v → (w.calls i).Holds t v' → v' = v := by
    intro t v v' hv hv'
    rw [hcall, hv] at hv'
    exact hv'.1
  have hviews : ∀ p ∈ views version call, (w.calls i).Holds p.target p.version := fun p hp =>
    hheld _ (mem_views.mp hp).1 _ (mem_views.mp hp).2
  refine ⟨⟨_, hfolds.stands⟩, ?_, ?_, ?_, ?_⟩
  · intro r hr
    cases hr
    exact hfolds
  · intro p hp
    rcases List.mem_append.mp hp with hp | hp
    · exact h.below p hp
    · exact (h.held i _ _ (hviews p hp)).1
  · intro j t v hv
    have hold : (w.calls j).Holds t v := by
      by_cases hj : j = i
      · subst hj
        rw [setCall_calls_self] at hv
        exact hc t v hv
      · rw [setCall_calls_ne _ c hj] at hv
        exact hv
    refine ⟨(h.held j t v hold).1, fun p hp htarget => ?_⟩
    rcases List.mem_append.mp hp with hp | hp
    · exact (h.held j t v hold).2 p hp htarget
    · obtain ⟨hversion, ht⟩ := mem_views.mp hp
      by_cases hj : j = i
      · subst hj
        exact Nat.le_of_eq (hsame t _ v hversion hold).symm
      · exact horder _ hversion _ ht j hj v (htarget ▸ hold)
  · refine List.pairwise_append.mpr ⟨h.order, ?_, fun a ha b hb htarget => ?_⟩
    · refine List.pairwise_of_forall_mem_list fun a ha b hb _ => ?_
      have hab := (mem_views.mp ha).1.symm.trans (mem_views.mp hb).1
      exact Nat.le_of_eq (Option.some.inj hab)
    · exact (h.held i _ _ (hviews b hb)).2 a ha htarget

theorem Inv.withText (h : w.Inv py run_id) {text : List Char}
    (hread : RunStore.read text = RunStore.read w.text) : ({ w with text := text }).Inv py run_id where
  stands := by
    obtain ⟨r, hr⟩ := h.stands
    refine ⟨r, hr.normal, hr.id_ne, fun now => ?_⟩
    rw [RunStore.fold, hread]
    exact hr.folds now
  returned r hr := by
    have hfolds := h.returned r hr
    refine ⟨hfolds.normal, hfolds.id_ne, fun now => ?_⟩
    rw [RunStore.fold, hread]
    exact hfolds.folds now
  below := h.below
  held := h.held
  order := h.order

theorem holds_of_rest {version : Option Nat} {call : RunStore.Write} {rest : List RunStore.Write}
    {t : Target} {v : Nat} (h : (Call.writing version rest).Holds t v) :
    (Call.writing version (call :: rest)).Holds t v := by
  cases version with
  | none => exact h
  | some version =>
    obtain ⟨hv, c, hc, ht⟩ := h
    exact ⟨hv, c, List.mem_cons_of_mem _ hc, ht⟩

theorem Inv.write (h : w.Inv py run_id) (i : Nat) (now : Clock) (hok : w.InOrder (.write i now)) :
    (w.step py run_id (.write i now)).Inv py run_id := by
  simp only [World.step]
  split
  · rename_i version call rest heq
    obtain ⟨hwhole, hreplay, horder⟩ := hok version call rest heq
    have hrest : ∀ t v, (Call.writing version rest).Holds t v → (w.calls i).Holds t v :=
      fun t v hv => heq ▸ holds_of_rest hv
    split
    · rename_i written hperform
      by_cases hline : written.line = []
      · rw [if_pos hline]
        exact h.keeps i _ hrest
      · rw [if_neg hline]
        obtain ⟨r, hstands⟩ := h.stands
        have hfolds := RunStore.Write.perform_folds hstands hwhole hperform hreplay hline
        exact h.record heq horder hfolds.2 hrest
    · exact h.drops i
  · exact h.drops i
  · exact h

/-- An append that is cut leaves the record it was to write, or nothing. -/
theorem Inv.writeCut (h : w.Inv py run_id) (i : Nat) (now : Clock) (part : List Char)
    (hok : w.InOrder (.writeCut i now part)) :
    (w.step py run_id (.writeCut i now part)).Inv py run_id := by
  simp only [World.step]
  split
  · rename_i version call rest heq
    obtain ⟨hwhole, hreplay, horder⟩ := hok version call rest heq
    split
    · rename_i written hperform
      split
      · rename_i hpart
        have hline : written.line ≠ [] := by
          intro hnil
          rw [hnil] at hpart
          exact hpart.2 (List.prefix_nil.mp hpart.1)
        obtain hnil | ⟨kvs, hkvs⟩ := RunStore.Write.perform_line hperform
        · exact absurd hnil hline
        rw [hkvs] at hpart ⊢
        by_cases hbreak : part ++ ['\n'] = compactLine (.obj kvs)
        · rw [if_pos hbreak]
          obtain ⟨r, hstands⟩ := h.stands
          have hfolds := (RunStore.Write.perform_folds hstands hwhole hperform hreplay hline).2
          refine h.record heq horder ⟨hfolds.normal, hfolds.id_ne, fun now' => ?_⟩
            fun _ _ hv => hv.elim
          rw [RunStore.fold, RunStore.read_unbroken hwhole hbreak, ← hkvs]
          exact hfolds.folds now'
        · rw [if_neg hbreak]
          exact (h.withText (RunStore.read_cut hwhole hpart.1 hpart.2 hbreak)).drops i
      · exact h
    · exact h
  · exact h

/-- **One step in order.** -/
theorem Inv.step (h : w.Inv py run_id) (i : Step) (hok : w.InOrder i) :
    (w.step py run_id i).Inv py run_id := by
  cases i with
  | moves session =>
    exact ⟨h.stands, h.returned, fun p hp => Nat.le_succ_of_le (h.below p hp),
      fun j t v hv => ⟨Nat.le_succ_of_le (h.held j t v hv).1, (h.held j t v hv).2⟩, h.order⟩
  | startReads i =>
    simp only [World.step]
    split
    · exact h.reads i _ fun t v hv => hv.1
    · exact h
  | reconcileReadsRun i now =>
    simp only [World.step]
    split
    · split
      · split
        · exact h
        · exact h.keeps i _ fun _ _ hv => hv.elim
      · exact h
    · exact h
  | reconcileReadsSession i =>
    simp only [World.step]
    split
    · split
      · exact h.reads i _ fun t v hv => hv.2
      · exact h.keeps i _ fun _ _ hv => hv.elim
    · exact h
  | reconcileLists i children =>
    simp only [World.step]
    split
    · rename_i run session version heq
      refine h.keeps i _ fun t v hv => ?_
      rw [heq]
      obtain ⟨hv, call, hcall, ht⟩ := hv
      refine ⟨?_, hv⟩
      simp only [reconcileWrites] at hcall
      split at hcall
      · cases hcall
      · rw [List.mem_singleton.mp hcall] at ht
        exact List.mem_singleton.mp ht
    · exact h
  | linkReads i agent =>
    simp only [World.step]
    split
    · exact h.reads i _ fun t v hv => hv.1
    · exact h
  | projectReads i session_id attempt agent changes =>
    simp only [World.step]
    split
    · exact h.reads i _ fun t v hv => hv.1
    · exact h
  | write i now => exact h.write i now hok
  | writeCut i now part => exact h.writeCut i now part hok
  | dies i => exact h.drops i

/-! ## 3. Whole runs -/

/-- Whenever the file is folded behind a cut append, it shows what it showed
before it, or what it would show behind the whole append. -/
def CutLosesOne (py : Interp) (run_id : String) (w : World) (i : Nat) (now : Clock)
    (part : List Char) : Prop :=
  (∀ now', RunStore.fold py now' (w.step py run_id (.writeCut i now part)).text
      = RunStore.fold py now' w.text)
    ∨ ∀ now', RunStore.fold py now' (w.step py run_id (.writeCut i now part)).text
        = RunStore.fold py now' (w.step py run_id (.write i now)).text

theorem cutLosesOne {i : Nat} {now : Clock} {part : List Char}
    (hok : w.InOrder (.writeCut i now part)) : CutLosesOne py run_id w i now part := by
  cases hcall : w.calls i with
  | writing version writes =>
    cases writes with
    | nil => exact .inl fun now' => by simp only [World.step, hcall]
    | cons call rest =>
      obtain ⟨hwhole, -, -⟩ := hok version call rest hcall
      cases hperform : call.perform py now w.text run_id with
      | error exc => exact .inl fun now' => by simp only [World.step, hcall, hperform]
      | ok written =>
        simp only [CutLosesOne, World.step, hcall, hperform]
        by_cases hpart : part <+: written.line ∧ part ≠ written.line
        · rw [if_pos hpart]
          obtain hnil | ⟨kvs, hkvs⟩ := RunStore.Write.perform_line hperform
          · rw [hnil] at hpart
            exact absurd (List.prefix_nil.mp hpart.1) hpart.2
          have hline : written.line ≠ [] := by simp [hkvs, compactLine]
          rw [if_neg hline]
          rw [hkvs] at hpart ⊢
          by_cases hbreak : part ++ ['\n'] = compactLine (.obj kvs)
          · rw [if_pos hbreak]
            refine .inr fun now' => ?_
            change RunStore.fold py now' (w.text ++ part)
              = RunStore.fold py now' (w.text ++ compactLine (.obj kvs))
            rw [RunStore.fold, RunStore.read_unbroken hwhole hbreak, RunStore.fold]
          · rw [if_neg hbreak]
            refine .inl fun now' => ?_
            change RunStore.fold py now' (w.text ++ part) = RunStore.fold py now' w.text
            rw [RunStore.fold, RunStore.read_cut hwhole hpart.1 hpart.2 hbreak, RunStore.fold]
        · rw [if_neg hpart]
          exact .inl fun now' => rfl
  | _ => exact .inl fun now' => by simp only [World.step, hcall]

end World

/-! ### A link that is overtaken -/

namespace World

variable {py : Interp} {run_id : String} {w : World}

theorem step_write_link {i v : Nat} {agent a : RunAgentRecord} {r : GoalRun} (now : Clock)
    (hcall : w.calls i = .writing (some v) [.linkAgent agent])
    (h : RunStore.Stands py w.text run_id r) (hw : WholeLines w.text)
    (hne : agent.id ≠ "") (hlen : agent.id.length ≤ 8000) (hid : a.id = agent.id)
    (hreads : ∀ py now, Record.fromMapping agentSchema py now agent.toDict = .ok a) :
    ∃ line, WholeLines (w.text ++ line)
      ∧ RunStore.Folds py (w.text ++ line) run_id (r.linked a now)
      ∧ w.step py run_id (.write i now) = World.setCall
          { w with
            text := w.text ++ line
            projected := w.projected ++ [⟨.agent agent.id, v⟩]
            returned := some (r.linked a now) } i (.writing (some v) []) := by
  have hok := RunStore.linkAgent_eq now h hid hreads
  refine ⟨_, ?_, (RunStore.linkAgent_folds h hw hok hne hlen).2, ?_⟩
  · exact hw.append (wholeLines_compactLine _)
  · have hline : RunStore.line now w.text "agent_linked"
        [("run_id", .str run_id), ("agent", .obj agent.toDict)] ≠ [] := by
      simp [RunStore.line, compactLine]
    simp only [World.step, hcall, RunStore.Write.perform, hok, if_neg hline]
    rfl

end World

def atOne : Clock := ⟨⟨['1', '.', '0'], by decide⟩, by decide⟩

def startingRecord : List (String × Json) :=
  [("session_id", .str "s"), ("status", .str "starting"), ("attempt", .int 1)]

theorem starting_isSome : (BackgroundSession.fromMapping plainInterp startingRecord).isSome = true := by
  decide

def starting : BackgroundSession :=
  (BackgroundSession.fromMapping plainInterp startingRecord).get starting_isSome

def finishedRecord : List (String × Json) :=
  [("session_id", .str "s"), ("status", .str "completed"), ("attempt", .int 1),
    ("worker_exit_code", .int 0)]

theorem finished_isSome : (BackgroundSession.fromMapping plainInterp finishedRecord).isSome = true := by
  decide

def finished : BackgroundSession :=
  (BackgroundSession.fromMapping plainInterp finishedRecord).get finished_isSome

/-- The launcher makes its agent of the starting session; the worker ends,
links its own, and the launcher links. -/
def overtakenLink : List Step :=
  [.linkReads 0 (startAgent "run_1" starting), .moves finished,
    .linkReads 1 (startAgent "run_1" finished), .write 1 atOne, .write 0 atOne]

def newRunRecord : List (String × Json) := [("run_id", .str "run_1"), ("goal", .str "g")]

theorem exists_newRun : ∃ r : GoalRun, r.id = "run_1" ∧ r.Normal ∧ r.agents = [] := by
  have hok : ((Record.fromMapping runSchema plainInterp atOne newRunRecord).toOption.map
      fun r => (r.id, (r : GoalRun).agents.length)) = some ("run_1", 0) := by decide
  cases hr : Record.fromMapping runSchema plainInterp atOne newRunRecord with
  | error exc =>
      rw [hr] at hok
      cases hok
  | ok r =>
      rw [hr] at hok
      simp only [Except.toOption, Option.map_some, Option.some.injEq, Prod.mk.injEq] at hok
      exact ⟨r, hok.1, Record.fromMapping_normal hr, List.length_eq_zero_iff.mp hok.2⟩

theorem exists_starts : ∃ w : World, ∃ r, w.Starts plainInterp "run_1" ∧ w.session = starting
    ∧ RunStore.Stands plainInterp w.text "run_1" r ∧ WholeLines w.text ∧ r.agents = [] := by
  obtain ⟨r, hid, hnormal, hagents⟩ := exists_newRun
  have hstands : RunStore.Stands plainInterp _ r.id r := RunStore.stands_created atOne hnormal
  rw [hid] at hstands
  refine ⟨{ text := _, session := starting }, r, ⟨⟨r, hstands⟩, fun _ => rfl, rfl, rfl⟩, rfl,
    hstands, wholeLines_compactLine _, hagents⟩

/-- The launcher has read the starting session, the worker the finished one. -/
def bothRead (w : World) : World :=
  { w with
    session := finished
    version := w.version + 1
    calls := Function.update (Function.update w.calls 0
        (.writing (some w.version) [.linkAgent (startAgent "run_1" starting)])) 1
      (.writing (some (w.version + 1)) [.linkAgent (startAgent "run_1" finished)]) }

theorem foldl_overtakenLink {w : World} (hidle : ∀ i, w.calls i = .idle) :
    overtakenLink.foldl (World.step plainInterp "run_1") w
      = ((bothRead w).step plainInterp "run_1" (.write 1 atOne)).step plainInterp "run_1"
          (.write 0 atOne) := by
  have hread : ((overtakenLink.take 3).foldl (World.step plainInterp "run_1") w) = bothRead w := by
    simp [overtakenLink, World.step, hidle, World.setCall, bothRead]
  rw [← hread]
  rfl

end Agenthicc.GoalRuns
