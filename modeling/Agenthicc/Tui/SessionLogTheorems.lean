/-
Agenthicc.Tui.SessionLogTheorems — what a resume reads.

The file of a session agrees with its index entry, or the call that changed
the entry last is still to write. A write keeps that as long as the writes of
a session come in the order of its changes (`InOrder`); nothing else can
break it.
-/
import Agenthicc.Tui.SessionLog
import Agenthicc.Python.Builtins

namespace Agenthicc.Tui

open Python

variable {site : Site} {w : World} {index : Index} {a b c : Metadata}

/-! ## 1. Mode and agent -/

/-- The same mode and agent. -/
def SameFields (a b : Metadata) : Prop :=
  strField "mode" a = strField "mode" b ∧ strField "agent" a = strField "agent" b

theorem SameFields.refl (a : Metadata) : SameFields a a := ⟨rfl, rfl⟩

theorem SameFields.trans (h : SameFields a b) (h' : SameFields b c) : SameFields a c :=
  ⟨h.1.trans h'.1, h.2.trans h'.2⟩

theorem strField_set_ne {key key' : String} (value : Json) (a : Metadata) (h : key' ≠ key) :
    strField key (assocSet key' value a) = strField key a := by
  unfold strField
  rw [assocGet_assocSet, if_neg h]

theorem strField_set (key s : String) (a : Metadata) :
    strField key (assocSet key (.str s) a) = some s := by
  unfold strField
  rw [assocGet_assocSet, if_pos rfl]

theorem sameFields_touched (value : Json) (a : Metadata) :
    SameFields a (assocSet "last_active" value a) :=
  ⟨(strField_set_ne value a (by decide)).symm, (strField_set_ne value a (by decide)).symm⟩

/-- Mode and agent are not blank. -/
def NotBlank (a : Metadata) : Prop :=
  notBlank (strField "mode" a) = strField "mode" a
    ∧ notBlank (strField "agent" a) = strField "agent" a

theorem NotBlank.of_same (h : SameFields a b) (ha : NotBlank a) : NotBlank b := by
  unfold NotBlank at ha ⊢
  rw [← h.1, ← h.2]
  exact ha

/-- The mode or agent that a call sets is not blank. -/
def SessionCall.Sets : SessionCall → Prop
  | .registerSession _ _ _ => True
  | .updateSessionMode _ mode => strip mode.toList ≠ []
  | .updateSessionAgent _ agent => strip agent.toList ≠ []
  | .touchSession _ => True

/-! ## 2. What a call does to the index -/

theorem keys_set {id : String} {a : Metadata} {other : String} (h : other ∈ index.map Prod.fst) :
    other ∈ (assocSet id a index).map Prod.fst := by
  rw [keys_assocSet]
  split
  · exact h
  · exact List.mem_append_left _ h

/-- A call leaves the index alone, or sets the entry of its session: to the
metadata it will write, or to the same mode and agent. -/
theorem mutate_cases (resolve : String → String) (now : PyFloat) (index : Index) (call : SessionCall) :
    call.mutate resolve now index = (index, none)
    ∨ (∃ a, call.mutate resolve now index = (assocSet call.session a index, some a)
        ∧ ((∀ e, assocGet call.session index = some e → NotBlank e) → call.Sets → NotBlank a))
    ∨ (∃ e e', call.mutate resolve now index = (assocSet call.session e' index, none)
        ∧ assocGet call.session index = some e ∧ SameFields e e') := by
  cases call with
  | registerSession id cwd model =>
      refine .inr (.inl ⟨_, rfl, fun _ _ => ⟨?_, ?_⟩⟩)
      · rfl
      · rfl
  | updateSessionMode id mode =>
      unfold SessionCall.mutate SessionCall.session
      dsimp only
      cases he : assocGet id index with
      | none => exact .inl rfl
      | some e =>
          refine .inr (.inl ⟨_, rfl, fun hblank hmode => ?_⟩)
          refine NotBlank.of_same (sameFields_touched _ _) ⟨?_, ?_⟩
          · rw [strField_set]
            exact if_neg hmode
          · rw [strField_set_ne _ _ (by decide)]
            exact (hblank e rfl).2
  | updateSessionAgent id agent =>
      unfold SessionCall.mutate SessionCall.session
      dsimp only
      cases he : assocGet id index with
      | none => exact .inl rfl
      | some e =>
          refine .inr (.inl ⟨_, rfl, fun hblank hagent => ⟨?_, ?_⟩⟩)
          · rw [strField_set_ne _ _ (by decide)]
            exact (hblank e rfl).1
          · rw [strField_set]
            exact if_neg hagent
  | touchSession id =>
      unfold SessionCall.mutate SessionCall.session
      dsimp only
      cases he : assocGet id index with
      | none => exact .inl rfl
      | some e => exact .inr (.inr ⟨e, _, rfl, rfl, sameFields_touched _ _⟩)

theorem assocGet_set_ne {id other : String} (a : Metadata) (index : Index) (h : other ≠ id) :
    assocGet other (assocSet id a index) = assocGet other index := by
  rw [assocGet_assocSet, if_neg (Ne.symm h)]

theorem assocGet_set_self (id : String) (a : Metadata) (index : Index) :
    assocGet id (assocSet id a index) = some a := by
  rw [assocGet_assocSet, if_pos rfl]

/-! ## 3. Files and entries -/

/-- The last change of the entry is still to be written. -/
def World.Due (w : World) (id : String) : Prop :=
  ∃ caller p, w.pending caller = some p ∧ p.session_id = id ∧ p.number = w.latest id

/-- The file has the mode and the agent of the entry. -/
def World.Fresh (site : Site) (w : World) (id : String) (e : Metadata) : Prop :=
  ∃ a, w.files (site.place id) = some a ∧ SameFields a e

/-- The condition on a step: what a call sets is not blank, the file that a
call writes is its own session's, and no later change of the session was
written already, or the copy has the mode and the agent of the entry. -/
def InOrder (site : Site) (w : World) : Step → Prop
  | .change _ call _ => call.Sets
  | .write caller => ∀ p ∈ w.pending caller,
      (∀ id ∈ w.index.map Prod.fst, site.place id = site.place p.session_id → id = p.session_id)
      ∧ (w.written p.session_id ≤ p.number
        ∨ ∀ e ∈ assocGet p.session_id w.index, SameFields p.copy e)

structure World.Inv (site : Site) (w : World) : Prop where
  notBlank : ∀ id e, assocGet id w.index = some e → NotBlank e
  fresh : ∀ id e, assocGet id w.index = some e → w.Fresh site id e ∨ w.Due id
  newest : ∀ id e, assocGet id w.index = some e → w.latest id ≤ w.written id ∨ w.Due id
  pending : ∀ caller p, w.pending caller = some p → p.number ≤ w.latest p.session_id
    ∧ ∃ e, assocGet p.session_id w.index = some e
      ∧ (p.number = w.latest p.session_id → SameFields p.copy e)
  changes : ∀ id, w.latest id ≤ w.changes
  registered : ∀ id ∈ w.registered, id ∈ w.index.map Prod.fst

theorem World.inv_init (site : Site) : World.Inv site {} where
  notBlank _ _ h := nomatch h
  fresh _ _ h := nomatch h
  newest _ _ h := nomatch h
  pending _ _ h := nomatch h
  changes _ := le_rfl
  registered _ h := nomatch h

theorem World.Inv.touched {id : String} {e e' : Metadata} (h : w.Inv site)
    (he : assocGet id w.index = some e) (hsame : SameFields e e') :
    World.Inv site { w with index := assocSet id e' w.index } := by
  have hentry : ∀ other f, assocGet other (assocSet id e' w.index) = some f →
      ∃ f', assocGet other w.index = some f' ∧ SameFields f' f := by
    intro other f hf
    by_cases heq : other = id
    · rw [heq, assocGet_set_self, Option.some.injEq] at hf
      rw [heq, ← hf]
      exact ⟨e, he, hsame⟩
    · rw [assocGet_set_ne _ _ heq] at hf
      exact ⟨f, hf, .refl f⟩
  refine ⟨fun other f hf => ?_, fun other f hf => ?_, fun other f hf => ?_, fun caller p hp => ?_,
    h.changes, fun other hother => keys_set (h.registered other hother)⟩
  · obtain ⟨f', hf', hff⟩ := hentry other f hf
    exact (h.notBlank other f' hf').of_same hff
  · obtain ⟨f', hf', hff⟩ := hentry other f hf
    exact (h.fresh other f' hf').imp (fun ⟨a, ha, haf⟩ => ⟨a, ha, haf.trans hff⟩) fun hdue => hdue
  · obtain ⟨f', hf', -⟩ := hentry other f hf
    exact h.newest other f' hf'
  · obtain ⟨hle, f, hf, hcopy⟩ := h.pending caller p hp
    refine ⟨hle, ?_⟩
    by_cases heq : p.session_id = id
    · rw [heq, he, Option.some.injEq] at hf
      refine ⟨e', heq ▸ assocGet_set_self _ _ _, fun hnumber => ?_⟩
      exact (hcopy hnumber).trans (hf ▸ hsame)
    · exact ⟨f, (assocGet_set_ne _ _ heq).trans hf, hcopy⟩

theorem World.Inv.set {caller : Nat} {id : String} {a : Metadata} (h : w.Inv site)
    (hcaller : w.pending caller = none) (ha : NotBlank a) :
    (w.updated caller (assocSet id a w.index) id a).Inv site := by
  have hlatest : (w.updated caller (assocSet id a w.index) id a).latest id = w.changes + 1 :=
    Function.update_self _ _ _
  have hother : ∀ other ≠ id,
      (w.updated caller (assocSet id a w.index) id a).latest other = w.latest other :=
    fun other hne => Function.update_of_ne hne _ _
  have hdue : (w.updated caller (assocSet id a w.index) id a).Due id :=
    ⟨caller, ⟨id, a, w.changes + 1⟩, Function.update_self _ _ _, rfl, hlatest.symm⟩
  have hkept : ∀ other ≠ id, w.Due other →
      (w.updated caller (assocSet id a w.index) id a).Due other := by
    intro other hne hwas
    obtain ⟨caller', p, hp, hid, hnumber⟩ := hwas
    have hcallers : caller' ≠ caller := by
      intro heq
      rw [heq, hcaller] at hp
      cases hp
    exact ⟨caller', p, (Function.update_of_ne hcallers _ _).trans hp, hid,
      hnumber.trans (hother other hne).symm⟩
  have hentry : ∀ other ≠ id, assocGet other (w.updated caller (assocSet id a w.index) id a).index
      = assocGet other w.index := fun other hne => assocGet_set_ne a w.index hne
  have hself : assocGet id (w.updated caller (assocSet id a w.index) id a).index = some a :=
    assocGet_set_self id a w.index
  refine ⟨fun other f hf => ?_, fun other f hf => ?_, fun other f hf => ?_, fun caller' p hp => ?_,
    fun other => ?_, fun other hreg => ?_⟩
  · by_cases heq : other = id
    · rw [heq, hself, Option.some.injEq] at hf
      exact hf ▸ ha
    · rw [hentry other heq] at hf
      exact h.notBlank other f hf
  · by_cases heq : other = id
    · exact .inr (heq ▸ hdue)
    · rw [hentry other heq] at hf
      exact (h.fresh other f hf).imp (fun hfresh => hfresh) (hkept other heq)
  · by_cases heq : other = id
    · exact .inr (heq ▸ hdue)
    · rw [hentry other heq] at hf
      refine (h.newest other f hf).imp (fun hle => ?_) (hkept other heq)
      rw [hother other heq]
      exact hle
  · by_cases heq : caller' = caller
    · have hnew : (w.updated caller (assocSet id a w.index) id a).pending caller
          = some ⟨id, a, w.changes + 1⟩ := Function.update_self _ _ _
      rw [heq, hnew] at hp
      cases hp
      exact ⟨le_of_eq hlatest.symm, a, hself, fun _ => .refl a⟩
    · have hp' : w.pending caller' = some p := by
        have hsame : (w.updated caller (assocSet id a w.index) id a).pending caller'
            = w.pending caller' := Function.update_of_ne heq _ _
        rw [← hsame, hp]
      obtain ⟨hle, f, hf, hcopy⟩ := h.pending caller' p hp'
      by_cases hid : p.session_id = id
      · have hbelow := h.changes id
        rw [hid] at hle ⊢
        rw [hlatest]
        exact ⟨by omega, a, hself, fun hnumber => by omega⟩
      · rw [hother _ hid]
        exact ⟨hle, f, (hentry _ hid).trans hf, hcopy⟩
  · change _ ≤ w.changes + 1
    by_cases heq : other = id
    · rw [heq, hlatest]
    · rw [hother other heq]
      exact (h.changes other).trans (Nat.le_succ _)
  · rcases List.mem_cons.mp hreg with heq | hreg
    · change other ∈ (assocSet id a w.index).map Prod.fst
      rw [heq, keys_assocSet]
      split
      · assumption
      · exact List.mem_append_right _ List.mem_cons_self
    · exact keys_set (h.registered other hreg)

/-- **A write in order.** -/
theorem World.Inv.write {caller : Nat} {p : Pending} (h : w.Inv site)
    (hp : w.pending caller = some p) (hok : InOrder site w (.write caller)) :
    (w.write site caller p).Inv site := by
  obtain ⟨hplace, horder⟩ := hok p hp
  obtain ⟨hle, entry, hentry, hcopy⟩ := h.pending caller p hp
  have hwritten : ∀ id, w.written id ≤ (w.write site caller p).written id := by
    intro id
    change _ ≤ Function.update w.written p.session_id _ id
    by_cases heq : id = p.session_id
    · rw [heq, Function.update_self]
      exact le_max_left _ _
    · rw [Function.update_of_ne heq]
  -- Who is due and is not this call stays due.
  have hkept : ∀ id, (id = p.session_id → p.number ≠ w.latest id) → w.Due id →
      (w.write site caller p).Due id := by
    intro id hnot hdue
    obtain ⟨caller', q, hq, hid, hnumber⟩ := hdue
    have hcallers : caller' ≠ caller := by
      intro heq
      rw [heq, hp] at hq
      cases hq
      exact hnot hid.symm hnumber
    exact ⟨caller', q, (Function.update_of_ne hcallers _ _).trans hq, hid, hnumber⟩
  refine ⟨h.notBlank, fun id e he => ?_, fun id e he => ?_, fun caller' q hq => ?_, h.changes,
    h.registered⟩
  · by_cases hid : id = p.session_id
    · have hfile : (w.write site caller p).files (site.place id) = some p.copy := by
        rw [hid]
        exact Function.update_self _ _ _
      by_cases hlatest : p.number = w.latest p.session_id
      · rw [hid] at he
        have heq : entry = e := Option.some.inj (hentry.symm.trans he)
        exact .inl ⟨p.copy, hfile, heq ▸ hcopy hlatest⟩
      · rcases horder with hnewer | hsame
        · -- An older change: the newest one cannot have been written.
          have hdue : w.Due id := by
            rcases h.newest id e he with hnew | hdue
            · rw [hid] at hnew
              omega
            · exact hdue
          exact .inr (hkept id (fun heq hnumber => hlatest (heq ▸ hnumber)) hdue)
        · exact .inl ⟨p.copy, hfile, hsame e (hid ▸ he)⟩
    · have hmem : id ∈ w.index.map Prod.fst :=
        List.mem_map.mpr ⟨(id, e), mem_of_assocGet he, rfl⟩
      have hne : site.place id ≠ site.place p.session_id := fun heq => hid (hplace id hmem heq)
      refine (h.fresh id e he).imp (fun ⟨a, ha, hae⟩ => ⟨a, ?_, hae⟩)
        (hkept id fun heq => absurd heq hid)
      exact (Function.update_of_ne hne _ _).trans ha
  · by_cases hlatest : id = p.session_id ∧ p.number = w.latest id
    · refine .inl ?_
      change w.latest id ≤ Function.update w.written p.session_id _ id
      rw [hlatest.1, Function.update_self, ← hlatest.1, ← hlatest.2]
      exact le_max_right _ _
    · refine (h.newest id e he).imp (fun hnew => hnew.trans (hwritten id))
        (hkept id fun heq hnumber => hlatest ⟨heq, hnumber⟩)
  · by_cases heq : caller' = caller
    · have hnone : (w.write site caller p).pending caller = none := Function.update_self _ _ _
      rw [heq, hnone] at hq
      cases hq
    · have hsame : (w.write site caller p).pending caller' = w.pending caller' :=
        Function.update_of_ne heq _ _
      exact h.pending caller' q (hsame.symm.trans hq)

/-- **A step.** -/
theorem World.Inv.step {s : Step} (h : w.Inv site) (hok : InOrder site w s) :
    (w.step site s).Inv site := by
  cases s with
  | change caller call now =>
      unfold World.step
      dsimp only
      split
      · exact h
      · rename_i hnone
        have hcaller : w.pending caller = none := by simpa using hnone
        unfold World.change
        rcases mutate_cases site.resolve now w.index call with heq | ⟨a, heq, ha⟩ | ⟨e, e', heq, he, hsame⟩
        · rw [heq]
          exact h
        · rw [heq]
          exact h.set hcaller (ha (fun e he => h.notBlank _ e he) hok)
        · rw [heq]
          exact h.touched he hsame
  | write caller =>
      unfold World.step
      dsimp only
      cases hp : w.pending caller with
      | none => exact h
      | some p => exact h.write hp hok

/-! ## 4. Runs -/

/-- No registered session is dropped, and once all calls have finished a
resume reads the mode and the agent of every entry. -/
structure World.Saved (site : Site) (w : World) : Prop where
  registered : ∀ id ∈ w.registered, id ∈ w.index.map Prod.fst
  mode : (∀ caller, w.pending caller = none) → ∀ id e, assocGet id w.index = some e →
    w.loadSessionMode site id = strField "mode" e
  agent : (∀ caller, w.pending caller = none) → ∀ id e, assocGet id w.index = some e →
    w.loadSessionAgent site id = strField "agent" e

theorem World.Inv.saved (h : w.Inv site) : w.Saved site := by
  have hfresh : (∀ caller, w.pending caller = none) → ∀ id e, assocGet id w.index = some e →
      w.Fresh site id e := by
    intro hquiet id e he
    rcases h.fresh id e he with hfresh | ⟨caller, p, hp, -, -⟩
    · exact hfresh
    · rw [hquiet caller] at hp
      cases hp
  refine ⟨h.registered, fun hquiet id e he => ?_, fun hquiet id e he => ?_⟩
  · obtain ⟨a, ha, hsame⟩ := hfresh hquiet id e he
    rw [World.loadSessionMode, ha, Option.bind_some, hsame.1]
    exact (h.notBlank id e he).1
  · obtain ⟨a, ha, hsame⟩ := hfresh hquiet id e he
    rw [World.loadSessionAgent, ha, Option.bind_some, hsame.2]
    exact (h.notBlank id e he).2

/-- **The saved mode and agent are the last ones set** in every run whose
writes come in the order of the changes. -/
theorem mode_and_agent_saved (site : Site) (steps : List Step)
    (h : Runs.RunOk (World.step site) (InOrder site) {} steps) (k : Nat) :
    ((steps.take k).foldl (World.step site) {}).Saved site :=
  (h.invariant (fun _ _ hinv hok => hinv.step hok) (World.inv_init site) k).saved

instance (a b : Metadata) : Decidable (SameFields a b) := inferInstanceAs (Decidable (_ ∧ _))

instance (call : SessionCall) : Decidable call.Sets :=
  match call with
  | .registerSession _ _ _ => inferInstanceAs (Decidable True)
  | .updateSessionMode _ _ => inferInstanceAs (Decidable (_ ≠ _))
  | .updateSessionAgent _ _ => inferInstanceAs (Decidable (_ ≠ _))
  | .touchSession _ => inferInstanceAs (Decidable True)

instance (s : Step) : Decidable (InOrder site w s) :=
  match s with
  | .change _ call _ => inferInstanceAs (Decidable call.Sets)
  | .write caller => inferInstanceAs (Decidable (∀ p ∈ w.pending caller, _ ∧ _))

def sampleSite : Site where
  resolve path := path
  place session_id := session_id

/-- A session, whose mode and agent two processes set; the writes come in this
order of the callers. -/
def sampleRun (first second : Nat) : List Step :=
  [.change 0 (.registerSession "s1" "/work" "m") PyFloat.zero, .write 0,
    .change 1 (.updateSessionMode "s1" "Yolo") PyFloat.zero,
    .change 2 (.updateSessionAgent "s1" "reviewer") PyFloat.zero, .write first, .write second]

theorem mode_and_agent_saved_raced :
    (((sampleRun 1 2).take 6).foldl (World.step sampleSite) {}).Saved sampleSite :=
  mode_and_agent_saved sampleSite (sampleRun 1 2) (by decide) 6

/-- The older copy is written last, and the agent is gone. -/
theorem not_saved_reversed : ¬ ∀ (site : Site) (steps : List Step),
    (steps.foldl (World.step site) {}).Saved site := by
  intro hall
  let raced : World := (sampleRun 2 1).foldl (World.step sampleSite) {}
  have hsaved : raced.Saved sampleSite := hall sampleSite (sampleRun 2 1)
  have hquiet : ∀ caller, raced.pending caller = none := by
    intro caller
    match caller with
    | 0 => rfl
    | 1 => rfl
    | 2 => rfl
    | _ + 3 => rfl
  have hentry : (assocGet "s1" raced.index).map (strField "agent") = some (some "reviewer") := by
    decide
  obtain ⟨e, he, hagent⟩ := Option.map_eq_some_iff.mp hentry
  have hread := hsaved.agent hquiet "s1" e he
  have hnone : raced.loadSessionAgent sampleSite "s1" = none := by decide
  rw [hnone, hagent] at hread
  cases hread

end Agenthicc.Tui
