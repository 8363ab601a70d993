/-
Agenthicc.Tools.SandboxTheorems — when the limits of the process come back.

Two things spoil the restoring. Setting a soft limit under an unlimited hard
one lowers the hard limit, for `max(soft, -1)` is the soft limit, and nothing
raises it again. And a call that begins under the limits of another one
restores those: if it ends last, they stay. Under the condition that neither
happens, the limits are the original ones whenever no call is open.
-/
import Agenthicc.Tools.Sandbox
import Mathlib.Data.List.Nodup
import Mathlib.Data.BitVec

namespace Agenthicc.Tools

/-! ## 1. `setrlimit` -/

theorem asRlim_toInt (x : BitVec 64) : asRlim x.toInt = some x := by
  have hlo : -2 ^ 63 ≤ x.toInt := BitVec.le_toInt x
  have hhi : x.toInt < 2 ^ 63 := BitVec.toInt_lt
  rw [asRlim, if_pos ⟨hlo, hhi⟩, BitVec.ofInt_toInt]

theorem asRlim_eq_some {n : Int} {x : BitVec 64} (h : asRlim n = some x) :
    -2 ^ 63 ≤ n ∧ n < 2 ^ 63 ∧ x = BitVec.ofInt 64 n := by
  rw [asRlim] at h
  split at h
  · rename_i hr
    cases h
    exact ⟨hr.1, hr.2, rfl⟩
  · cases h

theorem toNat_ofInt_nonneg {n : Int} (h : 0 ≤ n) (hlt : n < 2 ^ 63) :
    ((BitVec.ofInt 64 n).toNat : Int) = n := by
  rw [BitVec.toNat_ofInt]
  omega

theorem toNat_ofInt_neg {n : Int} (h : n < 0) (hge : -2 ^ 63 ≤ n) :
    ((BitVec.ofInt 64 n).toNat : Int) = n + 2 ^ 64 := by
  rw [BitVec.toNat_ofInt]
  omega

/-- The unsigned number of a limit that Python reads as `x.toInt`. -/
theorem toNat_eq (x : BitVec 64) :
    (x.toNat : Int) = if x.toInt < 0 then x.toInt + 2 ^ 64 else x.toInt := by
  rw [BitVec.toInt_eq_toNat_cond]
  have := x.isLt
  split <;> split <;> omega

/-- A soft limit that takes a hard limit down with it: the hard limit is
unlimited (or any number that Python reads as a negative one). -/
def Rlimit.lowers (v : Rlimit) (soft : Int) : Bool := v.hard.toInt < 0 ∧ 0 ≤ soft ∧ soft < 2 ^ 63

theorem setrlimit_le {current v : Rlimit} {soft hard : Int} (h : setrlimit current soft hard = .ok v) :
    v.hard ≤ current.hard := by
  unfold setrlimit at h
  split at h
  · split at h
    · split at h
      · rename_i hle
        cases h
        exact hle
      · cases h
    · cases h
  · cases h

/-- What was saved under the same hard limit is set again. -/
theorem setrlimit_saved {current v : Rlimit} (h : v.hard = current.hard) :
    setrlimit current v.soft.toInt v.hard.toInt = .ok v := by
  simp only [setrlimit, asRlim_toInt]
  rw [dif_pos v.soft_le, if_pos (BitVec.le_of_eq h)]

theorem setrlimit_eq_ok {current v : Rlimit} {soft hard : Int}
    (h : setrlimit current soft hard = .ok v) :
    asRlim soft = some v.soft ∧ asRlim hard = some v.hard ∧ v.hard ≤ current.hard := by
  refine ⟨?_, ?_, setrlimit_le h⟩ <;>
  · unfold setrlimit at h
    split at h
    · rename_i hs hh
      split at h
      · split at h
        · cases h
          assumption
        · cases h
      · cases h
    · cases h

theorem setrlimit_hard {current v : Rlimit} {soft : Int}
    (h : setrlimit current soft (max soft current.hard.toInt) = .ok v)
    (hlow : current.lowers soft = false) : v.hard = current.hard := by
  obtain ⟨-, hh, hle⟩ := setrlimit_eq_ok h
  by_cases hmax : soft ≤ current.hard.toInt
  · rw [max_eq_right hmax, asRlim_toInt] at hh
    exact (Option.some_inj.mp hh).symm
  · -- a raised hard limit is refused, unless the old one counts as negative
    have hlt : current.hard.toInt < soft := not_le.mp hmax
    rw [max_eq_left hlt.le] at hh
    obtain ⟨hlo, hhi, hv⟩ := asRlim_eq_some hh
    have hle' : v.hard.toNat ≤ current.hard.toNat := hle
    have hcur := toNat_eq current.hard
    simp only [Rlimit.lowers, decide_eq_false_iff_not, not_and, not_lt] at hlow
    by_cases hneg : soft < 0
    · have hsoft := toNat_ofInt_neg hneg hlo
      rw [← hv] at hsoft
      split at hcur <;> omega
    · have hsoft := toNat_ofInt_nonneg (not_lt.mp hneg) hhi
      rw [← hv] at hsoft
      split at hcur <;> omega

theorem setrlimit_lowers {current : Rlimit} {soft : Int} (hlow : current.lowers soft = true) :
    ∃ v, setrlimit current soft (max soft current.hard.toInt) = .ok v ∧ v.hard < current.hard := by
  rw [Rlimit.lowers, decide_eq_true_eq] at hlow
  obtain ⟨hneg, hpos, hlt⟩ := hlow
  have hsoft := toNat_ofInt_nonneg hpos hlt
  have hcur := toNat_eq current.hard
  rw [if_pos hneg] at hcur
  have hhard : -2 ^ 63 ≤ current.hard.toInt := BitVec.le_toInt current.hard
  have hbelow : BitVec.ofInt 64 soft < current.hard := by
    rw [BitVec.lt_def]
    omega
  have hrlim : asRlim soft = some (BitVec.ofInt 64 soft) := if_pos ⟨by omega, hlt⟩
  refine ⟨⟨_, _, BitVec.le_refl (BitVec.ofInt 64 soft)⟩, ?_, hbelow⟩
  rw [max_eq_left (hneg.le.trans hpos)]
  simp only [setrlimit, hrlim]
  rw [dif_pos (BitVec.le_refl _), if_pos (BitVec.le_of_lt hbelow)]
/-! ## 2. One call -/

/-- The setting of the limits takes no hard limit down. -/
def keepsHard : List (Resource × Int) → Rlimits → Bool
  | [], _ => true
  | (r, soft) :: rest, rlimits =>
      !(rlimits r).lowers soft &&
        match setrlimit (rlimits r) soft (max soft (rlimits r).hard.toInt) with
        | .ok v => keepsHard rest (Function.update rlimits r v)
        | .error _ => true

/-- The resources a call restores. -/
def Saved.resources (saved : Saved) : List Resource := saved.map Prod.fst

theorem nodup_requested (limits : ResourceLimits) : (limits.requested.map Prod.fst).Nodup := by
  obtain ⟨cpu, memory⟩ := limits
  cases cpu <;> cases memory <;> simp [ResourceLimits.requested]

/-- What the setting of the limits does: it saves what was there, each
resource once, and changes only what it saved. -/
structure Applied (before after : Rlimits) (saved : Saved) : Prop where
  nodup : saved.resources.Nodup
  saved_eq : ∀ e ∈ saved, e.2 = before e.1
  unchanged : ∀ r ∉ saved.resources, after r = before r

theorem applyLimits_saved {reqs : List (Resource × Int)} (hreqs : (reqs.map Prod.fst).Nodup)
    (rlimits : Rlimits) (saved : Saved) :
    ∃ new : Saved, (applyLimits reqs rlimits saved).2.1 = saved ++ new
      ∧ (∀ r ∈ new.resources, r ∈ reqs.map Prod.fst)
      ∧ Applied rlimits (applyLimits reqs rlimits saved).1 new := by
  induction reqs generalizing rlimits saved with
  | nil =>
    exact ⟨[], (List.append_nil _).symm, by simp [Saved.resources],
      ⟨List.nodup_nil, by simp, fun _ _ => rfl⟩⟩
  | cons req rest ih =>
    obtain ⟨r, soft⟩ := req
    rw [List.map_cons, List.nodup_cons] at hreqs
    have hone : Applied rlimits rlimits [(r, rlimits r)] :=
      ⟨List.nodup_singleton r, by simp, fun _ _ => rfl⟩
    rw [applyLimits]
    split
    · rename_i v _
      obtain ⟨new, hnew, hsub, happlied⟩ := ih hreqs.2 (Function.update rlimits r v)
        (saved ++ [(r, rlimits r)])
      have hr : r ∉ Saved.resources new := fun h => hreqs.1 (hsub r h)
      refine ⟨(r, rlimits r) :: new, by rw [hnew, List.append_assoc]; rfl, ?_, ?_, ?_, ?_⟩
      · intro q hq
        cases hq with
        | head => exact List.mem_cons_self
        | tail _ hq => exact List.mem_cons_of_mem _ (hsub q hq)
      · exact List.nodup_cons.mpr ⟨hr, happlied.nodup⟩
      · intro e he
        cases he with
        | head => rfl
        | tail _ he =>
          have hne : e.1 ≠ r := fun h => hr (h ▸ List.mem_map_of_mem he)
          rw [happlied.saved_eq e he, Function.update_of_ne hne]
      · intro q hq
        have hq' := not_or.mp (mt List.mem_cons.mpr hq)
        rw [happlied.unchanged q hq'.2, Function.update_of_ne hq'.1]
    · exact ⟨[(r, rlimits r)], rfl, by simp [Saved.resources], hone⟩
    · exact ⟨[(r, rlimits r)], rfl, by simp [Saved.resources], hone⟩

/-- Where no hard limit is taken down, all of them are kept. -/
theorem applyLimits_hard {reqs : List (Resource × Int)} {rlimits : Rlimits}
    (h : keepsHard reqs rlimits = true) (saved : Saved) (r : Resource) :
    ((applyLimits reqs rlimits saved).1 r).hard = (rlimits r).hard := by
  induction reqs generalizing rlimits saved with
  | nil => rfl
  | cons req rest ih =>
    obtain ⟨q, soft⟩ := req
    rw [keepsHard, Bool.and_eq_true, Bool.not_eq_true'] at h
    rw [applyLimits]
    split
    · rename_i v hset
      rw [hset] at h
      rw [ih h.2]
      by_cases hq : r = q
      · subst hq
        rw [Function.update_self, setrlimit_hard hset h.1]
      · rw [Function.update_of_ne hq]
    · rfl
    · rfl

theorem update_le {rlimits : Rlimits} {q : Resource} {v : Rlimit} (h : v.hard ≤ (rlimits q).hard)
    (r : Resource) : (Function.update rlimits q v r).hard ≤ (rlimits r).hard := by
  by_cases hq : r = q
  · subst hq
    rw [Function.update_self]
    exact h
  · rw [Function.update_of_ne hq]
    exact BitVec.le_refl _

theorem applyLimits_le (reqs : List (Resource × Int)) (rlimits : Rlimits) (saved : Saved)
    (r : Resource) : ((applyLimits reqs rlimits saved).1 r).hard ≤ (rlimits r).hard := by
  induction reqs generalizing rlimits saved with
  | nil => exact BitVec.le_refl _
  | cons req rest ih =>
    obtain ⟨q, soft⟩ := req
    rw [applyLimits]
    split
    · rename_i v hset
      exact BitVec.le_trans (ih _ _) (update_le (setrlimit_le hset) r)
    · exact BitVec.le_refl _
    · exact BitVec.le_refl _

theorem applyLimits_lt {reqs : List (Resource × Int)} {rlimits : Rlimits}
    (h : keepsHard reqs rlimits = false) (saved : Saved) :
    ∃ r, ((applyLimits reqs rlimits saved).1 r).hard < (rlimits r).hard := by
  induction reqs generalizing rlimits saved with
  | nil => cases h
  | cons req rest ih =>
    obtain ⟨q, soft⟩ := req
    rw [keepsHard] at h
    rw [applyLimits]
    by_cases hlow : (rlimits q).lowers soft = true
    · obtain ⟨v, hset, hlt⟩ := setrlimit_lowers hlow
      rw [hset]
      refine ⟨q, Nat.lt_of_le_of_lt (applyLimits_le _ _ _ q) ?_⟩
      rw [Function.update_self]
      exact hlt
    · rw [Bool.not_eq_true] at hlow
      rw [hlow, Bool.not_false, Bool.true_and] at h
      split at h
      · rename_i v hset
        rw [hset]
        obtain ⟨r, hr⟩ := ih h (saved ++ [(q, rlimits q)])
        exact ⟨r, Nat.lt_of_lt_of_le hr (update_le (setrlimit_le hset) r)⟩
      · cases h

theorem restore_le (rlimits : Rlimits) (saved : Saved) (r : Resource) :
    (restore rlimits saved r).hard ≤ (rlimits r).hard := by
  rw [restore]
  induction saved.reverse generalizing rlimits with
  | nil => exact BitVec.le_refl _
  | cons entry rest ih =>
    refine BitVec.le_trans (ih (restoreOne rlimits entry)) ?_
    unfold restoreOne
    cases hset : setrlimit (rlimits entry.1) entry.2.soft.toInt entry.2.hard.toInt with
    | ok v => exact update_le (setrlimit_le hset) r
    | error exc => exact BitVec.le_refl _

theorem foldl_restoreOne {entries : Saved} {rlimits : Rlimits} (hnodup : entries.resources.Nodup)
    (hhard : ∀ e ∈ entries, e.2.hard = (rlimits e.1).hard) :
    (∀ e ∈ entries, entries.foldl restoreOne rlimits e.1 = e.2)
      ∧ ∀ r ∉ entries.resources, entries.foldl restoreOne rlimits r = rlimits r := by
  induction entries generalizing rlimits with
  | nil => exact ⟨by simp, fun _ _ => rfl⟩
  | cons entry rest ih =>
    have hone : restoreOne rlimits entry = Function.update rlimits entry.1 entry.2 := by
      rw [restoreOne, setrlimit_saved (hhard entry List.mem_cons_self)]
    rw [Saved.resources, List.map_cons, List.nodup_cons] at hnodup
    have hrest : ∀ e ∈ rest, e.1 ≠ entry.1 := fun e he h =>
      hnodup.1 (h ▸ List.mem_map_of_mem he)
    have hhard' : ∀ e ∈ rest, e.2.hard = (restoreOne rlimits entry e.1).hard := by
      intro e he
      rw [hone, Function.update_of_ne (hrest e he)]
      exact hhard e (List.mem_cons_of_mem _ he)
    obtain ⟨hin, hout⟩ := ih hnodup.2 hhard'
    rw [List.foldl_cons]
    refine ⟨fun e he => ?_, fun r hr => ?_⟩
    · cases he with
      | head => rw [hout entry.1 hnodup.1, hone, Function.update_self]
      | tail _ he => exact hin e he
    · have hr' := not_or.mp (mt List.mem_cons.mpr hr)
      rw [hout r hr'.2, hone, Function.update_of_ne hr'.1]

theorem restore_spec {saved : Saved} (rlimits : Rlimits) (hnodup : saved.resources.Nodup)
    (hhard : ∀ e ∈ saved, e.2.hard = (rlimits e.1).hard) :
    (∀ e ∈ saved, restore rlimits saved e.1 = e.2)
      ∧ ∀ r ∉ saved.resources, restore rlimits saved r = rlimits r := by
  have hreverse : Saved.resources saved.reverse = saved.resources.reverse := List.map_reverse
  have hrev : (Saved.resources saved.reverse).Nodup := by
    rw [hreverse, List.nodup_reverse]
    exact hnodup
  obtain ⟨hin, hout⟩ := foldl_restoreOne hrev fun e he => hhard e (List.mem_reverse.mp he)
  refine ⟨fun e he => hin e (List.mem_reverse.mpr he), fun r hr => hout r ?_⟩
  rw [hreverse, List.mem_reverse]
  exact hr

theorem restore_applied {before after : Rlimits} {saved : Saved} (h : Applied before after saved)
    (hhard : ∀ r, (after r).hard = (before r).hard) : restore after saved = before := by
  have hsaved : ∀ e ∈ saved, e.2.hard = (after e.1).hard := fun e he => by
    rw [h.saved_eq e he, hhard]
  obtain ⟨hin, hout⟩ := restore_spec _ h.nodup hsaved
  funext r
  by_cases hr : r ∈ saved.resources
  · obtain ⟨e, he, rfl⟩ := List.mem_map.mp hr
    rw [hin e he, h.saved_eq e he]
  · rw [hout r hr, h.unchanged r hr]

/-! ## 3. Runs -/

/-- What is not found first stays when the first one is taken out. -/
theorem eq_or_mem_eraseP {α : Type} {pred : α → Bool} {xs : List α} {a c : α}
    (hfind : xs.find? pred = some a) (hc : c ∈ xs) : c = a ∨ c ∈ xs.eraseP pred := by
  induction xs with
  | nil => cases hc
  | cons x xs ih =>
    cases hx : pred x with
    | true =>
      rw [List.find?_cons_of_pos hx, Option.some_inj] at hfind
      rw [List.eraseP_cons_of_pos hx, ← hfind]
      exact List.mem_cons.mp hc
    | false =>
      have hneg : ¬ pred x = true := by simp [hx]
      rw [List.find?_cons_of_neg hneg] at hfind
      rw [List.eraseP_cons_of_neg hneg]
      cases hc with
      | head => exact .inr List.mem_cons_self
      | tail _ hc => exact (ih hfind hc).imp id (List.mem_cons_of_mem x)

namespace Process

/-- The condition on a step. A call that begins takes no hard limit down. A
call that ends, and that no other open call shares a resource with, found the
original soft limit of that resource when it began. -/
def ok (original : Rlimits) (p : Process) : Event → Bool
  | .begin _ limits => keepsHard limits.requested p.rlimits
  | .finish call =>
      match p.calls.find? fun entry => entry.1 = call with
      | some entry =>
          entry.2.all fun e =>
            ((p.calls.eraseP fun entry => entry.1 = call).any fun other =>
              other.2.resources.contains e.1) || e.2.soft = (original e.1).soft
      | none => true

/-- All hard limits are the original ones, also the saved ones, and a resource
that no open call limits has its original limits. -/
structure Inv (original : Rlimits) (p : Process) : Prop where
  hard : ∀ r, (p.rlimits r).hard = (original r).hard
  free : ∀ r, (∀ c ∈ p.calls, r ∉ c.2.resources) → p.rlimits r = original r
  nodup : ∀ c ∈ p.calls, c.2.resources.Nodup
  saved : ∀ c ∈ p.calls, ∀ e ∈ c.2, e.2.hard = (original e.1).hard

theorem inv_fresh (original : Rlimits) : Inv original (fresh original) :=
  ⟨fun _ => rfl, fun _ _ => rfl, by simp [fresh], by simp [fresh]⟩

theorem inv_begin {original : Rlimits} {p : Process} (h : Inv original p) {call : Nat}
    {limits : ResourceLimits} (hok : keepsHard limits.requested p.rlimits = true) :
    Inv original (p.step (.begin call limits)) := by
  obtain ⟨new, hnew, -, happlied⟩ := applyLimits_saved (nodup_requested limits) p.rlimits []
  have hhard := applyLimits_hard hok []
  rw [step]
  split
  · rename_i rlimits saved heq
    rw [heq] at hnew happlied hhard
    cases hnew
    refine ⟨fun r => (hhard r).trans (h.hard r), fun r hr => ?_, fun c hc => ?_, fun c hc e he => ?_⟩
    · rw [List.forall_mem_cons] at hr
      exact (happlied.unchanged r hr.1).trans (h.free r hr.2)
    · cases hc with
      | head => exact happlied.nodup
      | tail _ hc => exact h.nodup c hc
    · cases hc with
      | head => rw [happlied.saved_eq e he, h.hard]
      | tail _ hc => exact h.saved c hc e he
  · rename_i rlimits saved heq
    rw [heq] at hnew happlied hhard
    cases hnew
    rw [restore_applied happlied hhard]
    exact h

theorem inv_finish {original : Rlimits} {p : Process} (h : Inv original p) {call : Nat}
    (hok : p.ok original (.finish call) = true) : Inv original (p.step (.finish call)) := by
  rw [step]
  rw [ok] at hok
  split
  · rename_i entry hfind
    rw [hfind] at hok
    have hmem := List.mem_of_find?_eq_some hfind
    have hrest : ∀ c ∈ p.calls.eraseP (fun entry => entry.1 = call), c ∈ p.calls :=
      fun c hc => List.mem_of_mem_eraseP hc
    obtain ⟨hin, hout⟩ := restore_spec p.rlimits (h.nodup entry hmem)
      fun e he => (h.saved entry hmem e he).trans (h.hard e.1).symm
    refine ⟨fun r => ?_, fun r hr => ?_, fun c hc => h.nodup c (hrest c hc),
      fun c hc => h.saved c (hrest c hc)⟩
    · by_cases hr : r ∈ entry.2.resources
      · obtain ⟨e, he, rfl⟩ := List.mem_map.mp hr
        exact (congrArg Rlimit.hard (hin e he)).trans (h.saved entry hmem e he)
      · exact (congrArg Rlimit.hard (hout r hr)).trans (h.hard r)
    · by_cases hre : r ∈ entry.2.resources
      · -- the last of the calls that limit this resource
        obtain ⟨e, he, rfl⟩ := List.mem_map.mp hre
        have hcond := List.all_eq_true.mp hok e he
        rw [Bool.or_eq_true, List.any_eq_true, decide_eq_true_eq] at hcond
        cases hcond with
        | inl hother =>
          obtain ⟨c, hc, hcr⟩ := hother
          exact absurd (List.contains_iff_mem.mp hcr) (hr c hc)
        | inr hsoft =>
          change restore p.rlimits entry.2 e.1 = original e.1
          rw [hin e he]
          exact Rlimit.ext hsoft (h.saved entry hmem e he)
      · change restore p.rlimits entry.2 r = original r
        rw [hout r hre]
        refine h.free r fun c hc => ?_
        cases eq_or_mem_eraseP hfind hc with
        | inl heq => exact heq ▸ hre
        | inr hc' => exact hr c hc'
  · exact h

end Process
namespace Process

open Runs

theorem inv_step {original : Rlimits} (p : Process) (event : Event) (h : Inv original p)
    (hok : p.ok original event = true) : Inv original (p.step event) := by
  cases event with
  | begin call limits => exact inv_begin h hok
  | finish call => exact inv_finish h hok

/-- **The limits come back.** In every run whose steps meet the condition, the
process has its original soft and hard limits whenever no call is open. -/
theorem run_restored {original : Rlimits} {events : List Event}
    (h : RunOk step (fun p event => p.ok original event = true) (fresh original) events) (k : Nat) :
    Restored original ((events.take k).foldl step (fresh original)) := by
  have hinv := RunOk.invariant inv_step (inv_fresh original) h k
  intro hcalls
  funext r
  refine hinv.free r fun c hc => ?_
  rw [hcalls] at hc
  cases hc

/-! ### What is lost -/

theorem hard_step (p : Process) (event : Event) (r : Resource) :
    ((p.step event).rlimits r).hard ≤ (p.rlimits r).hard := by
  cases event with
  | begin call limits =>
    have happly := applyLimits_le limits.requested p.rlimits [] r
    rw [step]
    split <;> rename_i rlimits saved heq <;> rw [heq] at happly
    · exact happly
    · exact BitVec.le_trans (restore_le rlimits saved r) happly
  | finish call =>
    rw [step]
    split
    · exact restore_le _ _ r
    · exact BitVec.le_refl _

theorem hard_run (events : List Event) (p : Process) (r : Resource) :
    ((events.foldl step p).rlimits r).hard ≤ (p.rlimits r).hard := by
  induction events generalizing p with
  | nil => exact BitVec.le_refl _
  | cons event rest ih => exact BitVec.le_trans (ih (p.step event)) (hard_step p event r)

/-- **A hard limit that goes down stays down.** After a call that takes one
down, the limits are never again those it found. -/
theorem lowered_for_good {p : Process} {call : Nat} {limits : ResourceLimits}
    (hlow : keepsHard limits.requested p.rlimits = false) (later : List Event) :
    (later.foldl step (p.step (.begin call limits))).rlimits ≠ p.rlimits := by
  obtain ⟨r, hr⟩ := applyLimits_lt hlow []
  have hbegin : ((p.step (.begin call limits)).rlimits r).hard < (p.rlimits r).hard := by
    rw [step]
    split <;> rename_i rlimits saved heq <;> rw [heq] at hr
    · exact hr
    · exact Nat.lt_of_le_of_lt (restore_le rlimits saved r) hr
  intro heq
  have hlater := hard_run later (p.step (.begin call limits)) r
  rw [heq] at hlater
  exact BitVec.not_lt.mpr hlater hbegin

end Process

/-! ### Runs of two calls -/

/-- Everything unlimited. -/
def unlimited : Rlimits := fun _ => ⟨BitVec.allOnes 64, BitVec.allOnes 64, by decide⟩

/-- Ten seconds, at most twenty. -/
def twentySeconds : Rlimits := fun _ => ⟨10, 20, by decide⟩

def fiveSeconds : ResourceLimits := { cpu_seconds := some 5 }

namespace Process

open Runs

theorem run_restored_nested :
    Restored twentySeconds (([Event.begin 0 fiveSeconds, .begin 1 fiveSeconds, .finish 1,
      .finish 0].take 4).foldl step (fresh twentySeconds)) :=
  run_restored (by decide) 4

/-- One call under no limits leaves a hard limit of five seconds behind. Two
calls that overlap leave the soft limit of the first one behind. -/
theorem limits_left_behind :
    (¬ Restored unlimited ([Event.begin 0 fiveSeconds, .finish 0].foldl step (fresh unlimited)))
      ∧ ¬ Restored twentySeconds ([Event.begin 0 fiveSeconds, .begin 1 fiveSeconds, .finish 0,
          .finish 1].foldl step (fresh twentySeconds)) := by
  refine ⟨fun h => ?_, fun h => ?_⟩
  · have hcpu := congrFun (h rfl) .cpu
    revert hcpu
    decide
  · have hcpu := congrFun (h rfl) .cpu
    revert hcpu
    decide

end Process

end Agenthicc.Tools
