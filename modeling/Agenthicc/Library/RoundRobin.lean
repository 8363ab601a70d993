/-
Agenthicc.Library.RoundRobin — several queues served in turn.

Every round serves each queue once, in the order of `turns`, and a queue that
has run out is passed over. Rounds follow each other until one serves nothing.
The results are about every prefix of what was served: a queue is served in
its own order and completely, two queues that are both still waiting have been
served equally often up to one, and the queue whose turn is last waits for all
the others.
-/
import Mathlib.Data.List.Basic
import Mathlib.Data.List.Count
import Mathlib.Data.List.Perm.Lattice
import Mathlib.Data.List.Infix
import Mathlib.Data.List.Nodup

namespace RoundRobin

variable {ι α : Type}

/-! ## 1. Rounds -/

/-- What the round with number `n` serves. -/
def round (queue : ι → List α) (turns : List ι) (n : Nat) : List α :=
  turns.filterMap fun i => (queue i)[n]?

/-- Rounds from number `n` on, until one of them serves nothing. -/
def rounds (queue : ι → List α) (turns : List ι) : (fuel n : Nat) → List α
  | 0, _ => []
  | fuel + 1, n =>
      let added := round queue turns n
      if added.isEmpty then [] else added ++ rounds queue turns fuel (n + 1)

variable {queue : ι → List α} {turns : List ι}

theorem mem_round {n : Nat} {x : α} :
    x ∈ round queue turns n ↔ ∃ i ∈ turns, (queue i)[n]? = some x := by
  simp [round]

/-- After a round that served nothing no round serves anything. -/
theorem round_eq_nil {n m : Nat} (h : round queue turns n = []) (hle : n ≤ m) :
    round queue turns m = [] := by
  rw [round, List.filterMap_eq_nil_iff] at h ⊢
  intro i hi
  have hn := List.getElem?_eq_none_iff.mp (h i hi)
  exact List.getElem?_eq_none_iff.mpr (Nat.le_trans hn hle)

theorem rounds_eq_flatMap (fuel n : Nat) :
    rounds queue turns fuel n = (List.range fuel).flatMap fun k => round queue turns (n + k) := by
  induction fuel generalizing n with
  | zero => rfl
  | succ fuel ih =>
    have hrest : (fun k => round queue turns (n + (k + 1)))
        = fun k => round queue turns (n + 1 + k) := by
      funext k
      rw [Nat.add_assoc, Nat.add_comm 1 k]
    rw [rounds, List.range_succ_eq_map, List.flatMap_cons, List.flatMap_map]
    cases hempty : (round queue turns n).isEmpty with
    | true =>
      rw [List.isEmpty_iff] at hempty
      change [] = round queue turns n ++ _
      rw [hempty, List.nil_append, eq_comm, List.flatMap_eq_nil_iff]
      exact fun k _ => round_eq_nil hempty (Nat.le_add_right n _)
    | false =>
      change round queue turns n ++ _ = round queue turns n ++ _
      rw [ih (n + 1), ← hrest]

/-! ## 2. One queue -/

section Served

variable [DecidableEq ι] {key : α → ι}

/-- The served ones of one queue. -/
def served (key : α → ι) (i : ι) (out : List α) : List α := out.filter fun x => key x = i

@[simp] theorem served_nil (i : ι) : served key i [] = [] := rfl

@[simp] theorem served_append (i : ι) (xs ys : List α) :
    served key i (xs ++ ys) = served key i xs ++ served key i ys :=
  List.filter_append xs ys

/-- Every element of a queue knows its queue. -/
def Keyed (key : α → ι) (queue : ι → List α) : Prop := ∀ i, ∀ x ∈ queue i, key x = i

omit [DecidableEq ι] in
theorem Keyed.get (h : Keyed key queue) {i : ι} {n : Nat} {x : α} (hx : (queue i)[n]? = some x) :
    key x = i := h i x (List.mem_of_getElem? hx)

theorem served_round_not_mem (h : Keyed key queue) {i : ι} (hi : i ∉ turns) (n : Nat) :
    served key i (round queue turns n) = [] := by
  rw [served, List.filter_eq_nil_iff]
  intro x hx
  obtain ⟨j, hj, hget⟩ := mem_round.mp hx
  rw [decide_eq_true_eq, h.get hget]
  exact fun hji => hi (hji ▸ hj)

theorem served_round (h : Keyed key queue) (hturns : turns.Nodup) {i : ι} (hi : i ∈ turns) (n : Nat) :
    served key i (round queue turns n) = (queue i)[n]?.toList := by
  induction turns with
  | nil => cases hi
  | cons j rest ih =>
    have hsplit : round queue (j :: rest) n = (queue j)[n]?.toList ++ round queue rest n := by
      rw [round, List.filterMap_cons]
      cases (queue j)[n]? <;> rfl
    rw [hsplit, served_append]
    rw [List.nodup_cons] at hturns
    by_cases hij : i = j
    · subst hij
      rw [served_round_not_mem h hturns.1, List.append_nil]
      cases hget : (queue i)[n]? with
      | none => rfl
      | some x => simp [served, h.get hget]
    · have hrest : i ∈ rest := (List.mem_cons.mp hi).resolve_left hij
      rw [ih hturns.2 hrest]
      cases hget : (queue j)[n]? with
      | none => rfl
      | some x =>
        have hx : key x ≠ i := by
          rw [h.get hget]
          exact fun hji => hij hji.symm
        simp [served, hx]

theorem served_flatMap (h : Keyed key queue) (hturns : turns.Nodup) {i : ι} (hi : i ∈ turns) (n : Nat) :
    served key i ((List.range n).flatMap (round queue turns)) = (queue i).take n := by
  induction n with
  | zero => simp
  | succ n ih =>
    rw [List.range_succ, List.flatMap_append, served_append, ih, List.flatMap_singleton,
      served_round h hturns hi, List.take_add_one]

/-! ## 3. All queues -/

/-- Enough rounds serve a queue completely and in its own order. -/
theorem served_rounds (h : Keyed key queue) (hturns : turns.Nodup) {i : ι} (hi : i ∈ turns)
    {fuel : Nat} (hfuel : (queue i).length ≤ fuel) :
    served key i (rounds queue turns fuel 0) = queue i := by
  rw [rounds_eq_flatMap]
  simp only [Nat.zero_add]
  rw [served_flatMap h hturns hi, List.take_of_length_le hfuel]

theorem served_rounds_not_mem (h : Keyed key queue) {i : ι} (hi : i ∉ turns) {fuel n : Nat} :
    served key i (rounds queue turns fuel n) = [] := by
  rw [rounds_eq_flatMap, served, List.filter_flatMap, List.flatMap_eq_nil_iff]
  exact fun k _ => served_round_not_mem h hi (n + k)

/-- A beginning of the rounds is some whole rounds and a beginning of the
next. -/
theorem prefix_flatMap {f : Nat → List α} {pre : List α} {fuel : Nat}
    (h : pre <+: (List.range fuel).flatMap f) :
    ∃ n t, pre = (List.range n).flatMap f ++ t ∧ t <+: f n := by
  induction fuel with
  | zero =>
    rw [List.range_zero, List.flatMap_nil, List.prefix_nil] at h
    exact ⟨0, [], by simp [h], List.nil_prefix⟩
  | succ fuel ih =>
    rw [List.range_succ, List.flatMap_append, List.flatMap_singleton] at h
    cases List.prefix_or_prefix_of_prefix h (List.prefix_append _ (f fuel)) with
    | inl hin => exact ih hin
    | inr hout =>
      obtain ⟨t, rfl⟩ := hout
      exact ⟨fuel, t, rfl, List.prefix_append_right_inj _ |>.mp h⟩

/-- **Balance.** In every beginning of the rounds, two queues of which
something is still to be served have been served equally often up to one. -/
theorem served_balanced (h : Keyed key queue) (hturns : turns.Nodup) {i j : ι} (hi : i ∈ turns)
    (hj : j ∈ turns) {pre : List α} {fuel : Nat} (hpre : pre <+: rounds queue turns fuel 0)
    (hleft : (served key i pre).length < (queue i).length)
    (hleft' : (served key j pre).length < (queue j).length) :
    (served key i pre).length ≤ (served key j pre).length + 1 := by
  rw [rounds_eq_flatMap] at hpre
  simp only [Nat.zero_add] at hpre
  obtain ⟨n, t, rfl, ht⟩ := prefix_flatMap hpre
  have hone : (served key i t).length ≤ 1 := by
    have hle := (ht.sublist.filter fun x => key x = i).length_le
    change (served key i t).length ≤ (served key i (round queue turns n)).length at hle
    rw [served_round h hturns hi] at hle
    exact hle.trans Option.length_toList_le
  rw [served_append, List.length_append, served_flatMap h hturns hi, List.length_take] at hleft ⊢
  rw [served_append, List.length_append, served_flatMap h hturns hj, List.length_take] at hleft' ⊢
  omega

/-- **The last turn.** Every other queue with an element comes before the
queue whose turn is last. -/
theorem exists_before_last (h : Keyed key queue) {init : List ι} {last i : ι}
    (hturns : (init ++ [last]).Nodup) (hi : i ∈ init) (hne : queue i ≠ []) {fuel : Nat}
    {pre post : List α} {x : α} (hx : key x = last)
    (hout : rounds queue (init ++ [last]) (fuel + 1) 0 = pre ++ x :: post) :
    ∃ y ∈ pre, key y = i := by
  obtain ⟨y, ys, hqueue⟩ := List.exists_cons_of_ne_nil hne
  have hy : y ∈ round queue init 0 := mem_round.mpr ⟨i, hi, by rw [hqueue]; rfl⟩
  have hinit : ∀ z ∈ round queue init 0, key z ≠ last := by
    intro z hz hkey
    obtain ⟨j, hj, hget⟩ := mem_round.mp hz
    have hjlast : j = last := (h.get hget).symm.trans hkey
    rw [List.nodup_append] at hturns
    exact hturns.2.2 j hj last (List.mem_singleton_self last) hjlast
  -- the turns before the last come first in the first round
  obtain ⟨rest, hrest⟩ : ∃ rest, rounds queue (init ++ [last]) (fuel + 1) 0
      = round queue init 0 ++ rest := by
    have hround : round queue (init ++ [last]) 0 = round queue init 0 ++ round queue [last] 0 :=
      List.filterMap_append
    rw [rounds_eq_flatMap, List.range_succ_eq_map, List.flatMap_cons, Nat.add_zero, hround,
      List.append_assoc]
    exact ⟨_, rfl⟩
  rw [hrest] at hout
  have hle : (round queue init 0).length ≤ pre.length := by
    by_contra hlt
    have hlt : pre.length < (round queue init 0).length := Nat.lt_of_not_le hlt
    have hx' : (round queue init 0)[pre.length] = x := by
      have hget := congrArg (fun l => l[pre.length]?) hout
      simp only [List.getElem?_append_left hlt, List.getElem?_append_right (Nat.le_refl _),
        Nat.sub_self, List.getElem?_cons_zero] at hget
      exact (List.getElem?_eq_some_iff.mp hget).2
    exact hinit x (hx' ▸ List.getElem_mem hlt) hx
  have hpre : round queue init 0 <+: pre :=
    List.prefix_of_prefix_length_le ⟨rest, hout⟩ ⟨x :: post, rfl⟩ hle
  refine ⟨y, hpre.subset hy, h i y ?_⟩
  rw [hqueue]
  exact List.mem_cons_self

end Served

end RoundRobin
