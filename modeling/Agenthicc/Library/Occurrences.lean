/-
Agenthicc.Library.Occurrences — the occurrences of one list in another, from
the left and without overlap.

`pieces sep l` is what stands between them: put together with `sep` it is the
list again, and no piece holds `sep`. Counting and replacing are defined by it.
-/
import Mathlib.Data.List.Infix
import Mathlib.Data.List.Count
import Mathlib.Tactic.Common

namespace Occurrences

variable {α β : Type}

/-! ## 1. Pieces put together -/

/-- An element put before the first piece. -/
def consHead (a : α) : List (List α) → List (List α)
  | [] => [[a]]
  | p :: ps => (a :: p) :: ps

theorem consHead_ne_nil (a : α) (ps : List (List α)) : consHead a ps ≠ [] := by
  cases ps <;> exact List.cons_ne_nil _ _

theorem length_consHead (a : α) {ps : List (List α)} (hps : ps ≠ []) :
    (consHead a ps).length = ps.length := by
  obtain ⟨p, ps, rfl⟩ := List.exists_cons_of_ne_nil hps
  rfl

theorem intercalate_consHead (new : List α) (a : α) {ps : List (List α)} (hps : ps ≠ []) :
    new.intercalate (consHead a ps) = a :: new.intercalate ps := by
  obtain ⟨p, ps, rfl⟩ := List.exists_cons_of_ne_nil hps
  cases ps with
  | nil => simp [consHead]
  | cons q ps => simp [consHead, List.intercalate_cons_cons]

theorem intercalate_nil_cons (new : List α) {ps : List (List α)} (hps : ps ≠ []) :
    new.intercalate ([] :: ps) = new ++ new.intercalate ps := by
  obtain ⟨p, ps, rfl⟩ := List.exists_cons_of_ne_nil hps
  simp [List.intercalate_cons_cons]

theorem intercalate_cons (new p : List α) (ps : List (List α)) :
    new.intercalate (p :: ps) = p ++ ps.flatMap (new ++ ·) := by
  induction ps generalizing p with
  | nil => simp
  | cons q ps ih => rw [List.intercalate_cons_cons, ih, List.flatMap_cons, List.append_assoc, List.append_assoc]

/-- Element by element into other lists: the pieces go along. -/
theorem flatMap_intercalate (f : α → List β) (new : List α) (ps : List (List α)) :
    (new.intercalate ps).flatMap f = (new.flatMap f).intercalate (ps.map fun p => p.flatMap f) := by
  induction ps with
  | nil => simp
  | cons p ps ih =>
    cases ps with
    | nil => simp
    | cons q ps =>
      rw [List.intercalate_cons_cons, List.flatMap_append, List.flatMap_append, ih]
      simp [List.intercalate_cons_cons]

/-- What is in pieces put together is in one of them or stands between them. -/
theorem mem_intercalate {a : α} {new : List α} {ps : List (List α)} (h : a ∈ new.intercalate ps) :
    (∃ p ∈ ps, a ∈ p) ∨ a ∈ new := by
  induction ps with
  | nil => simp at h
  | cons p ps ih =>
    cases ps with
    | nil => exact .inl ⟨p, by simp, by simpa using h⟩
    | cons q ps =>
      rw [List.intercalate_cons_cons, List.mem_append, List.mem_append] at h
      obtain (hp | hnew) | hrest := h
      · exact .inl ⟨p, by simp, hp⟩
      · exact .inr hnew
      · exact (ih hrest).imp (fun ⟨r, hr, ha⟩ => ⟨r, List.mem_cons_of_mem _ hr, ha⟩) id

theorem mem_intercalate_of_mem {a : α} (new : List α) {p : List α} {ps : List (List α)} (hp : p ∈ ps)
    (ha : a ∈ p) :
    a ∈ new.intercalate ps := by
  induction ps with
  | nil => simp at hp
  | cons q ps ih =>
    cases ps with
    | nil =>
      obtain rfl : p = q := by simpa using hp
      simpa using ha
    | cons r ps =>
      rw [List.intercalate_cons_cons, List.mem_append, List.mem_append]
      obtain rfl | hp := List.mem_cons.mp hp
      · exact .inl (.inl ha)
      · exact .inr (ih hp)

theorem mem_intercalate_of_mem_new {a : α} {new : List α} {ps : List (List α)} (ha : a ∈ new)
    (hps : 1 < ps.length) : a ∈ new.intercalate ps := by
  obtain _ | ⟨p, _ | ⟨q, ps⟩⟩ := ps
  · simp at hps
  · simp at hps
  · rw [List.intercalate_cons_cons, List.mem_append, List.mem_append]
    exact .inl (.inr ha)

/-! ## 2. Cutting at the occurrences -/

variable [DecidableEq α]

/-- The pieces of a list, once `skip` more elements are passed over. -/
def cut (sep : List α) : (skip : Nat) → List α → List (List α)
  | _, [] => [[]]
  | skip + 1, _ :: rest => cut sep skip rest
  | 0, a :: rest =>
      if sep <+: a :: rest then [] :: cut sep (sep.length - 1) rest else consHead a (cut sep 0 rest)

/-- What stands between the occurrences. -/
def pieces (sep l : List α) : List (List α) := cut sep 0 l

/-- How many occurrences there are. -/
def count (sep l : List α) : Nat := (pieces sep l).length - 1

/-- Every occurrence replaced. -/
def replace (sep new l : List α) : List α := new.intercalate (pieces sep l)

theorem cut_drop (sep : List α) (skip : Nat) (l : List α) : cut sep skip l = pieces sep (l.drop skip) := by
  induction l generalizing skip with
  | nil => cases skip <;> rfl
  | cons a rest ih =>
    cases skip with
    | zero => rfl
    | succ skip => rw [cut, ih, List.drop_succ_cons]

variable {sep l : List α}

@[simp] theorem pieces_nil (sep : List α) : pieces sep [] = [[]] := rfl

theorem pieces_append (hsep : sep ≠ []) (l : List α) : pieces sep (sep ++ l) = [] :: pieces sep l := by
  obtain ⟨a, rest, rfl⟩ := List.exists_cons_of_ne_nil hsep
  have hfound : a :: rest <+: a :: (rest ++ l) := List.prefix_append (a :: rest) l
  rw [List.cons_append, pieces, cut, if_pos hfound, cut_drop]
  simp

theorem pieces_cons {a : α} (h : ¬ sep <+: a :: l) : pieces sep (a :: l) = consHead a (pieces sep l) := by
  rw [pieces, cut, if_neg h]
  rfl

/-- Along a list, one occurrence or one other element at a time. -/
theorem induction_on (hsep : sep ≠ []) {motive : List α → Prop} (nil : motive [])
    (found : ∀ l, motive l → motive (sep ++ l))
    (cons : ∀ a l, ¬ sep <+: a :: l → motive l → motive (a :: l)) (l : List α) : motive l := by
  generalize hn : l.length = n
  induction n using Nat.strong_induction_on generalizing l with
  | _ n ih =>
    cases l with
    | nil => exact nil
    | cons a rest =>
      by_cases h : sep <+: a :: rest
      · obtain ⟨tail, htail⟩ := h
        have hlen := congrArg List.length htail
        have hpos := List.length_pos_of_ne_nil hsep
        rw [List.length_append] at hlen
        rw [← htail]
        exact found tail (ih tail.length (by omega) tail rfl)
      · rw [List.length_cons] at hn
        exact cons a rest h (ih rest.length (by omega) rest rfl)

theorem pieces_ne_nil (hsep : sep ≠ []) (l : List α) : pieces sep l ≠ [] := by
  induction l using induction_on hsep with
  | nil => simp
  | found l ih => simp [pieces_append hsep]
  | cons a l h ih => simp [pieces_cons h, consHead_ne_nil]

theorem intercalate_pieces (hsep : sep ≠ []) (l : List α) : sep.intercalate (pieces sep l) = l := by
  induction l using induction_on hsep with
  | nil => simp
  | found l ih => rw [pieces_append hsep, intercalate_nil_cons sep (pieces_ne_nil hsep l), ih]
  | cons a l h ih => rw [pieces_cons h, intercalate_consHead sep a (pieces_ne_nil hsep l), ih]

theorem head_pieces_prefix (hsep : sep ≠ []) (l : List α) : ∀ p ∈ (pieces sep l).head?, p <+: l := by
  induction l using induction_on hsep with
  | nil => simp
  | found l ih => simp [pieces_append hsep]
  | cons a l h ih =>
    obtain ⟨p, ps, hps⟩ := List.exists_cons_of_ne_nil (pieces_ne_nil hsep l)
    rw [hps] at ih
    rw [pieces_cons h, hps]
    intro q hq
    obtain rfl : a :: p = q := by simpa [consHead] using hq
    exact (List.prefix_cons_inj a).mpr (ih p (by simp))

theorem not_infix_pieces (hsep : sep ≠ []) (l : List α) : ∀ p ∈ pieces sep l, ¬ sep <:+: p := by
  induction l using induction_on hsep with
  | nil => simpa using hsep
  | found l ih =>
    rw [pieces_append hsep, List.forall_mem_cons]
    exact ⟨by simpa using hsep, ih⟩
  | cons a l h ih =>
    have hfront := head_pieces_prefix hsep l
    obtain ⟨p, ps, hps⟩ := List.exists_cons_of_ne_nil (pieces_ne_nil hsep l)
    rw [hps] at hfront
    rw [hps, List.forall_mem_cons] at ih
    rw [pieces_cons h, hps, consHead, List.forall_mem_cons]
    refine ⟨?_, ih.2⟩
    intro hinfix
    obtain hhead | htail := List.infix_cons_iff.mp hinfix
    · exact h (hhead.trans ((List.prefix_cons_inj a).mpr (hfront p (by simp))))
    · exact ih.1 htail

/-! ## 3. Counting and replacing -/

theorem length_pieces (hsep : sep ≠ []) (l : List α) : (pieces sep l).length = count sep l + 1 := by
  have := List.length_pos_of_ne_nil (pieces_ne_nil hsep l)
  rw [count]
  omega

@[simp] theorem count_nil (sep : List α) : count sep [] = 0 := rfl

@[simp] theorem replace_nil (sep new : List α) : replace sep new [] = [] := by simp [replace]

theorem count_append (hsep : sep ≠ []) (l : List α) : count sep (sep ++ l) = count sep l + 1 := by
  rw [count, pieces_append hsep, List.length_cons, length_pieces hsep]
  rfl

theorem count_cons {a : α} (hsep : sep ≠ []) (h : ¬ sep <+: a :: l) : count sep (a :: l) = count sep l := by
  rw [count, pieces_cons h, length_consHead a (pieces_ne_nil hsep l), count]

theorem replace_append (hsep : sep ≠ []) (new l : List α) :
    replace sep new (sep ++ l) = new ++ replace sep new l := by
  rw [replace, pieces_append hsep, intercalate_nil_cons new (pieces_ne_nil hsep l), replace]

theorem replace_cons {a : α} (hsep : sep ≠ []) (new : List α) (h : ¬ sep <+: a :: l) :
    replace sep new (a :: l) = a :: replace sep new l := by
  rw [replace, pieces_cons h, intercalate_consHead new a (pieces_ne_nil hsep l), replace]

/-! ## 4. The first occurrence -/

/-- Where the first occurrence begins. -/
def find (sep : List α) : List α → Option Nat
  | [] => if sep = [] then some 0 else none
  | a :: l => if sep.isPrefixOf (a :: l) then some 0 else (find sep l).map (· + 1)

theorem find_eq_none {sep l : List α} : find sep l = none ↔ ¬ sep <:+: l := by
  induction l with
  | nil => simp [find, List.infix_nil]
  | cons a l ih =>
    rw [find, List.infix_cons_iff, not_or]
    by_cases h : sep <+: a :: l
    · simp [List.isPrefixOf_iff_prefix.mpr h, h]
    · rw [if_neg (by simpa [List.isPrefixOf_iff_prefix] using h), Option.map_eq_none_iff, ih]
      simp [h]

theorem find_le (sep u v : List α) : ∃ i ≤ u.length, find sep (u ++ sep ++ v) = some i := by
  induction u with
  | nil =>
    cases h : sep ++ v with
    | nil =>
      obtain ⟨rfl, rfl⟩ := List.append_eq_nil_iff.mp h
      exact ⟨0, le_rfl, rfl⟩
    | cons a l =>
      refine ⟨0, le_rfl, ?_⟩
      rw [List.nil_append, h, find, if_pos]
      rw [List.isPrefixOf_iff_prefix, ← h]
      exact List.prefix_append sep v
  | cons a u ih =>
    obtain ⟨i, hi, hfind⟩ := ih
    rw [List.cons_append, List.cons_append, find]
    by_cases h : sep.isPrefixOf (a :: (u ++ sep ++ v)) = true
    · exact ⟨0, Nat.zero_le _, if_pos h⟩
    · exact ⟨i + 1, Nat.succ_le_succ hi, by rw [if_neg h, hfind]; rfl⟩

/-- A list whose first element stands in it once does not overlap with itself. -/
theorem find_append {a : α} {s c : List α} (ha : a ∉ s) (hc : ¬ (a :: s) <:+: c) (r : List α) :
    find (a :: s) (c ++ (a :: s) ++ r) = some c.length := by
  induction c with
  | nil =>
    have hprefix : (a :: s).isPrefixOf (a :: (s ++ r)) = true :=
      List.isPrefixOf_iff_prefix.mpr (List.prefix_append (a :: s) r)
    rw [List.nil_append, List.cons_append, find, if_pos hprefix]
    rfl
  | cons x c ih =>
    have hnot : ¬ (a :: s) <+: x :: (c ++ (a :: s) ++ r) := by
      rintro ⟨t, ht⟩
      have ht' : (a :: s) ++ t = (x :: c) ++ ((a :: s) ++ r) := by simpa using ht
      obtain ⟨m, hm, -⟩ | ⟨m, hm, hrest⟩ := List.append_eq_append_iff.mp ht'
      · exact hc ⟨[], m, by simpa using hm.symm⟩
      · cases m with
        | nil => exact hc ⟨[], [], by simpa using hm⟩
        | cons b m =>
          obtain rfl : a = b := (List.cons.inj hrest).1
          obtain ⟨-, hs⟩ := List.cons.inj hm
          exact ha (by rw [hs]; simp)
    rw [List.cons_append, List.cons_append, find, if_neg (by simpa [List.isPrefixOf_iff_prefix] using hnot),
      ih (fun h => hc (h.trans (List.suffix_cons x c).isInfix))]
    rfl

theorem not_infix_take {a : α} {s c : List α} (ha : a ∉ s) (hc : ¬ (a :: s) <:+: c) {n : Nat}
    (hn : n < c.length + (a :: s).length) : ¬ (a :: s) <:+: (c ++ (a :: s)).take n := by
  rintro ⟨u, v, h⟩
  have hlength := congrArg List.length h
  rw [List.length_append, List.length_append, List.length_take] at hlength
  obtain ⟨i, hi, hfind⟩ := find_le (a :: s) u (v ++ (c ++ (a :: s)).drop n)
  have hwhole : u ++ (a :: s) ++ (v ++ (c ++ (a :: s)).drop n) = c ++ (a :: s) ++ [] := by
    rw [← List.append_assoc, h, List.take_append_drop, List.append_nil]
  rw [hwhole, find_append ha hc] at hfind
  obtain rfl := Option.some.inj hfind
  omega

end Occurrences
