/-
Agenthicc.Library.Table — tables with a primary key.

A table carries the proof that no two of its rows have one key. `set` puts a
row in the place of the one with its key, or behind the others.

`window` is what a query with an order and a limit returns. `mem_window_iff`
says which rows that is: those with fewer than `limit` rows in front of them.
-/
import Mathlib.Data.List.Nodup
import Mathlib.Data.List.Sort
import Mathlib.Order.Defs.Unbundled
import Mathlib.Tactic.Common

namespace Tables

/-- Rows, each key once. -/
structure Table (α κ : Type) (key : α → κ) where
  rows : List α
  nodup : (rows.map key).Nodup

variable {α κ : Type} {key : α → κ} [DecidableEq κ]

/-- Putting a row in the place of the one with its key. -/
def replaced (key : α → κ) (row : α) (rows : List α) : List α :=
  rows.map fun r => if key r = key row then row else r

theorem map_key_replaced (row : α) (rows : List α) :
    (replaced key row rows).map key = rows.map key := by
  rw [replaced, List.map_map]
  refine List.map_congr_left fun r _ => ?_
  rw [Function.comp_apply]
  split
  · rename_i h
    exact h.symm
  · rfl

namespace Table

def empty : Table α κ key := ⟨[], List.nodup_nil⟩

def find? (t : Table α κ key) (k : κ) : Option α := t.rows.find? fun r => key r = k

/-- Putting a row in the place of the one with its key, or behind the others. -/
def set (t : Table α κ key) (row : α) : Table α κ key where
  rows := if key row ∈ t.rows.map key then replaced key row t.rows else t.rows ++ [row]
  nodup := by
    split
    · rw [map_key_replaced]
      exact t.nodup
    · rename_i h
      rw [List.map_append, List.nodup_append]
      refine ⟨t.nodup, List.nodup_singleton _, fun a ha b hb hab => ?_⟩
      rw [List.map_singleton, List.mem_singleton] at hb
      rw [hab, hb] at ha
      exact h ha

variable {t : Table α κ key} {row r : α} {k : κ}

@[simp] theorem find?_empty : (empty : Table α κ key).find? k = none := rfl

theorem key_of_find? (h : t.find? k = some row) : key row = k := by
  simpa using List.find?_some h

theorem mem_of_find? (h : t.find? k = some row) : row ∈ t.rows := List.mem_of_find?_eq_some h

theorem find?_eq_some_iff : t.find? k = some row ↔ row ∈ t.rows ∧ key row = k := by
  constructor
  · intro h
    exact ⟨mem_of_find? h, key_of_find? h⟩
  · rintro ⟨hmem, rfl⟩
    cases hf : t.find? (key row) with
    | none =>
        have hnone := List.find?_eq_none.mp hf row hmem
        simp at hnone
    | some r =>
        rw [List.inj_on_of_nodup_map t.nodup (mem_of_find? hf) hmem (key_of_find? hf)]

theorem find?_key (h : row ∈ t.rows) : t.find? (key row) = some row :=
  find?_eq_some_iff.mpr ⟨h, rfl⟩

theorem mem_set : r ∈ (t.set row).rows ↔ r = row ∨ (r ∈ t.rows ∧ key r ≠ key row) := by
  rw [set]
  dsimp only
  split
  · rename_i h
    rw [replaced, List.mem_map]
    constructor
    · rintro ⟨r', hr', rfl⟩
      split
      · exact .inl rfl
      · rename_i hne
        exact .inr ⟨hr', hne⟩
    · rintro (rfl | ⟨hr, hne⟩)
      · obtain ⟨r', hr', hk⟩ := List.mem_map.mp h
        exact ⟨r', hr', if_pos hk⟩
      · exact ⟨r, hr, if_neg hne⟩
  · rename_i h
    rw [List.mem_append, List.mem_singleton]
    constructor
    · rintro (hr | rfl)
      · exact .inr ⟨hr, fun hk => h (hk ▸ List.mem_map_of_mem hr)⟩
      · exact .inl rfl
    · rintro (rfl | ⟨hr, -⟩)
      · exact .inr rfl
      · exact .inl hr

theorem find?_set (t : Table α κ key) (row : α) (k : κ) :
    (t.set row).find? k = if key row = k then some row else t.find? k := by
  split
  · rename_i h
    exact find?_eq_some_iff.mpr ⟨mem_set.mpr (.inl rfl), h⟩
  · rename_i hne
    ext r
    rw [find?_eq_some_iff, find?_eq_some_iff, mem_set]
    constructor
    · rintro ⟨rfl | ⟨hr, -⟩, hk⟩
      · exact absurd hk hne
      · exact ⟨hr, hk⟩
    · rintro ⟨hr, hk⟩
      exact ⟨.inr ⟨hr, fun hrow => hne (hrow.symm.trans hk)⟩, hk⟩

theorem find?_set_self (t : Table α κ key) (row : α) : (t.set row).find? (key row) = some row := by
  rw [find?_set, if_pos rfl]

theorem find?_set_ne (t : Table α κ key) {row : α} {k : κ} (h : key row ≠ k) :
    (t.set row).find? k = t.find? k := by rw [find?_set, if_neg h]

end Table

/-! ## Queries with an order and a limit -/

/-- `ORDER BY … LIMIT ?`. -/
def window (r : α → α → Prop) [DecidableRel r] (rows : List α) (limit : Nat) : List α :=
  (rows.insertionSort r).take limit

variable {r : α → α → Prop} [DecidableRel r]

/-- In a strictly ordered list, the first `n` are those with fewer than `n`
in front of them. -/
theorem mem_take_iff : ∀ {l : List α}, (l.Pairwise fun a b => r a b ∧ ¬ r b a) → ∀ {n : Nat}
    {x : α}, x ∈ l → (x ∈ l.take n ↔ (l.filter fun y => r y x ∧ ¬ r x y).length < n)
  | [], _, _, _, h => nomatch h
  | a :: l, hl, n, x, hx => by
      obtain ⟨ha, hrest⟩ := List.pairwise_cons.mp hl
      cases n with
      | zero => simp
      | succ n =>
          rw [List.take_succ_cons, List.mem_cons]
          rcases List.mem_cons.mp hx with rfl | hx
          · -- Nothing stands in front of the first.
            have hnone : (x :: l).filter (fun y => r y x ∧ ¬ r x y) = [] := by
              refine List.filter_eq_nil_iff.mpr fun y hy => ?_
              rw [decide_eq_true_eq]
              rintro ⟨hyx, hxy⟩
              rcases List.mem_cons.mp hy with rfl | hy
              · exact hxy hyx
              · exact hxy (ha y hy).1
            rw [hnone]
            simp only [true_or, List.length_nil, Nat.zero_lt_succ]
          · have hbefore := ha x hx
            have hne : x ≠ a := by
              rintro rfl
              exact hbefore.2 hbefore.1
            have hfilter : (a :: l).filter (fun y => r y x ∧ ¬ r x y)
                = a :: l.filter fun y => r y x ∧ ¬ r x y :=
              List.filter_cons_of_pos (decide_eq_true hbefore)
            rw [hfilter, List.length_cons, Nat.succ_lt_succ_iff, ← mem_take_iff hrest hx]
            simp [hne]

theorem mem_of_mem_window {rows : List α} {limit : Nat} {x : α}
    (h : x ∈ window r rows limit) : x ∈ rows :=
  (List.mem_insertionSort r).mp (List.mem_of_mem_take h)

theorem nodup_window {rows : List α} (h : rows.Nodup) (limit : Nat) :
    (window r rows limit).Nodup :=
  ((List.perm_insertionSort r rows).nodup_iff.mpr h).sublist (List.take_sublist ..)

/-- Which rows a query returns: those with fewer than `limit` in front. -/
theorem mem_window_iff [Std.Total r] [IsTrans α r] {rows : List α} (hnodup : rows.Nodup)
    (hanti : ∀ a ∈ rows, ∀ b ∈ rows, r a b → r b a → a = b) {limit : Nat} {x : α}
    (hx : x ∈ rows) :
    x ∈ window r rows limit ↔ (rows.filter fun y => r y x ∧ ¬ r x y).length < limit := by
  have hperm := List.perm_insertionSort r rows
  have hmem : ∀ y, y ∈ rows.insertionSort r ↔ y ∈ rows := fun y => List.mem_insertionSort r
  have hstrict : (rows.insertionSort r).Pairwise fun a b => r a b ∧ ¬ r b a := by
    have hne : (rows.insertionSort r).Pairwise (· ≠ ·) := hperm.nodup_iff.mpr hnodup
    refine ((List.pairwise_insertionSort r rows).and hne).imp_of_mem fun ha hb h => ?_
    exact ⟨h.1, fun hba => h.2 (hanti _ ((hmem _).mp ha) _ ((hmem _).mp hb) h.1 hba)⟩
  rw [window, mem_take_iff hstrict ((hmem x).mpr hx), (hperm.filter _).length_eq]

end Tables
