/-
Agenthicc.Python.Dict — insertion-ordered dictionaries.

A `Dict` carries the proof that no key occurs twice, so two dictionaries with
the same pairs are equal and iterating one meets each key once. `set`
replaces the value of a key in place or appends a new pair, `pop` removes a
key, as the language does.
-/
import Mathlib.Data.List.Basic
import Mathlib.Data.List.Nodup
import Mathlib.Tactic.Common

namespace Python

variable {κ α : Type} [DecidableEq κ]

/-! ## 1. Association lists -/

def assocGet (k : κ) : List (κ × α) → Option α
  | [] => none
  | (k', v) :: rest => if k' = k then some v else assocGet k rest

def assocSet (k : κ) (v : α) : List (κ × α) → List (κ × α)
  | [] => [(k, v)]
  | (k', w) :: rest => if k' = k then (k, v) :: rest else (k', w) :: assocSet k v rest

theorem keys_assocSet (k : κ) (v : α) : ∀ l : List (κ × α),
    (assocSet k v l).map Prod.fst
      = if k ∈ l.map Prod.fst then l.map Prod.fst else l.map Prod.fst ++ [k]
  | [] => by simp [assocSet]
  | (k', w) :: rest => by
      have ih := keys_assocSet k v rest
      by_cases h : k' = k
      · simp [assocSet, h]
      · have hne : ¬ k = k' := fun he => h he.symm
        by_cases hm : k ∈ rest.map Prod.fst
        · rw [if_pos hm] at ih
          simp only [List.mem_map] at hm
          simp only [assocSet, h, if_false, List.map_cons, ih, List.mem_cons, hne, false_or,
            List.mem_map, hm, if_true]
        · rw [if_neg hm] at ih
          simp only [List.mem_map] at hm
          simp only [assocSet, h, if_false, List.map_cons, ih, List.mem_cons, hne, false_or,
            List.mem_map, hm, List.cons_append]

theorem assocGet_assocSet (k k' : κ) (v : α) : ∀ l : List (κ × α),
    assocGet k' (assocSet k v l) = if k = k' then some v else assocGet k' l
  | [] => by simp [assocSet, assocGet]
  | (j, w) :: rest => by
      have ih := assocGet_assocSet k k' v rest
      by_cases h : j = k
      · subst h; by_cases hk : j = k' <;> simp [assocSet, assocGet, hk]
      · simp only [assocSet, h, if_false, assocGet, ih]
        by_cases hk : k = k'
        · subst hk; simp [h]
        · simp [hk]

theorem assocGet_eq_none (k : κ) : ∀ l : List (κ × α),
    assocGet k l = none ↔ k ∉ l.map Prod.fst
  | [] => by simp [assocGet]
  | (j, w) :: rest => by
      have ih := assocGet_eq_none k rest
      by_cases h : j = k
      · simp [assocGet, h]
      · have hne : ¬ k = j := fun he => h he.symm
        rw [assocGet, if_neg h, ih, List.map_cons, List.mem_cons, not_or]
        exact ⟨fun hm => ⟨hne, hm⟩, fun hm => hm.2⟩

theorem assocSet_of_not_mem {k : κ} (v : α) : ∀ {l : List (κ × α)}, k ∉ l.map Prod.fst →
    assocSet k v l = l ++ [(k, v)]
  | [], _ => rfl
  | (k', w) :: rest, h => by
      rw [List.map_cons, List.mem_cons, not_or] at h
      have hne : ¬ k' = k := fun he => h.1 he.symm
      rw [assocSet, if_neg hne, assocSet_of_not_mem v h.2, List.cons_append]

theorem mem_of_assocGet {k : κ} {v : α} : ∀ {l : List (κ × α)}, assocGet k l = some v → (k, v) ∈ l
  | (k', w) :: rest, h => by
      rw [assocGet] at h
      split at h
      · rename_i hk
        rw [Option.some.injEq] at h
        simp [hk, h]
      · exact List.mem_cons_of_mem _ (mem_of_assocGet h)

theorem assocGet_of_mem {k : κ} {v : α} : ∀ {l : List (κ × α)}, (l.map Prod.fst).Nodup →
    (k, v) ∈ l → assocGet k l = some v
  | (k', w) :: rest, hnd, h => by
      rw [List.map_cons, List.nodup_cons] at hnd
      rcases List.mem_cons.mp h with heq | hrest
      · cases heq
        exact if_pos rfl
      · have hne : k' ≠ k := by
          intro he
          exact hnd.1 (he ▸ List.mem_map.mpr ⟨(k, v), hrest, rfl⟩)
        rw [assocGet, if_neg hne]
        exact assocGet_of_mem hnd.2 hrest

/-! ## 2. Dictionaries -/

/-- Pairs in insertion order, each key once. -/
structure Dict (κ α : Type) where
  items : List (κ × α)
  nodup : (items.map Prod.fst).Nodup

namespace Dict

instance [DecidableEq α] : DecidableEq (Dict κ α) := fun a b =>
  decidable_of_iff (a.items = b.items) (by cases a; cases b; simp)

omit [DecidableEq κ] in
@[ext] theorem ext {a b : Dict κ α} (h : a.items = b.items) : a = b := by
  cases a; cases b; cases h; rfl

/-- `{}`. -/
def empty : Dict κ α := ⟨[], List.nodup_nil⟩

/-- `d.get(key)`. -/
def get? (d : Dict κ α) (k : κ) : Option α := assocGet k d.items

/-- `d[key] = value`, or `{**d, key: value}`. -/
def set (d : Dict κ α) (k : κ) (v : α) : Dict κ α :=
  ⟨assocSet k v d.items, by
    rw [keys_assocSet]
    split
    · exact d.nodup
    · rename_i h
      exact List.nodup_append.mpr ⟨d.nodup, by simp, by
        rintro a ha b hb rfl
        rw [List.mem_singleton] at hb
        exact h (hb ▸ ha)⟩⟩

/-- `d.pop(key, None)`. -/
def pop (d : Dict κ α) (k : κ) : Dict κ α :=
  ⟨d.items.filter (·.1 ≠ k), d.nodup.sublist (List.Sublist.map _ List.filter_sublist)⟩

/-- `d.setdefault(key, value)`. -/
def setdefault (d : Dict κ α) (k : κ) (v : α) : Dict κ α :=
  match d.get? k with
  | some _ => d
  | none => d.set k v

/-- `d.update(other)`, for the pairs of `other` in order. -/
def update (d : Dict κ α) (pairs : List (κ × α)) : Dict κ α :=
  pairs.foldl (fun d p => d.set p.1 p.2) d

/-- `list(d.values())`. -/
def values (d : Dict κ α) : List α := d.items.map Prod.snd

/-- Assigning to a field of every value. -/
def mapValues (f : α → α) (d : Dict κ α) : Dict κ α :=
  ⟨d.items.map fun p => (p.1, f p.2), by
    have h : (d.items.map fun p => (p.1, f p.2)).map Prod.fst = d.items.map Prod.fst := by simp
    rw [h]
    exact d.nodup⟩

@[simp] theorem get?_empty (k : κ) : (empty : Dict κ α).get? k = none := rfl

theorem get?_set (d : Dict κ α) (k k' : κ) (v : α) :
    (d.set k v).get? k' = if k = k' then some v else d.get? k' := assocGet_assocSet k k' v d.items

@[simp] theorem get?_set_self (d : Dict κ α) (k : κ) (v : α) : (d.set k v).get? k = some v := by
  simp [get?_set]

theorem get?_set_ne (d : Dict κ α) {k k' : κ} (v : α) (h : k ≠ k') :
    (d.set k v).get? k' = d.get? k' := by
  simp [get?_set, h]

theorem assocGet_map (f : α → α) (k : κ) : ∀ l : List (κ × α),
    assocGet k (l.map fun p => (p.1, f p.2)) = (assocGet k l).map f
  | [] => rfl
  | (k', v) :: rest => by
      rw [List.map_cons, assocGet, assocGet, assocGet_map f k rest]
      split <;> rfl

theorem get?_mapValues (f : α → α) (d : Dict κ α) (k : κ) :
    (d.mapValues f).get? k = (d.get? k).map f := assocGet_map f k d.items

theorem mem_keys_iff {d : Dict κ α} {k : κ} :
    k ∈ d.items.map Prod.fst ↔ ∃ v, d.get? k = some v := by
  rw [← Option.isSome_iff_exists, Option.isSome_iff_ne_none, get?, Ne, assocGet_eq_none, not_not]

theorem keys_set_of_some {d : Dict κ α} {k : κ} (v : α) {w : α} (h : d.get? k = some w) :
    (d.set k v).items.map Prod.fst = d.items.map Prod.fst :=
  (keys_assocSet k v d.items).trans (if_pos (mem_keys_iff.mpr ⟨w, h⟩))

theorem items_set_of_none {d : Dict κ α} {k : κ} (v : α) (h : d.get? k = none) :
    (d.set k v).items = d.items ++ [(k, v)] := assocSet_of_not_mem v ((assocGet_eq_none k _).mp h)

theorem mem_items_iff {d : Dict κ α} {k : κ} {v : α} : (k, v) ∈ d.items ↔ d.get? k = some v :=
  ⟨assocGet_of_mem d.nodup, mem_of_assocGet⟩

theorem mem_values_iff {d : Dict κ α} {v : α} : v ∈ d.values ↔ ∃ k, d.get? k = some v := by
  rw [values, List.mem_map]
  constructor
  · rintro ⟨⟨k, w⟩, hmem, rfl⟩
    exact ⟨k, mem_items_iff.mp hmem⟩
  · rintro ⟨k, hk⟩
    exact ⟨(k, v), mem_items_iff.mpr hk, rfl⟩

theorem get?_setdefault_ne (d : Dict κ α) {k k' : κ} (v : α) (h : k ≠ k') :
    (d.setdefault k v).get? k' = d.get? k' := by
  unfold setdefault
  split
  · rfl
  · exact get?_set_ne d v h

/-- Inserting the default does not change what a missing key reads as. -/
theorem getD_setdefault (d : Dict κ α) (k k' : κ) (v : α) :
    ((d.setdefault k v).get? k').getD v = (d.get? k').getD v := by
  unfold setdefault
  cases h : d.get? k with
  | some w => rfl
  | none =>
    simp only [get?_set]
    by_cases hk : k = k'
    · subst hk
      rw [if_pos rfl, h]
      rfl
    · rw [if_neg hk]

end Dict

end Python
