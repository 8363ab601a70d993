/-
Agenthicc.Library.Splices — ranges of a list replaced, all at once and one
after the other.

`splice` replaces ranges of a list from left to right; `replaceAt` replaces
one range of the current list. A range that lies behind everything replaced so
far is a range of the original list: `replaceAt_splice` gives it, and
`replaceAt` there adds it to the splice. `Spliced` is what is known of a list
while ranges of it are replaced, and `Spliced.replaceAt` its step.
-/
import Mathlib.Data.List.Basic
import Mathlib.Tactic.Common

namespace Splices

variable {α : Type}

/-- A range and what stands in its place. -/
structure Piece (α : Type) where
  lo : Nat
  hi : Nat
  new : List α

/-- The list up to the end of the last range, from `pos` on. -/
def produced (l : List α) : (pos : Nat) → List (Piece α) → List α
  | _, [] => []
  | pos, p :: ps => (l.drop pos).take (p.lo - pos) ++ p.new ++ produced l p.hi ps

/-- The end of the last range. -/
def endOf : (pos : Nat) → List (Piece α) → Nat
  | pos, [] => pos
  | _, p :: ps => endOf p.hi ps

/-- The list with each range replaced. -/
def splice (l : List α) (ps : List (Piece α)) : List α := produced l 0 ps ++ l.drop (endOf 0 ps)

/-- `l[at : at + n] = new`. -/
def replaceAt (l : List α) (n len : Nat) (new : List α) : List α :=
  l.take n ++ new ++ l.drop (n + len)

variable {l : List α}

theorem endOf_concat (pos : Nat) (ps : List (Piece α)) (p : Piece α) :
    endOf pos (ps ++ [p]) = p.hi := by
  induction ps generalizing pos with
  | nil => rfl
  | cons q ps ih => exact ih q.hi

theorem produced_concat (pos : Nat) (ps : List (Piece α)) (p : Piece α) :
    produced l pos (ps ++ [p])
      = produced l pos ps ++ (l.drop (endOf pos ps)).take (p.lo - endOf pos ps) ++ p.new := by
  induction ps generalizing pos with
  | nil => simp [produced, endOf]
  | cons q ps ih => simp only [List.cons_append, produced, endOf, ih q.hi, List.append_assoc]

variable {ps : List (Piece α)} {n len : Nat}

theorem drop_splice (hn : (produced l 0 ps).length ≤ n) :
    (splice l ps).drop n = l.drop (endOf 0 ps + (n - (produced l 0 ps).length)) := by
  rw [splice, List.drop_append, List.drop_eq_nil_of_le hn, List.nil_append, List.drop_drop]

theorem take_splice (hn : (produced l 0 ps).length ≤ n) :
    (splice l ps).take n = produced l 0 ps
      ++ (l.drop (endOf 0 ps)).take (n - (produced l 0 ps).length) := by
  rw [splice, List.take_append, List.take_of_length_le hn]

theorem replaceAt_splice (hn : (produced l 0 ps).length ≤ n) (new : List α) {p : Piece α}
    (hlo : p.lo = endOf 0 ps + (n - (produced l 0 ps).length)) (hhi : p.hi = p.lo + len)
    (hnew : p.new = new) : replaceAt (splice l ps) n len new = splice l (ps ++ [p]) := by
  have hgap : p.lo - endOf 0 ps = n - (produced l 0 ps).length := by omega
  have hend : endOf 0 ps + (n + len - (produced l 0 ps).length) = p.hi := by omega
  rw [replaceAt, take_splice hn, drop_splice (Nat.le_trans hn (Nat.le_add_right n len)), hend, splice,
    produced_concat, endOf_concat, hgap, hnew]

/-- Everything up to the end of the new text is behind it. -/
theorem length_produced_concat (hn : (produced l 0 ps).length ≤ n) {p : Piece α}
    (hlo : p.lo = endOf 0 ps + (n - (produced l 0 ps).length)) (hle : p.lo ≤ l.length) :
    (produced l 0 (ps ++ [p])).length = n + p.new.length := by
  rw [produced_concat, List.length_append, List.length_append, List.length_take, List.length_drop]
  omega

theorem length_splice :
    (splice l ps).length = (produced l 0 ps).length + (l.length - endOf 0 ps) := by
  rw [splice, List.length_append, List.length_drop]

/-- The list came out of another one by these replacements. What they put in
ends at `settled`, and `offset` is what they have added to the length. -/
structure Spliced (l cur : List α) (settled : Nat) (offset : Int) (ps : List (Piece α)) : Prop where
  eq : cur = splice l ps
  length_produced : (produced l 0 ps).length = settled
  endOf_eq : (endOf 0 ps : Int) = settled - offset
  endOf_le : endOf 0 ps ≤ l.length
  hi_le : ∀ p ∈ ps, p.hi ≤ l.length

theorem Spliced.refl (l : List α) : Spliced l l 0 0 [] :=
  ⟨rfl, rfl, rfl, Nat.zero_le _, by simp⟩

variable {cur : List α} {settled : Nat} {offset : Int}

/-- The range of the original list behind a range of the current one. -/
theorem Spliced.slice (h : Spliced l cur settled offset ps) (hn : settled ≤ n) (len : Nat) :
    (((n - offset).toNat : Nat) : Int) = n - offset
      ∧ (cur.drop n).take len = (l.drop (n - offset).toNat).take len := by
  have hsettled := h.length_produced
  have hoffset := h.endOf_eq
  have hlo : (n - offset).toNat = endOf 0 ps + (n - (produced l 0 ps).length) := by omega
  refine ⟨by omega, ?_⟩
  rw [h.eq, drop_splice (by omega), hlo]

theorem Spliced.replaceAt (h : Spliced l cur settled offset ps) (hn : settled ≤ n)
    (hlen : n + len ≤ cur.length) (new : List α) :
    Spliced l (replaceAt cur n len new) (n + new.length) (offset + (new.length - len))
      (ps ++ [⟨(n - offset).toNat, (n - offset).toNat + len, new⟩]) := by
  have hsettled := h.length_produced
  have hoffset := h.endOf_eq
  have hle := h.endOf_le
  have hlength : cur.length = settled + (l.length - endOf 0 ps) := by
    rw [h.eq, length_splice, hsettled]
  have hlo : (n - offset).toNat = endOf 0 ps + (n - (produced l 0 ps).length) := by omega
  have hhi : (n - offset).toNat + len ≤ l.length := by omega
  refine ⟨?_, ?_, ?_, ?_, ?_⟩
  · rw [h.eq]
    exact replaceAt_splice (by omega) new hlo rfl rfl
  · exact length_produced_concat (by omega) hlo (Nat.le_trans (Nat.le_add_right _ _) hhi)
  · have hint : (((n - offset).toNat : Nat) : Int) = n - offset := by omega
    rw [endOf_concat, Int.natCast_add, hint]
    omega
  · rw [endOf_concat]
    exact hhi
  · intro p hp
    obtain hold | hnew := List.mem_append.mp hp
    · exact h.hi_le p hold
    · rw [List.mem_singleton.mp hnew]
      exact hhi

end Splices
