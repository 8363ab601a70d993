/-
Agenthicc.Python.Lines — `str.splitlines` and the stripping of line endings.

`splitlines` breaks a text at more characters than line feed and carriage
return; the two together are one break. `breakLines` splits a text into lines
and their breaks: together they are the text, no line holds a break, and every
line but the last one has one behind it.
-/
import Mathlib.Data.List.DropRight
import Mathlib.Tactic.Common

namespace Python

/-! ## 1. Lines -/

/-- The characters `str.splitlines` breaks at. -/
def isBreak (c : Char) : Bool :=
  (10 ≤ c.toNat && c.toNat ≤ 13) || (28 ≤ c.toNat && c.toNat ≤ 30) || c.toNat == 0x85
    || c.toNat == 0x2028 || c.toNat == 0x2029

/-- A character put before the first line. -/
def consChar (c : Char) : List (List Char × List Char) → List (List Char × List Char)
  | [] => [([c], [])]
  | (line, brk) :: lines => (c :: line, brk) :: lines

/-- The lines of a text, each with its break. -/
def breakLines : List Char → List (List Char × List Char)
  | [] => []
  | '\r' :: '\n' :: rest => ([], ['\r', '\n']) :: breakLines rest
  | c :: rest =>
      if isBreak c then ([], [c]) :: breakLines rest else consChar c (breakLines rest)

/-- `text.splitlines()`. -/
def splitlines (text : List Char) : List (List Char) := (breakLines text).map Prod.fst

/-- `text.splitlines(keepends=True)`. -/
def splitlinesKeep (text : List Char) : List (List Char) := (breakLines text).map fun p => p.1 ++ p.2

/-- `line.rstrip("\r\n")`. -/
def rstripNewlines (line : List Char) : List Char := line.rdropWhile fun c => c = '\r' || c = '\n'

/-- `line.endswith(("\n", "\r"))`. -/
def endsWithNewline (line : List Char) : Bool := line.getLast?.any fun c => c = '\r' || c = '\n'

/-- The line ends with a break. -/
def endsBreak (line : List Char) : Bool := line.getLast?.any isBreak

/-! ## 2. What they are made of -/

/-- A line without breaks, and the break behind it, if there is one. -/
def WellBroken (p : List Char × List Char) : Prop :=
  (∀ c ∈ p.1, isBreak c = false) ∧
    (p.2 = [] ∧ p.1 ≠ [] ∨ p.2 = ['\r', '\n'] ∨ ∃ c, isBreak c = true ∧ p.2 = [c])

theorem wellBroken_consChar {c : Char} (hc : isBreak c = false) {lines : List (List Char × List Char)}
    (h : ∀ p ∈ lines, WellBroken p) : ∀ p ∈ consChar c lines, WellBroken p := by
  cases lines with
  | nil =>
    intro p hp
    rw [consChar, List.mem_singleton] at hp
    subst hp
    exact ⟨by simpa using hc, .inl ⟨rfl, List.cons_ne_nil _ _⟩⟩
  | cons line lines =>
    rw [List.forall_mem_cons] at h
    obtain ⟨⟨hline, hbrk⟩, hrest⟩ := h
    refine List.forall_mem_cons.mpr ⟨⟨List.forall_mem_cons.mpr ⟨hc, hline⟩, ?_⟩, hrest⟩
    exact hbrk.imp (fun h => ⟨h.1, List.cons_ne_nil _ _⟩) id

theorem wellBroken (text : List Char) : ∀ p ∈ breakLines text, WellBroken p := by
  induction text using breakLines.induct with
  | case1 => simp [breakLines]
  | case2 rest ih =>
    rw [breakLines]
    exact List.forall_mem_cons.mpr ⟨⟨by simp, .inr (.inl rfl)⟩, ih⟩
  | case3 c rest hcr hbreak ih =>
    rw [breakLines, if_pos hbreak]
    · exact List.forall_mem_cons.mpr ⟨⟨by simp, .inr (.inr ⟨c, hbreak, rfl⟩)⟩, ih⟩
    · exact hcr
  | case4 c rest hcr hbreak ih =>
    rw [breakLines, if_neg hbreak]
    · exact wellBroken_consChar (by simpa using hbreak) ih
    · exact hcr

theorem break_ne_nil (text : List Char) : ∀ p ∈ (breakLines text).dropLast, p.2 ≠ [] := by
  have hcons : ∀ (p : List Char × List Char) (lines : List (List Char × List Char)), p.2 ≠ [] →
      (∀ q ∈ lines.dropLast, q.2 ≠ []) → ∀ q ∈ (p :: lines).dropLast, q.2 ≠ [] := by
    intro p lines hp hlines
    cases lines with
    | nil => simp
    | cons q lines =>
      rw [List.dropLast_cons_cons]
      exact List.forall_mem_cons.mpr ⟨hp, hlines⟩
  induction text using breakLines.induct with
  | case1 => simp [breakLines]
  | case2 rest ih =>
    rw [breakLines]
    exact hcons _ _ (List.cons_ne_nil _ _) ih
  | case3 c rest hcr hbreak ih =>
    rw [breakLines, if_pos hbreak]
    · exact hcons _ _ (List.cons_ne_nil _ _) ih
    · exact hcr
  | case4 c rest hcr hbreak ih =>
    rw [breakLines, if_neg hbreak]
    · cases hlines : breakLines rest with
      | nil => simp [consChar]
      | cons p lines =>
        rw [hlines] at ih
        cases lines with
        | nil => simp [consChar]
        | cons q lines =>
          rw [List.dropLast_cons_cons, List.forall_mem_cons] at ih
          rw [consChar, List.dropLast_cons_cons]
          exact List.forall_mem_cons.mpr ⟨ih.1, ih.2⟩
    · exact hcr

theorem endsBreak_append {p : List Char × List Char} (h : WellBroken p) (hne : p.2 ≠ []) :
    endsBreak (p.1 ++ p.2) = true := by
  obtain ⟨-, hnone | hcrlf | hone⟩ := h
  · exact absurd hnone.1 hne
  · rw [hcrlf, endsBreak]
    simp [isBreak]
  · obtain ⟨c, hc, hp⟩ := hone
    rw [hp, endsBreak]
    simpa using hc

theorem endsBreak_dropLast (text : List Char) :
    ∀ line ∈ (splitlinesKeep text).dropLast, endsBreak line = true := by
  intro line hline
  rw [splitlinesKeep, List.dropLast_eq_take, ← List.map_take, List.length_map,
    ← List.dropLast_eq_take] at hline
  obtain ⟨p, hp, rfl⟩ := List.mem_map.mp hline
  exact endsBreak_append (wellBroken text p (List.dropLast_subset _ hp)) (break_ne_nil text p hp)

end Python
