/-
Agenthicc.Python.ByteLines — a file of UTF-8 text, read by its bytes.

`bytes.splitlines` breaks at a line feed, a carriage return and the two
together, `data.split(b"\n")` at line feeds. The lines of a file that was only
written in whole lines without such bytes in them are the same for both
(`bytesLines_flatten`, `splitOn_flatten`).
-/
import Agenthicc.Python.Codecs
import Mathlib.Data.List.DropRight

namespace Python

/-! ## 1. The bytes of a character -/

theorem forall_byte {P : UInt8 → Prop} (h : ∀ n < 256, P (UInt8.ofNat n)) (b : UInt8) : P b := by
  have hb := h b.toNat b.toNat_lt
  rwa [UInt8.ofNat_toNat] at hb

theorem high_or {y : UInt8} (h : 0x80 ≤ y) (x : UInt8) : 0x80 ≤ x ||| y := by
  rw [UInt8.le_iff_toNat_le] at h ⊢
  rw [UInt8.toNat_or]
  exact h.trans Nat.right_le_or

theorem continuation_ge (x : UInt8) : 0x80 ≤ (x &&& 0x3f ||| 0x80) := high_or (by decide) _

theorem lead_ge_two (x : UInt8) : 0x80 ≤ (x &&& 0x1f ||| 0xc0) := high_or (by decide) _

theorem lead_ge_three (x : UInt8) : 0x80 ≤ (x &&& 0x0f ||| 0xe0) := high_or (by decide) _

theorem lead_ge_four (x : UInt8) : 0x80 ≤ (x &&& 0x07 ||| 0xf0) := high_or (by decide) _

theorem toNat_of_mem_utf8 {c : Char} {b : UInt8} (hb : b ∈ String.utf8EncodeChar c) (h : b < 0x80) :
    c.toNat = b.toNat := by
  obtain hsize | hsize | hsize | hsize := c.utf8Size_eq
  · have hle := UInt32.le_iff_toNat_le.mp (Char.utf8Size_eq_one_iff.mp hsize)
    rw [String.utf8EncodeChar_eq_singleton hsize, List.mem_singleton] at hb
    rw [hb, UInt32.toNat_toUInt8]
    exact (Nat.mod_eq_of_lt (Nat.lt_of_le_of_lt hle (by decide))).symm
  all_goals exfalso
  · rw [String.utf8EncodeChar_eq_cons_cons hsize] at hb
    simp only [List.mem_cons, List.not_mem_nil, or_false] at hb
    obtain rfl | rfl := hb
    · exact absurd (lead_ge_two _) (UInt8.not_le.mpr h)
    · exact absurd (continuation_ge _) (UInt8.not_le.mpr h)
  · rw [String.utf8EncodeChar_eq_cons_cons_cons hsize] at hb
    simp only [List.mem_cons, List.not_mem_nil, or_false] at hb
    obtain rfl | rfl | rfl := hb
    · exact absurd (lead_ge_three _) (UInt8.not_le.mpr h)
    · exact absurd (continuation_ge _) (UInt8.not_le.mpr h)
    · exact absurd (continuation_ge _) (UInt8.not_le.mpr h)
  · rw [String.utf8EncodeChar_eq_cons_cons_cons_cons hsize] at hb
    simp only [List.mem_cons, List.not_mem_nil, or_false] at hb
    obtain rfl | rfl | rfl | rfl := hb
    · exact absurd (lead_ge_four _) (UInt8.not_le.mpr h)
    · exact absurd (continuation_ge _) (UInt8.not_le.mpr h)
    · exact absurd (continuation_ge _) (UInt8.not_le.mpr h)
    · exact absurd (continuation_ge _) (UInt8.not_le.mpr h)

theorem not_mem_utf8 {c : Char} {b : UInt8} {text : List Char} (hb : b < 0x80) (hc : c.toNat = b.toNat)
    (h : c ∉ text) : b ∉ utf8 text := by
  intro hmem
  obtain ⟨d, hd, hbyte⟩ := List.mem_flatMap.mp hmem
  rw [Char.toNat_inj.mp ((toNat_of_mem_utf8 hbyte hb).trans hc.symm)] at hd
  exact h hd

theorem newline_not_mem_utf8 {text : List Char} (h : '\n' ∉ text) : 0x0A ∉ utf8 text :=
  not_mem_utf8 (by decide) (by decide) h

theorem utf8_append (s t : List Char) : utf8 (s ++ t) = utf8 s ++ utf8 t := List.flatMap_append

/-! ## 2. Pieces between separators -/

section Pieces

variable {α : Type} [BEq α] [LawfulBEq α] {sep : α}

theorem splitOn_append {y l : List α} {rest : List (List α)} (h : y.splitOn sep = l :: rest) (x : List α) :
    (x ++ y).splitOn sep = (x ++ l).splitOn sep ++ rest := by
  by_cases hsep : sep ∈ y
  · obtain ⟨a, b, rfl, ha⟩ := List.eq_append_cons_of_mem hsep
    rw [List.splitOn_append_cons_self_of_not_mem ha] at h
    obtain ⟨rfl, rfl⟩ := List.cons.inj h
    rw [← List.append_assoc, List.splitOn_append_cons_self]
  · rw [List.splitOn_eq_singleton hsep] at h
    obtain ⟨rfl, rfl⟩ := List.cons.inj h
    rw [List.append_nil]

theorem not_mem_splitOn_head {y l : List α} {rest : List (List α)} (h : y.splitOn sep = l :: rest) : sep ∉ l := by
  by_cases hsep : sep ∈ y
  · obtain ⟨a, b, rfl, ha⟩ := List.eq_append_cons_of_mem hsep
    rw [List.splitOn_append_cons_self_of_not_mem ha] at h
    exact (List.cons.inj h).1 ▸ ha
  · rw [List.splitOn_eq_singleton hsep] at h
    exact (List.cons.inj h).1 ▸ hsep

theorem splitOn_append_last (x y : List α) :
    (x ++ y).splitOn sep = (x.splitOn sep).dropLast ++ ((x.splitOn sep).getLastD [] ++ y).splitOn sep := by
  induction hn : x.length using Nat.strong_induction_on generalizing x with
  | _ n ih =>
    by_cases hmem : sep ∈ x
    · obtain ⟨piece, rest, rfl, hpiece⟩ := List.eq_append_cons_of_mem hmem
      have hrest := ih rest.length (by rw [← hn]; simp; omega) rest rfl
      obtain ⟨first, others, hsplit⟩ := List.exists_cons_of_ne_nil (List.splitOn_ne_nil sep rest)
      rw [List.append_assoc, List.cons_append, List.splitOn_append_cons_self_of_not_mem hpiece,
        List.splitOn_append_cons_self_of_not_mem hpiece, hrest, hsplit]
      rfl
    · rw [List.splitOn_eq_singleton hmem]
      rfl

end Pieces

theorem splitOn_utf8 (text : List Char) : (utf8 text).splitOn 0x0A = (text.splitOn '\n').map utf8 := by
  induction hn : text.length using Nat.strong_induction_on generalizing text with
  | _ n ih =>
    by_cases hmem : '\n' ∈ text
    · obtain ⟨line, rest, rfl, hline⟩ := List.eq_append_cons_of_mem hmem
      have hbytes : utf8 (line ++ '\n' :: rest) = utf8 line ++ 0x0A :: utf8 rest := by
        rw [utf8, List.flatMap_append, List.flatMap_cons]
        rfl
      rw [hbytes, List.splitOn_append_cons_self_of_not_mem (newline_not_mem_utf8 hline),
        List.splitOn_append_cons_self_of_not_mem hline,
        ih rest.length (by rw [← hn]; simp; omega) rest rfl]
      rfl
    · rw [List.splitOn_eq_singleton hmem, List.splitOn_eq_singleton (newline_not_mem_utf8 hmem)]
      rfl

/-! ## 3. `bytes.splitlines` -/

/-- `data.splitlines(keepends=True)`. -/
def bytesLines : Bytes → List Bytes
  | [] => []
  | 0x0D :: 0x0A :: rest => [0x0D, 0x0A] :: bytesLines rest
  | b :: rest =>
      if b = 0x0A ∨ b = 0x0D then [b] :: bytesLines rest
      else
        match bytesLines rest with
        | [] => [[b]]
        | line :: lines => (b :: line) :: lines

/-- A line without the break at its end. -/
def stripBreak (line : Bytes) : Bytes := line.rdropWhile fun b => b = 0x0A || b = 0x0D

/-- A line with its line feed, and no other break in it. -/
def IsByteLine (line : Bytes) : Prop := ∃ body, line = body ++ [0x0A] ∧ 0x0A ∉ body ∧ 0x0D ∉ body

theorem bytesLines_newline (rest : Bytes) : bytesLines (0x0A :: rest) = [0x0A] :: bytesLines rest := by
  rw [bytesLines.eq_def]
  rfl

theorem bytesLines_cons {b : UInt8} (hn : b ≠ 0x0A) (hr : b ≠ 0x0D) {rest line : Bytes} {lines : List Bytes}
    (h : bytesLines rest = line :: lines) : bytesLines (b :: rest) = (b :: line) :: lines := by
  rw [bytesLines.eq_def]
  split
  · next heq => cases heq
  · next heq => exact absurd (List.cons.inj heq).1 hr
  · next heq =>
    obtain ⟨rfl, rfl⟩ := List.cons.inj heq
    rw [if_neg (by simp [hn, hr]), h]

theorem bytesLines_line {line : Bytes} (h : IsByteLine line) (rest : Bytes) :
    bytesLines (line ++ rest) = line :: bytesLines rest := by
  obtain ⟨body, rfl, hn, hr⟩ := h
  induction body with
  | nil => exact bytesLines_newline rest
  | cons b body ih =>
    rw [List.mem_cons, not_or] at hn hr
    exact bytesLines_cons (Ne.symm hn.1) (Ne.symm hr.1) (ih hn.2 hr.2)

theorem bytesLines_flatten {lines : List Bytes} (h : ∀ line ∈ lines, IsByteLine line) :
    bytesLines lines.flatten = lines := by
  induction lines with
  | nil => rfl
  | cons line lines ih =>
    rw [List.flatten_cons, bytesLines_line (h line List.mem_cons_self),
      ih fun l hl => h l (List.mem_cons_of_mem line hl)]

theorem IsByteLine.drop {line : Bytes} (h : IsByteLine line) {k : Nat} (hk : k < line.length) :
    IsByteLine (line.drop k) := by
  obtain ⟨body, rfl, hn, hr⟩ := h
  rw [List.length_append, List.length_singleton] at hk
  refine ⟨body.drop k, List.drop_append_of_le_length (by omega), ?_, ?_⟩
  · exact fun hmem => hn (List.mem_of_mem_drop hmem)
  · exact fun hmem => hr (List.mem_of_mem_drop hmem)

theorem drop_flatten {lines : List Bytes} (h : ∀ line ∈ lines, IsByteLine line) (k : Nat) :
    ∃ others : List Bytes, lines.flatten.drop k = others.flatten ∧ ∀ line ∈ others, IsByteLine line := by
  induction lines generalizing k with
  | nil => exact ⟨[], by simp, by simp⟩
  | cons line lines ih =>
    have hlines : ∀ l ∈ lines, IsByteLine l := fun l hl => h l (List.mem_cons_of_mem line hl)
    by_cases hk : k < line.length
    · refine ⟨line.drop k :: lines, ?_, ?_⟩
      · rw [List.flatten_cons, List.drop_append_of_le_length hk.le, List.flatten_cons]
      · intro l hl
        obtain rfl | hl := List.mem_cons.mp hl
        · exact (h line List.mem_cons_self).drop hk
        · exact hlines l hl
    · obtain ⟨others, heq, hothers⟩ := ih hlines (k - line.length)
      refine ⟨others, ?_, hothers⟩
      rw [List.flatten_cons, List.drop_append, List.drop_eq_nil_of_le (by omega), List.nil_append, heq]

theorem stripBreak_line {body : Bytes} (hn : 0x0A ∉ body) (hr : 0x0D ∉ body) : stripBreak (body ++ [0x0A]) = body := by
  rw [stripBreak, List.rdropWhile_concat_pos _ _ _ (by decide), List.rdropWhile_eq_self_iff]
  intro hne hlast
  rw [Bool.or_eq_true, decide_eq_true_eq, decide_eq_true_eq] at hlast
  obtain hlast | hlast := hlast
  · exact hn (hlast ▸ List.getLast_mem hne)
  · exact hr (hlast ▸ List.getLast_mem hne)

theorem splitOn_flatten {lines : List Bytes} (h : ∀ line ∈ lines, IsByteLine line) :
    lines.flatten.splitOn 0x0A = lines.map stripBreak ++ [[]] := by
  induction lines with
  | nil => rfl
  | cons line lines ih =>
    obtain ⟨body, rfl, hn, hr⟩ := h line List.mem_cons_self
    rw [List.flatten_cons, List.append_assoc, List.singleton_append, List.splitOn_append_cons_self_of_not_mem hn,
      ih fun l hl => h l (List.mem_cons_of_mem _ hl), List.map_cons, stripBreak_line hn hr, List.cons_append]

end Python
