/-
Agenthicc.Tui.KeyboardTheorems — what one call of the keyboard reader can
return, and that written events are read back.
-/
import Agenthicc.Python.ByteLines
import Agenthicc.Tui.Keyboard
import Mathlib.Data.List.Infix

open Python

namespace Agenthicc.Tui

/-! ## 1. Characters as bytes -/

theorem utf8Extra_two (x : UInt8) : utf8Extra (x &&& 0x1f ||| 0xc0) = 1 ∧ 0xC0 ≤ (x &&& 0x1f ||| 0xc0) :=
  forall_byte (P := fun x => utf8Extra (x &&& 0x1f ||| 0xc0) = 1 ∧ 0xC0 ≤ (x &&& 0x1f ||| 0xc0))
    (by decide +kernel) x

theorem utf8Extra_three (x : UInt8) : utf8Extra (x &&& 0x0f ||| 0xe0) = 2 ∧ 0xC0 ≤ (x &&& 0x0f ||| 0xe0) :=
  forall_byte (P := fun x => utf8Extra (x &&& 0x0f ||| 0xe0) = 2 ∧ 0xC0 ≤ (x &&& 0x0f ||| 0xe0))
    (by decide +kernel) x

theorem utf8Extra_four (x : UInt8) : utf8Extra (x &&& 0x07 ||| 0xf0) = 3 ∧ 0xC0 ≤ (x &&& 0x07 ||| 0xf0) :=
  forall_byte (P := fun x => utf8Extra (x &&& 0x07 ||| 0xf0) = 3 ∧ 0xC0 ≤ (x &&& 0x07 ||| 0xf0))
    (by decide +kernel) x

theorem utf8Extra_ascii {b : UInt8} (h : b < 0x80) : utf8Extra b = 0 :=
  forall_byte (P := fun b => b < 0x80 → utf8Extra b = 0) (by decide +kernel) b h

theorem utf8EncodeChar_cons (c : Char) : ∃ first rest, String.utf8EncodeChar c = first :: rest
    ∧ rest.length = utf8Extra first ∧ ((c.toNat < 128 ∧ first.toNat = c.toNat ∧ rest = [])
      ∨ (128 ≤ c.toNat ∧ 0xC0 ≤ first ∧ ∀ b ∈ rest, 0x80 ≤ b)) := by
  obtain h | h | h | h := c.utf8Size_eq
  · have hle := Char.utf8Size_eq_one_iff.mp h
    have hlt : c.toNat < 128 := Nat.lt_succ_of_le (UInt32.le_iff_toNat_le.mp hle)
    have hfirst : c.val.toUInt8.toNat = c.toNat := by
      rw [UInt32.toNat_toUInt8]
      exact Nat.mod_eq_of_lt (by change c.toNat < 256; omega)
    have hsmall : c.val.toUInt8 < 0x80 := by
      rw [UInt8.lt_iff_toNat_lt, hfirst]
      exact hlt
    exact ⟨_, [], String.utf8EncodeChar_eq_singleton h, (utf8Extra_ascii hsmall).symm, .inl ⟨hlt, hfirst, rfl⟩⟩
  · have hge : 128 ≤ c.toNat := UInt32.lt_iff_toNat_lt.mp (Char.utf8Size_eq_two_iff.mp h).1
    exact ⟨_, _, String.utf8EncodeChar_eq_cons_cons h, (utf8Extra_two _).1.symm,
      .inr ⟨hge, (utf8Extra_two _).2, by simp [continuation_ge]⟩⟩
  · have hgt := UInt32.lt_iff_toNat_lt.mp (Char.utf8Size_eq_three_iff.mp h).1
    have hge : 128 ≤ c.toNat := le_trans (by decide) hgt.le
    exact ⟨_, _, String.utf8EncodeChar_eq_cons_cons_cons h, (utf8Extra_three _).1.symm,
      .inr ⟨hge, (utf8Extra_three _).2, by simp [continuation_ge]⟩⟩
  · have hgt := UInt32.lt_iff_toNat_lt.mp (Char.utf8Size_eq_four_iff.mp h)
    have hge : 128 ≤ c.toNat := le_trans (by decide) hgt.le
    exact ⟨_, _, String.utf8EncodeChar_eq_cons_cons_cons_cons h, (utf8Extra_four _).1.symm,
      .inr ⟨hge, (utf8Extra_four _).2, by simp [continuation_ge]⟩⟩

/-- The bytes that are read from a first one on are one character, if any. -/
theorem decodeUtf8_one {first : UInt8} {rest : Bytes} {text : List Char}
    (h : decodeUtf8 (first :: rest.take (utf8Extra first)) = some text) : ∃ c, text = [c] := by
  have hback := encode_decodeUtf8 h
  cases text with
  | nil => simp at hback
  | cons c text =>
    obtain ⟨b, tail, hc, hlength, -⟩ := utf8EncodeChar_cons c
    rw [List.flatMap_cons, hc, List.cons_append, List.cons.injEq] at hback
    obtain ⟨rfl, hback⟩ := hback
    have hlen := congrArg List.length hback
    rw [List.length_append, hlength, List.length_take] at hlen
    have hnil : text.flatMap String.utf8EncodeChar = [] := List.eq_nil_of_length_eq_zero (by omega)
    cases text with
    | nil => exact ⟨c, rfl⟩
    | cons d text => simp [List.flatMap_cons] at hnil

/-- ASCII bytes at the front of a text are its first characters. -/
theorem prefix_of_utf8 {mark text : List Char} (hmark : ∀ c ∈ mark, c.toNat < 128)
    (h : utf8 mark <+: utf8 text) : mark <+: text := by
  induction mark generalizing text with
  | nil => exact List.nil_prefix
  | cons m mark ih =>
    rw [List.forall_mem_cons] at hmark
    obtain ⟨first, rest, hm, -, hascii | hwide⟩ := utf8EncodeChar_cons m
    · obtain ⟨-, hfirst, rfl⟩ := hascii
      cases text with
      | nil => simp [utf8, hm] at h
      | cons c text =>
        obtain ⟨first', rest', hc, -, hascii' | hwide'⟩ := utf8EncodeChar_cons c
        · obtain ⟨-, hfirst', rfl⟩ := hascii'
          have hmc : utf8 (m :: mark) = first :: utf8 mark := by simp [utf8, hm]
          have hcc : utf8 (c :: text) = first' :: utf8 text := by simp [utf8, hc]
          rw [hmc, hcc, List.cons_prefix_cons] at h
          obtain rfl : m = c := Char.toNat_inj.mp (by rw [← hfirst, ← hfirst', h.1])
          exact List.cons_prefix_cons.mpr ⟨rfl, ih hmark.2 h.2⟩
        · have hmc : utf8 (m :: mark) = first :: utf8 mark := by simp [utf8, hm]
          have hcc : utf8 (c :: text) = first' :: (rest' ++ utf8 text) := by simp [utf8, hc]
          rw [hmc, hcc, List.cons_prefix_cons] at h
          have hge : 0xC0 ≤ first := h.1 ▸ hwide'.2.1
          rw [UInt8.le_iff_toNat_le, hfirst] at hge
          simp at hge
          omega
    · omega

theorem infix_of_utf8 {a : Char} {mark text : List Char} (hmark : ∀ c ∈ a :: mark, c.toNat < 128)
    (h : utf8 (a :: mark) <:+: utf8 text) : a :: mark <:+: text := by
  have ha := hmark a (by simp)
  obtain ⟨first, rest, hfirst, -, hascii | hwide⟩ := utf8EncodeChar_cons a
  · obtain ⟨-, hnat, rfl⟩ := hascii
    have hbytes : utf8 (a :: mark) = first :: utf8 mark := by simp [utf8, hfirst]
    have hskip : ∀ {b : UInt8} {bytes : Bytes}, 0x80 ≤ b → utf8 (a :: mark) <:+: b :: bytes → utf8 (a :: mark) <:+: bytes := by
      intro b bytes hb hinfix
      refine (List.infix_cons_iff.mp hinfix).resolve_left ?_
      rw [hbytes, List.cons_prefix_cons]
      rintro ⟨rfl, -⟩
      rw [UInt8.le_iff_toNat_le, hnat] at hb
      simp at hb
      omega
    induction text with
    | nil => simp [hbytes, utf8] at h
    | cons c text ih =>
      by_cases hprefix : utf8 (a :: mark) <+: utf8 (c :: text)
      · exact (prefix_of_utf8 hmark hprefix).isInfix
      · refine (ih ?_).trans (List.suffix_cons c text).isInfix
        obtain ⟨first', rest', hc, -, hascii' | hwide'⟩ := utf8EncodeChar_cons c
        · obtain ⟨-, -, rfl⟩ := hascii'
          have hcc : utf8 (c :: text) = first' :: utf8 text := by simp [utf8, hc]
          rw [hcc] at h hprefix
          exact (List.infix_cons_iff.mp h).resolve_left hprefix
        · have hcc : utf8 (c :: text) = first' :: (rest' ++ utf8 text) := by simp [utf8, hc]
          rw [hcc] at h hprefix
          have hrest := (List.infix_cons_iff.mp h).resolve_left hprefix
          have htail : ∀ l : Bytes, (∀ b ∈ l, 0x80 ≤ b) → utf8 (a :: mark) <:+: l ++ utf8 text →
              utf8 (a :: mark) <:+: utf8 text := by
            intro l hl
            induction l with
            | nil => exact id
            | cons b l ih =>
              rw [List.forall_mem_cons] at hl
              exact fun h => ih hl.2 (hskip hl.1 h)
          exact htail rest' hwide'.2.2 hrest
  · omega

/-! ## 2. What can be returned -/

variable {py : CharTable}

/-- What one call of the reader can return. -/
inductive Decoded (py : CharTable) : Keystroke → Prop
  | plain {key : Key} : key ∈ [Key.esc, .at_, .unknown] → Decoded py ⟨key, []⟩
  | control (byte : UInt8) : isControl byte = true → Decoded py (decodeControl byte)
  | char (c : Char) : py.isPrintable c = true → Decoded py ⟨.char, [c]⟩
  | alt (c : Char) : py.isPrintable c = true → Decoded py ⟨.alt, [c]⟩
  | altControl (byte : UInt8) : isControl byte = true → byte ≠ 0x1B → Decoded py (decodeAlt py [byte])
  | csi {sequence : Bytes} {k : Keystroke} : decodeCsi sequence = .ok k → Decoded py k
  | ss3 (final : Option UInt8) : Decoded py (decodeSs3 final)
  | paste (text : List Char) : Decoded py ⟨.paste, text⟩

theorem decodeAlt_decoded {second : UInt8} (hesc : second ≠ 0x1B) (rest : Bytes) :
    Decoded py (decodeAlt py (second :: rest.take (utf8Extra second))) := by
  have htext : Decoded py (decodeAlt.text py (second :: rest.take (utf8Extra second))) := by
    rw [decodeAlt.text]
    split
    · next text htext =>
      obtain ⟨c, rfl⟩ := decodeUtf8_one htext
      split
      · next hprintable => exact .alt c (by simpa using hprintable)
      · exact .plain (by simp)
    · exact .plain (by simp)
  by_cases hcontrol : isControl second = true ∧ rest.take (utf8Extra second) = []
  · rw [hcontrol.2]
    exact .altControl second hcontrol.1 hesc
  · rw [decodeAlt.eq_def]
    split
    · next byte heq =>
      obtain ⟨rfl, hnil⟩ := List.cons.inj heq
      rw [if_neg (fun h => hcontrol ⟨h, hnil⟩)]
      rw [hnil] at htext
      rw [hnil]
      exact htext
    · exact htext

theorem afterCsi_decoded {again : Terminal → Option ReadKey} {fuel : Nat} {seq : Bytes} {t t' : Terminal}
    {k : Keystroke} (hagain : ∀ t, again t = some (.key k t') → Decoded py k)
    (h : afterCsi again fuel seq t = some (.key k t')) : Decoded py k := by
  rw [afterCsi] at h
  split at h
  · split at h
    · cases h
    · exact hagain _ h
  · split at h
    · obtain ⟨p, -, hp⟩ := Option.map_eq_some_iff.mp h
      obtain ⟨rfl, -⟩ := ReadKey.key.inj hp
      exact .paste _
    · split at h
      · obtain ⟨rfl, -⟩ := ReadKey.key.inj (Option.some.inj h)
        exact .alt '[' (by rw [py.isPrintable_ascii '[' (by decide)]; decide)
      · cases hcsi : decodeCsi seq with
        | error error => simp [ReadKey.of, hcsi] at h
        | ok k' =>
          obtain ⟨rfl, -⟩ : k' = k ∧ t = t' := by simpa [ReadKey.of, hcsi] using h
          exact .csi hcsi

theorem afterEscape_decoded {again : Terminal → Option ReadKey} {fuel : Nat} {t t' : Terminal} {k : Keystroke}
    (hagain : ∀ t, again t = some (.key k t') → Decoded py k)
    (h : afterEscape py again fuel t = some (.key k t')) : Decoded py k := by
  rw [afterEscape] at h
  split at h
  · split at h
    · cases h
    · obtain ⟨rfl, -⟩ := ReadKey.key.inj (Option.some.inj h)
      exact .plain (by simp)
  · next second rest hbytes =>
    split at h
    · split at h
      · obtain ⟨rfl, -⟩ := ReadKey.key.inj (Option.some.inj h)
        split
        · exact .ss3 none
        · exact .alt 'O' (by rw [py.isPrintable_ascii 'O' (by decide)]; decide)
      · obtain ⟨rfl, -⟩ := ReadKey.key.inj (Option.some.inj h)
        exact .ss3 _
    · split at h
      · split at h
        · cases h
        · exact afterCsi_decoded hagain h
      · split at h
        · obtain ⟨rfl, -⟩ := ReadKey.key.inj (Option.some.inj h)
          exact .plain (by simp)
        · next hesc =>
          obtain ⟨rfl, -⟩ := ReadKey.key.inj (Option.some.inj h)
          exact decodeAlt_decoded hesc _

theorem afterByte_decoded {first : UInt8} {rest : Bytes} {t t' : Terminal} {k : Keystroke}
    (h : afterByte py first rest t = .key k t') : Decoded py k := by
  rw [afterByte] at h
  split at h
  · next hcontrol =>
    obtain ⟨rfl, -⟩ := ReadKey.key.inj h
    exact .control _ hcontrol
  · split at h
    · obtain ⟨rfl, -⟩ := ReadKey.key.inj h
      exact .plain (by simp)
    · obtain ⟨rfl, -⟩ := ReadKey.key.inj h
      split
      · next text htext =>
        obtain ⟨c, rfl⟩ := decodeUtf8_one htext
        split
        · next hprintable => exact .char c (by simpa using hprintable)
        · exact .plain (by simp)
      · exact .plain (by simp)

theorem readKey_decoded {fuel : Nat} {t t' : Terminal} {k : Keystroke} (h : readKey py fuel t = some (.key k t')) :
    Decoded py k := by
  induction fuel generalizing t with
  | zero => cases h
  | succ fuel ih =>
    rw [readKey] at h
    split at h
    · split at h <;> cases h
    · split at h
      · exact afterEscape_decoded (fun t => ih) h
      · exact afterByte_decoded (Option.some.inj h)

end Agenthicc.Tui
