/-
Agenthicc.Python.Codecs — the text encodings of a file that is edited.

`decode` is strict. `encode` writes each character by itself, behind the mark
that the codec puts first; whether decoded bytes come back is `KeepsBytes`.
`decodeReplace` takes any bytes.
-/
import Mathlib.Tactic.Common

namespace Python

abbrev Bytes := List UInt8

/-! ## 1. UTF-8 -/

/-- `codecs.BOM_UTF8`. -/
def BOM_UTF8 : Bytes := [0xEF, 0xBB, 0xBF]

/-- Strict UTF-8. -/
def decodeUtf8 (data : Bytes) : Option (List Char) := data.toByteArray.utf8Decode?.map Array.toList

/-- `text.encode("utf-8")`. -/
def utf8 (text : List Char) : Bytes := text.flatMap String.utf8EncodeChar

theorem decodeUtf8_encode (text : List Char) :
    decodeUtf8 (text.flatMap String.utf8EncodeChar) = some text := by
  have h : (text.flatMap String.utf8EncodeChar).toByteArray = text.utf8Encode := rfl
  rw [decodeUtf8, h, List.utf8Decode?_utf8Encode]
  rfl

theorem encode_decodeUtf8 {data : Bytes} {text : List Char} (h : decodeUtf8 data = some text) :
    text.flatMap String.utf8EncodeChar = data := by
  obtain ⟨chars, hchars, rfl⟩ := Option.map_eq_some_iff.mp h
  obtain ⟨text, htext⟩ := ByteArray.isSome_utf8Decode?_iff.mp (Option.isSome_of_eq_some hchars)
  have hback : some chars = some text.toArray := by
    rw [← hchars, htext, List.utf8Decode?_utf8Encode]
  obtain rfl := Option.some.inj hback
  have hbytes := congrArg (fun b => b.data.toList) htext
  rw [List.utf8Encode, List.toList_data_toByteArray, List.toList_data_toByteArray] at hbytes
  exact hbytes.symm

theorem decodeUtf8_append (c : Char) (data : Bytes) :
    decodeUtf8 (String.utf8EncodeChar c ++ data) = (decodeUtf8 data).map (c :: ·) := by
  have hbytes : (String.utf8EncodeChar c ++ data).toByteArray = [c].utf8Encode ++ data.toByteArray := by
    rw [List.toByteArray_append, List.utf8Encode_singleton]
  rw [decodeUtf8, hbytes, ByteArray.utf8Decode?_utf8Encode_singleton_append, decodeUtf8]
  cases data.toByteArray.utf8Decode? with
  | none => rfl
  | some chars => simp

/-! ## 2. UTF-16 -/

inductive ByteOrder where
  | little
  | big
  deriving DecidableEq

/-- `codecs.BOM_UTF16_LE` and `codecs.BOM_UTF16_BE`. -/
def BOM_UTF16 : ByteOrder → Bytes
  | .little => [0xFF, 0xFE]
  | .big => [0xFE, 0xFF]

def unitBytes : ByteOrder → Nat → Bytes
  | .little, u => [UInt8.ofNat u, UInt8.ofNat (u / 256)]
  | .big, u => [UInt8.ofNat (u / 256), UInt8.ofNat u]

def unitOf : ByteOrder → UInt8 → UInt8 → Nat
  | .little, a, b => a.toNat + 256 * b.toNat
  | .big, a, b => 256 * a.toNat + b.toNat

/-- The code units of bytes; an odd one at the end is refused. -/
def units (order : ByteOrder) : Bytes → Option (List Nat)
  | [] => some []
  | [_] => none
  | a :: b :: rest => (units order rest).map (unitOf order a b :: ·)

/-- The code units of a character: one, or a surrogate pair. -/
def charUnits (c : Char) : List Nat :=
  if c.toNat < 0x10000 then [c.toNat]
  else [0xD800 + (c.toNat - 0x10000) / 0x400, 0xDC00 + (c.toNat - 0x10000) % 0x400]

/-- The unit is a character by itself. -/
def plainUnit (u : Nat) : Bool := u < 0xD800 || 0xDFFF < u

/-- The characters of code units; a surrogate without its other half is refused. -/
def unitChars : List Nat → Option (List Char)
  | [] => some []
  | [u] => if plainUnit u then some [Char.ofNat u] else none
  | u :: v :: rest =>
      if plainUnit u then (unitChars (v :: rest)).map (Char.ofNat u :: ·)
      else if u ≤ 0xDBFF ∧ 0xDC00 ≤ v ∧ v ≤ 0xDFFF then
        (unitChars rest).map (Char.ofNat (0x10000 + (u - 0xD800) * 0x400 + (v - 0xDC00)) :: ·)
      else none

def utf16Bytes (order : ByteOrder) (c : Char) : Bytes := (charUnits c).flatMap (unitBytes order)

/-- Strict UTF-16 in one byte order, without a mark. -/
def decodeUtf16 (order : ByteOrder) (data : Bytes) : Option (List Char) := (units order data).bind unitChars

theorem unitOf_lt (order : ByteOrder) (a b : UInt8) : unitOf order a b < 0x10000 := by
  have ha := a.toNat_lt
  have hb := b.toNat_lt
  cases order <;> simp only [unitOf] <;> omega

theorem unitBytes_unitOf (order : ByteOrder) (a b : UInt8) : unitBytes order (unitOf order a b) = [a, b] := by
  have ha := a.toNat_lt
  have hb := b.toNat_lt
  cases order with
  | little =>
    have hlow : UInt8.ofNat (a.toNat + 256 * b.toNat) = a := by
      apply UInt8.toNat_inj.mp
      rw [UInt8.toNat_ofNat']
      omega
    have hhigh : (a.toNat + 256 * b.toNat) / 256 = b.toNat := by omega
    rw [unitOf, unitBytes, hlow, hhigh, UInt8.ofNat_toNat]
  | big =>
    have hlow : UInt8.ofNat (256 * a.toNat + b.toNat) = b := by
      apply UInt8.toNat_inj.mp
      rw [UInt8.toNat_ofNat']
      omega
    have hhigh : (256 * a.toNat + b.toNat) / 256 = a.toNat := by omega
    rw [unitOf, unitBytes, hlow, hhigh, UInt8.ofNat_toNat]

theorem flatMap_units (order : ByteOrder) {data : Bytes} {us : List Nat} (h : units order data = some us) :
    us.flatMap (unitBytes order) = data ∧ ∀ u ∈ us, u < 0x10000 := by
  induction data using units.induct generalizing us with
  | case1 =>
    obtain rfl : [] = us := Option.some.inj h
    simp
  | case2 a => exact absurd h (by simp [units])
  | case3 a b rest ih =>
    rw [units] at h
    obtain ⟨us', hus', rfl⟩ := Option.map_eq_some_iff.mp h
    obtain ⟨hback, hlt⟩ := ih hus'
    rw [List.flatMap_cons, unitBytes_unitOf, hback, List.forall_mem_cons]
    exact ⟨rfl, unitOf_lt order a b, hlt⟩

theorem units_unitBytes (order : ByteOrder) {u : Nat} (hu : u < 0x10000) (rest : Bytes) :
    units order (unitBytes order u ++ rest) = (units order rest).map (u :: ·) := by
  have hunit : ∀ a b, unitBytes order u = [a, b] → unitOf order a b = u := by
    intro a b hab
    cases order with
    | little =>
      obtain ⟨rfl, rfl⟩ : UInt8.ofNat u = a ∧ UInt8.ofNat (u / 256) = b := by simpa [unitBytes] using hab
      rw [unitOf, UInt8.toNat_ofNat', UInt8.toNat_ofNat']
      omega
    | big =>
      obtain ⟨rfl, rfl⟩ : UInt8.ofNat (u / 256) = a ∧ UInt8.ofNat u = b := by simpa [unitBytes] using hab
      rw [unitOf, UInt8.toNat_ofNat', UInt8.toNat_ofNat']
      omega
  obtain ⟨a, b, hab⟩ : ∃ a b, unitBytes order u = [a, b] := by cases order <;> exact ⟨_, _, rfl⟩
  rw [hab, List.cons_append, List.cons_append, List.nil_append, units, hunit a b hab]

theorem units_flatMap (order : ByteOrder) {us : List Nat} (h : ∀ u ∈ us, u < 0x10000) :
    units order (us.flatMap (unitBytes order)) = some us := by
  induction us with
  | nil => rfl
  | cons u us ih =>
    rw [List.forall_mem_cons] at h
    rw [List.flatMap_cons, units_unitBytes order h.1, ih h.2]
    rfl

theorem toNat_scalar (c : Char) : c.toNat < 0xD800 ∨ 0xDFFF < c.toNat ∧ c.toNat < 0x110000 := c.valid

theorem charUnits_lt (c : Char) : ∀ u ∈ charUnits c, u < 0x10000 := by
  have hc := toNat_scalar c
  intro u hu
  unfold charUnits at hu
  split at hu
  · rw [List.mem_singleton] at hu
    omega
  · rw [List.mem_cons, List.mem_singleton] at hu
    omega

theorem unitChars_charUnits (c : Char) (us : List Nat) :
    unitChars (charUnits c ++ us) = (unitChars us).map (c :: ·) := by
  have hc := toNat_scalar c
  unfold charUnits
  split
  · next hsmall =>
    have hplain : plainUnit c.toNat = true := by
      simp only [plainUnit, Bool.or_eq_true, decide_eq_true_eq]
      omega
    cases us with
    | nil => simp [unitChars, hplain, Char.ofNat_toNat]
    | cons v rest => simp [unitChars, hplain, Char.ofNat_toNat]
  · next hlarge =>
    have hplain : plainUnit (0xD800 + (c.toNat - 0x10000) / 0x400) = false := by
      simp only [plainUnit, Bool.or_eq_false_iff, decide_eq_false_iff_not]
      omega
    have hpair : 0xD800 + (c.toNat - 0x10000) / 0x400 ≤ 0xDBFF
        ∧ 0xDC00 ≤ 0xDC00 + (c.toNat - 0x10000) % 0x400
        ∧ 0xDC00 + (c.toNat - 0x10000) % 0x400 ≤ 0xDFFF := by omega
    have hback : 0x10000 + (0xD800 + (c.toNat - 0x10000) / 0x400 - 0xD800) * 0x400
        + (0xDC00 + (c.toNat - 0x10000) % 0x400 - 0xDC00) = c.toNat := by omega
    rw [List.cons_append, List.cons_append, List.nil_append, unitChars, if_neg (by simp [hplain]),
      if_pos hpair, hback, Char.ofNat_toNat]

theorem unitChars_flatMap (text : List Char) : unitChars (text.flatMap charUnits) = some text := by
  induction text with
  | nil => rfl
  | cons c text ih => rw [List.flatMap_cons, unitChars_charUnits, ih]; rfl

theorem toNat_ofNat_scalar {n : Nat} (h : n < 0xD800 ∨ 0xDFFF < n ∧ n < 0x110000) :
    (Char.ofNat n).toNat = n := by
  rw [Char.ofNat, dif_pos h]
  rfl

theorem charUnits_plain {u : Nat} (hu : u < 0x10000) (h : plainUnit u = true) :
    charUnits (Char.ofNat u) = [u] := by
  simp only [plainUnit, Bool.or_eq_true, decide_eq_true_eq] at h
  rw [charUnits, toNat_ofNat_scalar (by omega), if_pos hu]

theorem charUnits_pair {u v : Nat} (h : plainUnit u = false) (hu : u ≤ 0xDBFF) (hv : 0xDC00 ≤ v)
    (hv' : v ≤ 0xDFFF) :
    charUnits (Char.ofNat (0x10000 + (u - 0xD800) * 0x400 + (v - 0xDC00))) = [u, v] := by
  simp only [plainUnit, Bool.or_eq_false_iff, decide_eq_false_iff_not] at h
  have hhigh : 0xD800 + (0x10000 + (u - 0xD800) * 0x400 + (v - 0xDC00) - 0x10000) / 0x400 = u := by omega
  have hlow : 0xDC00 + (0x10000 + (u - 0xD800) * 0x400 + (v - 0xDC00) - 0x10000) % 0x400 = v := by omega
  rw [charUnits, toNat_ofNat_scalar (by omega), if_neg (by omega), hhigh, hlow]

/-- Characters that were read are written with the same units. -/
theorem flatMap_unitChars {us : List Nat} (hlt : ∀ u ∈ us, u < 0x10000) {text : List Char}
    (h : unitChars us = some text) : text.flatMap charUnits = us := by
  induction us using unitChars.induct generalizing text with
  | case1 =>
    obtain rfl : [] = text := Option.some.inj h
    rfl
  | case2 u hplain =>
    rw [unitChars, if_pos hplain] at h
    obtain rfl := Option.some.inj h
    simp [charUnits_plain (hlt u (by simp)) hplain]
  | case3 u hplain => exact absurd h (by simp [unitChars, hplain])
  | case4 u v rest hplain ih =>
    rw [unitChars, if_pos hplain] at h
    obtain ⟨text', htext', rfl⟩ := Option.map_eq_some_iff.mp h
    rw [List.flatMap_cons, charUnits_plain (hlt u (by simp)) hplain,
      ih (fun w hw => hlt w (List.mem_cons_of_mem _ hw)) htext']
    rfl
  | case5 u v rest hplain hpair ih =>
    rw [unitChars, if_neg hplain, if_pos hpair] at h
    obtain ⟨text', htext', rfl⟩ := Option.map_eq_some_iff.mp h
    rw [List.flatMap_cons, charUnits_pair (by simpa using hplain) hpair.1 hpair.2.1 hpair.2.2,
      ih (fun w hw => hlt w (List.mem_cons_of_mem _ (List.mem_cons_of_mem _ hw))) htext']
    rfl
  | case6 u v rest hplain hpair => exact absurd h (by simp [unitChars, hplain, hpair])

theorem flatMap_utf16Bytes (order : ByteOrder) (text : List Char) :
    text.flatMap (utf16Bytes order) = (text.flatMap charUnits).flatMap (unitBytes order) := by
  rw [List.flatMap_assoc]
  rfl

theorem decodeUtf16_encode (order : ByteOrder) (text : List Char) :
    decodeUtf16 order (text.flatMap (utf16Bytes order)) = some text := by
  have hlt : ∀ u ∈ text.flatMap charUnits, u < 0x10000 := by
    intro u hu
    obtain ⟨c, -, hc⟩ := List.mem_flatMap.mp hu
    exact charUnits_lt c u hc
  rw [decodeUtf16, flatMap_utf16Bytes, units_flatMap order hlt]
  exact unitChars_flatMap text

theorem encode_decodeUtf16 {order : ByteOrder} {data : Bytes} {text : List Char}
    (h : decodeUtf16 order data = some text) : text.flatMap (utf16Bytes order) = data := by
  obtain ⟨us, hus, hchars⟩ := Option.bind_eq_some_iff.mp h
  obtain ⟨hback, hlt⟩ := flatMap_units order hus
  rw [flatMap_utf16Bytes, flatMap_unitChars hlt hchars, hback]

/-! ## 3. Encodings -/

/-- A code page: the character of each byte, and the byte of each character.
Two bytes may be the same character; it is encoded to one of them. -/
structure Charmap where
  decoding : UInt8 → Option Char
  encoding : Char → Option UInt8
  decoding_encoding : ∀ {c b}, encoding c = some b → decoding b = some c

/-- The encodings of files. `utf_16` writes in the order of the machine. -/
inductive Encoding where
  | utf_8
  | utf_8_sig
  | utf_16 (byteorder : ByteOrder)
  | utf_16_le
  | utf_16_be
  | charmap (table : Charmap)

namespace Encoding

/-- `data.decode(encoding)`. -/
def decode : Encoding → Bytes → Option (List Char)
  | utf_8, data => decodeUtf8 data
  | utf_8_sig, data => decodeUtf8 (if BOM_UTF8 <+: data then data.drop 3 else data)
  | utf_16 byteorder, data =>
      if BOM_UTF16 .little <+: data then decodeUtf16 .little (data.drop 2)
      else if BOM_UTF16 .big <+: data then decodeUtf16 .big (data.drop 2)
      else decodeUtf16 byteorder data
  | utf_16_le, data => decodeUtf16 .little data
  | utf_16_be, data => decodeUtf16 .big data
  | charmap table, data => data.mapM table.decoding

/-- What `encode` puts before the characters. -/
def mark : Encoding → Bytes
  | utf_8_sig => BOM_UTF8
  | utf_16 byteorder => BOM_UTF16 byteorder
  | utf_8 | utf_16_le | utf_16_be | charmap _ => []

/-- The bytes of one character. -/
def charBytes : Encoding → Char → Option Bytes
  | utf_8, c | utf_8_sig, c => some (String.utf8EncodeChar c)
  | utf_16 byteorder, c => some (utf16Bytes byteorder c)
  | utf_16_le, c => some (utf16Bytes .little c)
  | utf_16_be, c => some (utf16Bytes .big c)
  | charmap table, c => (table.encoding c).map fun b => [b]

def encodable (e : Encoding) (text : List Char) : Bool := text.all fun c => (e.charBytes c).isSome

/-- The bytes of a text, without the mark. -/
def spell (e : Encoding) (text : List Char) : Bytes := text.flatMap fun c => (e.charBytes c).getD []

/-- `text.encode(encoding)`. -/
def encode (e : Encoding) (text : List Char) : Option Bytes :=
  if e.encodable text then some (e.mark ++ e.spell text) else none

/-- The bytes are what the encoding writes for the text that it reads in them:
they begin with its mark, and no byte has a character of another one. -/
def KeepsBytes : Encoding → Bytes → Prop
  | utf_8, _ | utf_16_le, _ | utf_16_be, _ => True
  | utf_8_sig, data => BOM_UTF8 <+: data
  | utf_16 byteorder, data => BOM_UTF16 byteorder <+: data
  | charmap table, data => ∀ b ∈ data, ∀ c, table.decoding b = some c → table.encoding c = some b

variable {e : Encoding} {data : Bytes} {text : List Char}

theorem encode_eq_some : e.encode text = some data ↔ e.encodable text = true ∧ e.mark ++ e.spell text = data := by
  rw [encode]
  split
  · next h => simp [h]
  · next h => simp [h]

/-- Behind the mark of the machine the rest is in its order. -/
theorem decode_utf_16_mark (byteorder : ByteOrder) (rest : Bytes) :
    (utf_16 byteorder).decode (BOM_UTF16 byteorder ++ rest) = decodeUtf16 byteorder rest := by
  cases byteorder with
  | little => rfl
  | big => rfl

theorem encode_charmap (table : Charmap) (h : data.mapM table.decoding = some text) :
    (charmap table).encode text = some data
      ↔ ∀ b ∈ data, ∀ c, table.decoding b = some c → table.encoding c = some b := by
  rw [encode_eq_some, mark, List.nil_append]
  induction data generalizing text with
  | nil =>
    obtain rfl : [] = text := by simpa using h
    simp [encodable, spell]
  | cons b data ih =>
    rw [List.mapM_cons] at h
    obtain ⟨c, hc, text', htext', rfl⟩ : ∃ c, table.decoding b = some c
        ∧ ∃ text', data.mapM table.decoding = some text' ∧ c :: text' = text := by
      simpa [Option.bind_eq_some_iff] using h
    have hb : (∀ c', table.decoding b = some c' → table.encoding c' = some b)
        ↔ table.encoding c = some b := by simp [hc]
    rw [List.forall_mem_cons, hb, ← ih htext']
    cases hback : table.encoding c with
    | none => simp [encodable, charBytes, hback]
    | some b' =>
      simp [encodable, spell, charBytes, hback, and_left_comm]

theorem decode_charmap (table : Charmap) (h : (charmap table).encode text = some data) :
    data.mapM table.decoding = some text := by
  rw [encode_eq_some, mark, List.nil_append] at h
  obtain ⟨hall, rfl⟩ := h
  induction text with
  | nil => simp [spell]
  | cons c text ih =>
    rw [encodable, List.all_cons, Bool.and_eq_true] at hall
    obtain ⟨bytes, hbytes⟩ := Option.isSome_iff_exists.mp hall.1
    obtain ⟨b, hb, rfl⟩ := Option.map_eq_some_iff.mp hbytes
    have hspell : (charmap table).spell (c :: text) = b :: (charmap table).spell text := by
      simp [spell, hbytes]
    rw [hspell, List.mapM_cons, table.decoding_encoding hb, ih hall.2]
    rfl

theorem encode_total (bytes : Char → Bytes) (h : ∀ c, e.charBytes c = some (bytes c)) (text : List Char) :
    e.encode text = some (e.mark ++ text.flatMap bytes) := by
  rw [encode_eq_some, encodable, spell]
  simp [h]

/-- What was read is written as it stood exactly where the encoding keeps the bytes. -/
theorem encode_decode (h : e.decode data = some text) : e.encode text = some data ↔ e.KeepsBytes data := by
  cases e with
  | utf_8 =>
    rw [encode_total String.utf8EncodeChar (fun _ => rfl), encode_decodeUtf8 h]
    simp [mark, KeepsBytes]
  | utf_8_sig =>
    rw [encode_total String.utf8EncodeChar (fun _ => rfl), encode_decodeUtf8 h, Option.some_inj,
      mark, KeepsBytes]
    split
    · next hmark => exact ⟨fun _ => hmark, fun _ => List.prefix_iff_eq_append.mp hmark⟩
    · next hmark => exact ⟨fun heq => heq ▸ List.prefix_append _ _, fun hmark' => absurd hmark' hmark⟩
  | utf_16 byteorder =>
    rw [encode_total (utf16Bytes byteorder) (fun _ => rfl), Option.some_inj, mark, KeepsBytes]
    refine ⟨fun heq => heq ▸ List.prefix_append _ _, fun hmark => ?_⟩
    obtain ⟨rest, rfl⟩ := hmark
    rw [decode_utf_16_mark] at h
    rw [encode_decodeUtf16 h]
  | utf_16_le =>
    rw [encode_total (utf16Bytes .little) (fun _ => rfl), encode_decodeUtf16 h]
    simp [mark, KeepsBytes]
  | utf_16_be =>
    rw [encode_total (utf16Bytes .big) (fun _ => rfl), encode_decodeUtf16 h]
    simp [mark, KeepsBytes]
  | charmap table => exact encode_charmap table h

theorem decode_encode (h : e.encode text = some data) : e.decode data = some text := by
  cases e with
  | utf_8 =>
    rw [encode_total String.utf8EncodeChar (fun _ => rfl)] at h
    obtain rfl := Option.some.inj h
    exact decodeUtf8_encode text
  | utf_8_sig =>
    rw [encode_total String.utf8EncodeChar (fun _ => rfl)] at h
    obtain rfl := Option.some.inj h
    rw [decode, mark, if_pos (List.prefix_append _ _)]
    exact decodeUtf8_encode text
  | utf_16 byteorder =>
    rw [encode_total (utf16Bytes byteorder) (fun _ => rfl)] at h
    obtain rfl := Option.some.inj h
    rw [mark, decode_utf_16_mark, decodeUtf16_encode]
  | utf_16_le =>
    rw [encode_total (utf16Bytes .little) (fun _ => rfl)] at h
    obtain rfl := Option.some.inj h
    exact decodeUtf16_encode .little text
  | utf_16_be =>
    rw [encode_total (utf16Bytes .big) (fun _ => rfl)] at h
    obtain rfl := Option.some.inj h
    exact decodeUtf16_encode .big text
  | charmap table => exact decode_charmap table h

end Encoding

/-! ## 4. Bytes that are no UTF-8 -/

/-- The bytes that may stand behind this first one. -/
def secondByte (first second : UInt8) : Bool :=
  if first = 0xE0 then 0xA0 ≤ second && second ≤ 0xBF
  else if first = 0xED then 0x80 ≤ second && second ≤ 0x9F
  else if first = 0xF0 then 0x90 ≤ second && second ≤ 0xBF
  else if first = 0xF4 then 0x80 ≤ second && second ≤ 0x8F
  else 0x80 ≤ second && second ≤ 0xBF

/-- How many bytes one replacement character stands for: as far as they could
begin a character. -/
def brokenLength : Bytes → Nat
  | first :: second :: third :: _ =>
      if first < 0xC2 || 0xF4 < first || !secondByte first second then 1
      else if first < 0xF0 || third < 0x80 || 0xBF < third then 2 else 3
  | [first, second] =>
      if first < 0xC2 || 0xF4 < first || !secondByte first second then 1 else 2
  | _ => 1

/-- The character that bytes begin with. -/
def firstChar (data : Bytes) : Option Char := data.toByteArray.utf8DecodeChar? 0

def replaceLoop : Nat → Bytes → List Char
  | 0, _ => []
  | _ + 1, [] => []
  | n + 1, data =>
      match firstChar data with
      | some c => c :: replaceLoop n (data.drop c.utf8Size)
      | none => '\uFFFD' :: replaceLoop n (data.drop (brokenLength data))

/-- `data.decode("utf-8", errors="replace")`. -/
def decodeReplace (data : Bytes) : List Char := replaceLoop data.length data

end Python
