/-
Agenthicc.Tui.KeyEventTheorems — the keyboard reader loses no event and always
ends, exactly under the conditions of `KeyEvents`.
-/
import Agenthicc.Tui.KeyEvents

open Python

namespace Agenthicc.Tui

variable {py : CharTable}

/-! ## 1. Numbers -/

theorem intOf_long {field : Bytes} (h : Long field) : ∃ error, intOf field = .error error :=
  ⟨_, if_pos h⟩

theorem intOf_short {field : Bytes} (h : ¬ Long field) : ∃ n, intOf field = .ok n := ⟨_, if_neg h⟩

/-- A list of numbers is read unless one of them is refused. -/
theorem mapM_intOf (fields : List Bytes) :
    ((∃ field ∈ fields, Long field) → ∃ error, fields.mapM intOf = .error error)
      ∧ ((∀ field ∈ fields, ¬ Long field) → ∃ numbers, fields.mapM intOf = .ok numbers) := by
  induction fields with
  | nil => exact ⟨fun h => by simp at h, fun _ => ⟨[], rfl⟩⟩
  | cons field fields ih =>
    rw [List.mapM_cons]
    by_cases h : Long field
    · obtain ⟨error, herror⟩ := intOf_long h
      exact ⟨fun _ => ⟨error, by rw [herror]; rfl⟩, fun hall => absurd h (hall field (by simp))⟩
    · obtain ⟨n, hn⟩ := intOf_short h
      rw [hn]
      refine ⟨fun hex => ?_, fun hall => ?_⟩
      · obtain ⟨long, hmem, hlong⟩ := hex
        obtain rfl | hmem := List.mem_cons.mp hmem
        · exact absurd hlong h
        · obtain ⟨error, herror⟩ := ih.1 ⟨long, hmem, hlong⟩
          exact ⟨error, by rw [herror]; rfl⟩
      · obtain ⟨numbers, hnumbers⟩ := ih.2 (fun long hmem => hall long (List.mem_cons_of_mem _ hmem))
        exact ⟨n :: numbers, by rw [hnumbers]; rfl⟩

theorem parse_raises_iff (body : Bytes) (pressed : Bool) :
    (∃ error, MouseEvent.parse body pressed = .error error)
      ↔ (body.splitOn 0x3B).length = 3 ∧ (body.splitOn 0x3B).all isDigits = true
        ∧ ∃ field ∈ body.splitOn 0x3B, Long field := by
  unfold MouseEvent.parse
  generalize body.splitOn 0x3B = fields
  match fields with
  | [] => simp
  | [_] => simp
  | [_, _] => simp
  | _ :: _ :: _ :: _ :: _ => simp
  | [button, column, row] =>
    by_cases hdigits : (isDigits button && isDigits column && isDigits row) = true
    · have hall : [button, column, row].all isDigits = true := by simpa [Bool.and_assoc] using hdigits
      simp only [hdigits, if_true, hall, List.length_cons, List.length_nil, true_and, List.mem_cons,
        List.not_mem_nil, or_false, exists_eq_or_imp, exists_eq_left]
      by_cases hbutton : Long button
      · obtain ⟨error, herror⟩ := intOf_long hbutton
        exact iff_of_true ⟨error, by rw [herror]; rfl⟩ (.inl hbutton)
      · obtain ⟨b, hb⟩ := intOf_short hbutton
        rw [hb]
        by_cases hcolumn : Long column
        · obtain ⟨error, herror⟩ := intOf_long hcolumn
          exact iff_of_true ⟨error, by rw [herror]; rfl⟩ (.inr (.inl hcolumn))
        · obtain ⟨c, hc⟩ := intOf_short hcolumn
          rw [hc]
          by_cases hrow : Long row
          · obtain ⟨error, herror⟩ := intOf_long hrow
            exact iff_of_true ⟨error, by rw [herror]; rfl⟩ (.inr (.inr hrow))
          · obtain ⟨r, hr⟩ := intOf_short hrow
            rw [hr]
            refine iff_of_false ?_ (by simp [hbutton, hcolumn, hrow])
            rintro ⟨error, h⟩
            cases h
    · have hall : ¬ [button, column, row].all isDigits = true := by simpa [Bool.and_assoc] using hdigits
      simp only [if_neg hdigits]
      exact iff_of_false (by rintro ⟨error, h⟩; cases h) (fun h => hall h.2.1)

theorem map_raises_iff {ε α β : Type} {x : Except ε α} {f : α → β} :
    (∃ error, x.map f = .error error) ↔ ∃ error, x = .error error := by
  cases x with
  | error e => exact iff_of_true ⟨e, rfl⟩ ⟨e, rfl⟩
  | ok a => exact iff_of_false (by rintro ⟨e, h⟩; cases h) (by rintro ⟨e, h⟩; cases h)

/-- A sequence is refused exactly for a number that is too long. -/
theorem decodeCsi_raises_iff (seq : Bytes) : (∃ error, decodeCsi seq = .error error) ↔ LongCsi seq := by
  unfold LongCsi
  simp only [decodeCsi]
  by_cases hmouse : seq.head? = some 0x3C ∧ (seq.getLast? = some 0x4D ∨ seq.getLast? = some 0x6D)
  · rw [if_pos hmouse, if_pos hmouse, map_raises_iff]
    exact parse_raises_iff _ _
  · rw [if_neg hmouse, if_neg hmouse]
    have hshort : (csiFields seq.dropLast = []) → ∀ {k : Keystroke},
        ((∃ error, (Except.ok k : Except PyError Keystroke) = .error error)
          ↔ (csiFields seq.dropLast).all isDigits = true ∧ ∃ field ∈ csiFields seq.dropLast, Long field) := by
      intro hnil k
      rw [hnil]
      exact iff_of_false (by rintro ⟨e, h⟩; cases h) (by simp)
    split
    · next h => exact hshort (by rw [csiFields, if_pos h.2])
    · split
      · next h => exact hshort (by rw [csiFields, if_pos h.2])
      · split
        · next h => exact hshort (by rw [csiFields, if_pos h.2])
        · split
          · next h =>
            have hfields : ∀ seq ∈ ([[0x31, 0x33, 0x3B, 0x35, 0x75], [0x31, 0x33, 0x3B, 0x31, 0x75], [0x31, 0x33, 0x75]] :
                List Bytes), ∀ field ∈ csiFields seq.dropLast, ¬ Long field := by
              unfold Long
              decide
            refine iff_of_false (by rintro ⟨e, h⟩; cases h) ?_
            rintro ⟨-, field, hmem, hlong⟩
            exact hfields seq h field hmem hlong
          · split
            · next h =>
              refine iff_of_false (by rintro ⟨e, h⟩; cases h) (fun hdigits => ?_)
              rw [hdigits.1] at h
              cases h
            · next h =>
              have hdigits : (csiFields seq.dropLast).all isDigits = true := by simpa using h
              rw [map_raises_iff, and_iff_right hdigits]
              constructor
              · rintro ⟨error, herror⟩
                by_contra hnone
                obtain ⟨numbers, hnumbers⟩ := (mapM_intOf (csiFields seq.dropLast)).2
                  (fun field hmem hlong => hnone ⟨field, hmem, hlong⟩)
                rw [hnumbers] at herror
                cases herror
              · exact (mapM_intOf _).1

theorem decodeCsi_ok_iff (seq : Bytes) : (∃ k, decodeCsi seq = .ok k) ↔ ¬ LongCsi seq := by
  rw [← decodeCsi_raises_iff]
  cases decodeCsi seq with
  | error e => exact iff_of_false (by rintro ⟨k, h⟩; cases h) (fun h => h ⟨e, rfl⟩)
  | ok k => exact iff_of_true ⟨k, rfl⟩ (by rintro ⟨e, h⟩; cases h)

/-- What a report records does not depend on the terminal. -/
theorem recordModeReport_short {body : Bytes} (h : ¬ LongReport body) :
    ∃ more, ∀ t, recordModeReport body t = .ok { t with modes := t.modes ++ more } := by
  unfold recordModeReport
  by_cases hshape : 0x3B ∈ body ∧ isDigits (body.takeWhile (· ≠ 0x3B)) = true
      ∧ isDigits (body.dropWhile (· ≠ 0x3B)).tail = true
  · obtain ⟨mode, hmode⟩ := intOf_short (fun hlong => h ⟨hshape.1, hshape.2.1, hshape.2.2, .inl hlong⟩)
    obtain ⟨value, hvalue⟩ := intOf_short (fun hlong => h ⟨hshape.1, hshape.2.1, hshape.2.2, .inr hlong⟩)
    refine ⟨[(mode, value)], fun t => ?_⟩
    simp only [if_pos hshape, hmode, hvalue]
    rfl
  · exact ⟨[], fun t => by simp only [if_neg hshape, List.append_nil]⟩

theorem recordModeReport_long {body : Bytes} (h : LongReport body) (t : Terminal) :
    ∃ error, recordModeReport body t = .error error := by
  obtain ⟨hsep, hmode, hvalue, hlong⟩ := h
  have hshape : 0x3B ∈ body ∧ isDigits (body.takeWhile (· ≠ 0x3B)) = true
      ∧ isDigits (body.dropWhile (· ≠ 0x3B)).tail = true := ⟨hsep, hmode, hvalue⟩
  unfold recordModeReport
  simp only [if_pos hshape]
  by_cases hm : Long (body.takeWhile (· ≠ 0x3B))
  · obtain ⟨error, herror⟩ := intOf_long hm
    exact ⟨error, by rw [herror]; rfl⟩
  · obtain ⟨n, hn⟩ := intOf_short hm
    obtain ⟨error, herror⟩ := intOf_long (hlong.resolve_left hm)
    exact ⟨error, by rw [hn, herror]; rfl⟩

/-! ## 2. Sequences -/

theorem readCsi_final (ended : Bool) {parameters : Bytes} {final : UInt8} (hps : ∀ b ∈ parameters, isFinal b = false)
    (hfinal : isFinal final = true) (seq behind : Bytes) :
    readCsi ended seq (parameters ++ final :: behind) = .ok (seq ++ parameters ++ [final], behind) := by
  induction parameters generalizing seq with
  | nil =>
    rw [List.nil_append, readCsi, if_pos hfinal, List.append_nil]
  | cons b parameters ih =>
    rw [List.forall_mem_cons] at hps
    rw [List.cons_append, readCsi, if_neg (by simp [hps.1]), ih hps.2]
    simp

/-- What is read as a sequence: up to a final byte, or all there is. -/
theorem readCsi_cases {ended : Bool} {seq bytes seq' behind : Bytes} (h : readCsi ended seq bytes = .ok (seq', behind)) :
    (∃ parameters final, (∀ b ∈ parameters, isFinal b = false) ∧ isFinal final = true
        ∧ bytes = parameters ++ final :: behind ∧ seq' = seq ++ parameters ++ [final])
      ∨ (ended = false ∧ behind = [] ∧ seq' = seq ++ bytes) := by
  induction bytes generalizing seq with
  | nil =>
    rw [readCsi] at h
    cases ended with
    | true => cases h
    | false =>
      obtain ⟨rfl, rfl⟩ := Prod.mk.inj (Except.ok.inj h)
      exact .inr ⟨rfl, rfl, by simp⟩
  | cons b bytes ih =>
    rw [readCsi] at h
    split at h
    · next hfinal =>
      obtain ⟨rfl, rfl⟩ := Prod.mk.inj (Except.ok.inj h)
      exact .inl ⟨[], b, by simp, hfinal, rfl, by simp⟩
    · next hfinal =>
      obtain ⟨ps, final, hps, hf, rfl, rfl⟩ | ⟨hended, hbehind, rfl⟩ := ih h
      · exact .inl ⟨b :: ps, final, List.forall_mem_cons.mpr ⟨by simpa using hfinal, hps⟩, hf, rfl, by simp⟩
      · exact .inr ⟨hended, hbehind, by simp⟩

theorem readCsi_length {ended : Bool} {seq bytes seq' behind : Bytes} (h : readCsi ended seq bytes = .ok (seq', behind)) :
    behind.length ≤ bytes.length - 1 := by
  obtain ⟨ps, final, -, -, rfl, -⟩ | ⟨-, rfl, -⟩ := readCsi_cases h
  · simp
  · simp

/-! ## 3. Pastes -/

theorem pasteEnd_eq : pasteEnd = 0x1B :: [0x5B, 0x32, 0x30, 0x31, 0x7E] := rfl

theorem utf8_pasteEndText : utf8 pasteEndText = pasteEnd := by decide

/-- The end marker in the bytes of a text is one in the text. -/
theorem not_infix_utf8 {text : List Char} (h : ¬ pasteEndText <:+: text) : ¬ pasteEnd <:+: utf8 text := by
  rw [← utf8_pasteEndText]
  exact fun hbytes => h (infix_of_utf8 (by decide) hbytes)

theorem find_pasteEnd {content : Bytes} (h : ¬ pasteEnd <:+: content) (behind : Bytes) :
    Occurrences.find pasteEnd (content ++ pasteEnd ++ behind) = some content.length := by
  rw [pasteEnd_eq] at h ⊢
  exact Occurrences.find_append (by decide) h behind

theorem find_pasteEnd_early {content : Bytes} (h : ¬ pasteEnd <:+: content) {n : Nat}
    (hn : n < content.length + pasteEnd.length) :
    Occurrences.find pasteEnd ((content ++ pasteEnd).take n) = none := by
  rw [Occurrences.find_eq_none]
  rw [pasteEnd_eq] at h hn ⊢
  exact Occurrences.not_infix_take (by decide) h hn

/-- The loop stops at the end of the read that completes the marker. -/
theorem readPaste_eq {content behind : Bytes} (hcontent : ¬ pasteEnd <:+: content) {needed : Nat} (hpos : 0 < needed)
    {paste : Bytes} {t : Terminal} (hlength : paste.length + needed = content.length + pasteEnd.length)
    (hbytes : paste ++ t.bytes = content ++ pasteEnd ++ behind) {fuel : Nat} (hfuel : needed ≤ fuel) :
    readPaste fuel paste t
      = some (content, { t with bytes := t.bytes.drop (readBlocks needed t.fills).1, fills := (readBlocks needed t.fills).2 }) := by
  induction needed using Nat.strong_induction_on generalizing paste t fuel with
  | _ needed ih =>
    obtain ⟨fuel, rfl⟩ := Nat.exists_eq_add_one_of_ne_zero (show fuel ≠ 0 by omega)
    have hsize := blockSize_pos t.fills
    have htotal := congrArg List.length hbytes
    simp only [List.length_append] at htotal
    have hreadable : t.readable = true := by
      have hne : t.bytes ≠ [] := by
        intro hnil
        rw [hnil, List.length_nil] at htotal
        omega
      simp [Terminal.readable, hne]
    have hread : t.read 4096
        = (t.bytes.take (blockSize t.fills), { t with bytes := t.bytes.drop (blockSize t.fills), fills := t.fills.tail }) := rfl
    have hdata : paste ++ t.bytes.take (blockSize t.fills)
        = (content ++ pasteEnd ++ behind).take (paste.length + blockSize t.fills) := by
      rw [← hbytes, List.take_length_add_append]
    rw [readPaste, hreadable, hread]
    simp only [Bool.not_true, Bool.false_eq_true, if_false, hdata]
    rw [readBlocks]
    by_cases hlast : needed ≤ blockSize t.fills
    · have htake : (content ++ pasteEnd ++ behind).take (paste.length + blockSize t.fills)
          = content ++ pasteEnd ++ behind.take (blockSize t.fills - needed) := by
        rw [List.take_append, List.length_append,
          List.take_of_length_le (by rw [List.length_append]; omega)]
        congr 2
        omega
      rw [htake, find_pasteEnd hcontent, if_pos hlast]
      simp
    · have htake : (content ++ pasteEnd ++ behind).take (paste.length + blockSize t.fills)
          = (content ++ pasteEnd).take (paste.length + blockSize t.fills) := by
        rw [List.take_append_of_le_length (by rw [List.length_append]; omega)]
      rw [htake, find_pasteEnd_early hcontent (by omega), if_neg hlast, ← htake, ← hdata]
      have hleft : (paste ++ t.bytes.take (blockSize t.fills)).length + (needed - blockSize t.fills)
          = content.length + pasteEnd.length := by
        rw [List.length_append, List.length_take]
        omega
      have hbehind : paste ++ t.bytes.take (blockSize t.fills) ++ t.bytes.drop (blockSize t.fills)
          = content ++ pasteEnd ++ behind := by
        rw [List.append_assoc, List.take_append_drop, hbytes]
      rw [ih (needed - blockSize t.fills) (by omega) (by omega) hleft hbehind (by omega)]
      simp [List.drop_drop]

theorem readPaste_mono {fuel : Nat} {paste : Bytes} {t : Terminal} {r : Bytes × Terminal}
    (h : readPaste fuel paste t = some r) {more : Nat} (hmore : fuel ≤ more) : readPaste more paste t = some r := by
  induction fuel generalizing paste t more with
  | zero => cases h
  | succ fuel ih =>
    obtain ⟨more, rfl⟩ := Nat.exists_eq_add_one_of_ne_zero (show more ≠ 0 by omega)
    rw [readPaste] at h ⊢
    split at h
    · next hreadable => rw [if_pos hreadable]; exact h
    · next hreadable =>
      rw [if_neg hreadable]
      simp only at h ⊢
      split at h
      · exact h
      · exact ih h (by omega)

/-- Without the end marker the loop never ends at the end of input. -/
theorem readPaste_unclosed {fuel : Nat} {paste : Bytes} {t : Terminal} (hended : t.ended = true)
    (h : ¬ pasteEnd <:+: paste ++ t.bytes) : readPaste fuel paste t = none := by
  induction fuel generalizing paste t with
  | zero => rfl
  | succ fuel ih =>
    have hreadable : t.readable = true := by simp [Terminal.readable, hended]
    rw [readPaste, hreadable]
    simp only [Bool.not_true, Bool.false_eq_true, if_false, Terminal.read]
    have hfind : Occurrences.find pasteEnd (paste ++ t.bytes.take (min 4096 (max 1 (t.fills.head?.getD 4096)))) = none := by
      rw [Occurrences.find_eq_none]
      refine fun hoccurs => h (hoccurs.trans (List.IsPrefix.isInfix ?_))
      exact ⟨t.bytes.drop _, by rw [List.append_assoc, List.take_append_drop]⟩
    rw [hfind]
    refine ih hended ?_
    rw [List.append_assoc, List.take_append_drop]
    exact h

/-- Bytes that hold the marker are a content, the marker, and a rest. -/
theorem split_at_pasteEnd {bytes : Bytes} (h : pasteEnd <:+: bytes) :
    ∃ content behind, ¬ pasteEnd <:+: content ∧ bytes = content ++ pasteEnd ++ behind := by
  induction bytes with
  | nil => exact absurd h (by decide)
  | cons b bytes ih =>
    by_cases hprefix : pasteEnd <+: b :: bytes
    · obtain ⟨behind, hbehind⟩ := hprefix
      exact ⟨[], behind, by decide, by simpa using hbehind.symm⟩
    · obtain ⟨content, behind, hcontent, rfl⟩ := ih ((List.infix_cons_iff.mp h).resolve_left hprefix)
      refine ⟨b :: content, behind, ?_, rfl⟩
      intro hinfix
      refine (List.infix_cons_iff.mp hinfix).elim (fun hp => hprefix (hp.trans ?_)) hcontent
      exact ⟨pasteEnd ++ behind, by simp⟩

/-! ## 4. What a call takes -/

theorem recordModeReport_bytes {body : Bytes} {t t' : Terminal} (h : recordModeReport body t = .ok t') :
    t'.bytes = t.bytes := by
  by_cases hlong : LongReport body
  · obtain ⟨error, herror⟩ := recordModeReport_long hlong t
    rw [herror] at h
    cases h
  · obtain ⟨more, hmore⟩ := recordModeReport_short hlong
    rw [hmore] at h
    rw [← Except.ok.inj h]

theorem readPaste_length {fuel : Nat} {paste : Bytes} {t : Terminal} {r : Bytes × Terminal}
    (h : readPaste fuel paste t = some r) : r.2.bytes.length ≤ t.bytes.length := by
  induction fuel generalizing paste t with
  | zero => cases h
  | succ fuel ih =>
    have hread : (t.read 4096).2.bytes.length ≤ t.bytes.length := by
      simp only [Terminal.read, List.length_drop]
      omega
    rw [readPaste] at h
    split at h
    · rw [← Option.some.inj h]
    · simp only at h
      split at h
      · rw [← Option.some.inj h]
        exact hread
      · exact (ih h).trans hread

theorem afterCsi_length {again : Terminal → Option ReadKey} {fuel : Nat} {seq : Bytes} {t t' : Terminal}
    {k : Keystroke} (hagain : ∀ t, again t = some (.key k t') → t'.bytes.length ≤ t.bytes.length)
    (h : afterCsi again fuel seq t = some (.key k t')) : t'.bytes.length ≤ t.bytes.length := by
  rw [afterCsi] at h
  split at h
  · split at h
    · cases h
    · next t'' hrecord =>
      rw [← recordModeReport_bytes hrecord]
      exact hagain _ h
  · split at h
    · obtain ⟨p, hp, hkey⟩ := Option.map_eq_some_iff.mp h
      obtain ⟨-, rfl⟩ := ReadKey.key.inj hkey
      exact readPaste_length hp
    · split at h
      · obtain ⟨-, rfl⟩ := ReadKey.key.inj (Option.some.inj h)
        exact le_rfl
      · cases hcsi : decodeCsi seq with
        | error error => simp [ReadKey.of, hcsi] at h
        | ok k' =>
          obtain ⟨-, rfl⟩ : k' = k ∧ t = t' := by simpa [ReadKey.of, hcsi] using h
          exact le_rfl

/-- Behind an escape byte a call takes at least one byte, where there is one. -/
theorem afterEscape_length {again : Terminal → Option ReadKey} {fuel : Nat} {t t' : Terminal} {k : Keystroke}
    (hagain : ∀ t, again t = some (.key k t') → t'.bytes.length ≤ t.bytes.length)
    (h : afterEscape py again fuel t = some (.key k t')) : t'.bytes.length ≤ t.bytes.length - 1 := by
  rw [afterEscape] at h
  split at h
  · next hbytes =>
    split at h
    · cases h
    · obtain ⟨-, rfl⟩ := ReadKey.key.inj (Option.some.inj h)
      simp [hbytes]
  · next second rest hbytes =>
    rw [hbytes, List.length_cons, Nat.add_sub_cancel]
    split at h
    · split at h
      · obtain ⟨-, rfl⟩ := ReadKey.key.inj (Option.some.inj h)
        simp
      · obtain ⟨-, rfl⟩ := ReadKey.key.inj (Option.some.inj h)
        simp
    · split at h
      · split at h
        · cases h
        · next seq behind hcsi =>
          have hlength := readCsi_length hcsi
          exact (afterCsi_length hagain h).trans (by simp only; omega)
      · split at h
        · obtain ⟨-, rfl⟩ := ReadKey.key.inj (Option.some.inj h)
          exact le_rfl
        · obtain ⟨-, rfl⟩ := ReadKey.key.inj (Option.some.inj h)
          simp

theorem readKey_length {fuel : Nat} {t t' : Terminal} {k : Keystroke} (h : readKey py fuel t = some (.key k t')) :
    t'.bytes.length < t.bytes.length := by
  induction fuel generalizing t with
  | zero => cases h
  | succ fuel ih =>
    rw [readKey] at h
    split at h
    · split at h <;> cases h
    · next first rest hbytes =>
      rw [hbytes, List.length_cons]
      split at h
      · exact Nat.lt_succ_of_le ((afterEscape_length (fun t h => (ih h).le) h).trans (Nat.sub_le _ _))
      · have h := Option.some.inj h
        rw [afterByte] at h
        split at h
        · obtain ⟨-, rfl⟩ := ReadKey.key.inj h
          exact Nat.lt_succ_self _
        · split at h
          · obtain ⟨-, rfl⟩ := ReadKey.key.inj h
            exact Nat.lt_succ_self _
          · obtain ⟨-, rfl⟩ := ReadKey.key.inj h
            simp only [List.length_drop]
            omega

/-! ## 5. One event -/

theorem readKey_escape {fuel : Nat} {t : Terminal} {rest : Bytes} (hbytes : t.bytes = 0x1B :: rest) :
    readKey py (fuel + 1) t = afterEscape py (readKey py fuel) fuel { t with bytes := rest } := by
  rw [readKey, hbytes]
  simp only [if_true]

theorem readKey_csi {fuel : Nat} {t : Terminal} {parameters behind : Bytes} {final : UInt8}
    (hps : ∀ b ∈ parameters, isFinal b = false) (hfinal : isFinal final = true)
    (hbytes : t.bytes = [0x1B, 0x5B] ++ parameters ++ [final] ++ behind) :
    readKey py (fuel + 1) t
      = afterCsi (readKey py fuel) fuel (parameters ++ [final]) { t with bytes := behind } := by
  have hbytes' : t.bytes = 0x1B :: 0x5B :: (parameters ++ final :: behind) := by
    rw [hbytes]
    simp
  rw [readKey_escape hbytes', afterEscape]
  simp only [readCsi_final t.ended hps hfinal, List.nil_append]
  rw [if_neg (by decide), if_pos trivial]

theorem readKey_report {fuel : Nat} {t : Terminal} {body behind : Bytes} (hbody : ∀ b ∈ body, isFinal b = false)
    (hbytes : t.bytes = (KeyEvent.modeReport body).encode ++ behind) :
    readKey py (fuel + 1) t = match recordModeReport body { t with bytes := behind } with
      | .error error => some (.raised error { t with bytes := behind })
      | .ok t => readKey py fuel t := by
  have hps : ∀ b ∈ 0x3F :: body ++ [0x24], isFinal b = false := by
    intro b hb
    simp only [List.cons_append, List.mem_cons, List.mem_append, List.not_mem_nil, or_false] at hb
    obtain rfl | hb | rfl := hb
    · decide
    · exact hbody b hb
    · decide
  have hreport : IsReport (0x3F :: body ++ [0x24] ++ [0x79]) :=
    ⟨rfl, 0x3F :: body, by simp⟩
  have htail : (0x3F :: body ++ [0x24] ++ [0x79]).tail.dropLast.dropLast = body := by
    rw [List.cons_append, List.cons_append, List.tail_cons, List.dropLast_concat, List.dropLast_concat]
  have hread := @readKey_csi py fuel t _ behind 0x79 hps (by decide) hbytes
  rw [afterCsi, if_pos hreport, htail] at hread
  exact hread

theorem take_utf8 {c : Char} {first : UInt8} {rest : Bytes} (h : String.utf8EncodeChar c = first :: rest)
    (behind : Bytes) :
    first :: (rest ++ behind).take (utf8Extra first) = String.utf8EncodeChar c
      ∧ (rest ++ behind).drop (utf8Extra first) = behind := by
  obtain ⟨first', rest', h', hlength, -⟩ := utf8EncodeChar_cons c
  obtain ⟨rfl, rfl⟩ := List.cons.inj (h.symm.trans h')
  rw [← hlength, List.take_left, List.drop_left, h]
  exact ⟨rfl, rfl⟩

theorem decodeUtf8_char (c : Char) : decodeUtf8 (String.utf8EncodeChar c) = some [c] := by
  have h := decodeUtf8_encode [c]
  rwa [List.flatMap_cons, List.flatMap_nil, List.append_nil] at h

theorem utf8_first_eq {c d : Char} {first : UInt8} {rest : Bytes} (h : String.utf8EncodeChar c = first :: rest)
    (hd : d.toNat < 128) : first = UInt8.ofNat d.toNat ↔ c = d := by
  have hbyte : (UInt8.ofNat d.toNat).toNat = d.toNat := by
    rw [UInt8.toNat_ofNat']
    exact Nat.mod_eq_of_lt (by omega)
  obtain ⟨first', rest', h', -, hascii | hwide⟩ := utf8EncodeChar_cons c
  · obtain ⟨rfl, rfl⟩ := List.cons.inj (h.symm.trans h')
    rw [← UInt8.toNat_inj, hbyte, hascii.2.1, Char.toNat_inj]
  · obtain ⟨rfl, rfl⟩ := List.cons.inj (h.symm.trans h')
    refine iff_of_false ?_ ?_
    · rintro rfl
      have hge := UInt8.le_iff_toNat_le.mp hwide.2.1
      rw [hbyte] at hge
      simp at hge
      omega
    · rintro rfl
      omega

namespace KeyEvent

/-- What a call that returns the event leaves. -/
def leaves (t : Terminal) (e : KeyEvent) (behind : Bytes) : Terminal :=
  { t with bytes := behind, fills := e.fillsBehind t.fills }

theorem readKey_char {c : Char} (hvalid : (KeyEvent.char c).Valid) {t : Terminal} {behind : Bytes}
    (hbytes : t.bytes = (KeyEvent.char c).encode ++ behind) (fuel : Nat) :
    ∃ k, (KeyEvent.char c).Means py k ∧ readKey py (fuel + 1) t = some (.key k ((KeyEvent.char c).leaves t behind)) := by
  obtain ⟨first, rest, henc, hlength, hcase⟩ := utf8EncodeChar_cons c
  obtain ⟨htake, hdrop⟩ := take_utf8 henc behind
  have hbytes' : t.bytes = first :: (rest ++ behind) := by
    rw [hbytes, encode, henc, List.cons_append]
  have hge : 0x20 ≤ first := by
    rw [UInt8.le_iff_toNat_le]
    obtain hascii | hwide := hcase
    · rw [hascii.2.1]
      exact hvalid.1
    · exact le_trans (by decide) (UInt8.le_iff_toNat_le.mp hwide.2.1)
  have hdel : first ≠ 0x7F := by
    rintro rfl
    obtain hascii | hwide := hcase
    · exact hvalid.2 hascii.2.1.symm
    · exact absurd hwide.2.1 (by decide)
  have hesc : first ≠ 0x1B := by
    rintro rfl
    exact absurd hge (by decide)
  have hcontrol : isControl first = false := by
    simp only [isControl, Bool.or_eq_false_iff, decide_eq_false_iff_not]
    exact ⟨UInt8.not_lt.mpr hge, hdel⟩
  have hat : first = 0x40 ↔ c = '@' := utf8_first_eq (d := '@') henc (by decide)
  rw [readKey, hbytes']
  simp only [if_neg hesc, afterByte, hcontrol, Bool.false_eq_true, if_false, htake, hdrop, decodeUtf8_char]
  by_cases hc : c = '@'
  · have hnil : rest = [] := by
      subst hc
      exact (List.cons.inj henc).2.symm
    refine ⟨⟨.at_, []⟩, by simp [Means, hc], ?_⟩
    rw [if_pos (hat.mpr hc), hnil]
    rfl
  · refine ⟨if py.isPrintable c then ⟨.char, [c]⟩ else ⟨.unknown, []⟩, by simp [Means, hc], ?_⟩
    rw [if_neg (fun h => hc (hat.mp h))]
    simp only [List.all_cons, List.all_nil, Bool.and_true]
    rfl

theorem readKey_control {byte : UInt8} (hvalid : (KeyEvent.control byte).Valid) (hesc : byte ≠ 0x1B) {t : Terminal}
    {behind : Bytes} (hbytes : t.bytes = (KeyEvent.control byte).encode ++ behind) (fuel : Nat) :
    readKey py (fuel + 1) t = some (.key (decodeControl byte) ((KeyEvent.control byte).leaves t behind)) := by
  have hbytes' : t.bytes = byte :: behind := hbytes
  have hcontrol : isControl byte = true := hvalid
  rw [readKey, hbytes']
  simp only [if_neg hesc, afterByte, hcontrol, if_true]
  rfl

theorem readKey_ss3 {final : UInt8} {t : Terminal} {behind : Bytes}
    (hbytes : t.bytes = (KeyEvent.ss3 final).encode ++ behind) (fuel : Nat) :
    readKey py (fuel + 1) t = some (.key (decodeSs3 (some final)) ((KeyEvent.ss3 final).leaves t behind)) := by
  have hbytes' : t.bytes = 0x1B :: 0x4F :: final :: behind := hbytes
  rw [readKey_escape hbytes', afterEscape]
  rfl

theorem readKey_csi_event {parameters : Bytes} {final : UInt8} (hvalid : (KeyEvent.csi parameters final).Valid)
    {t : Terminal} {behind : Bytes} (hbytes : t.bytes = (KeyEvent.csi parameters final).encode ++ behind) (fuel : Nat) :
    readKey py (fuel + 1) t = some (.of (decodeCsi (parameters ++ [final])) { t with bytes := behind }) := by
  obtain ⟨hps, hfinal, hreport, hpaste⟩ := hvalid
  rw [readKey_csi hps hfinal hbytes, afterCsi, if_neg hreport, if_neg hpaste, if_neg (by simp)]

theorem readKey_alt {c : Char} (hesc : c ≠ '\x1B') (hO : c ≠ 'O') (hbracket : c ≠ '[') {t : Terminal} {behind : Bytes}
    (hbytes : t.bytes = (KeyEvent.alt c).encode ++ behind) (fuel : Nat) :
    readKey py (fuel + 1) t
      = some (.key (decodeAlt py (String.utf8EncodeChar c)) ((KeyEvent.alt c).leaves t behind)) := by
  obtain ⟨first, rest, henc, -⟩ := utf8EncodeChar_cons c
  obtain ⟨htake, hdrop⟩ := take_utf8 henc behind
  have hbytes' : t.bytes = 0x1B :: (first :: (rest ++ behind)) := by
    rw [hbytes, encode, henc, List.cons_append, List.cons_append]
  have h1 : first ≠ 0x4F := fun h => hO ((utf8_first_eq henc (by decide)).mp h)
  have h2 : first ≠ 0x5B := fun h => hbracket ((utf8_first_eq henc (by decide)).mp h)
  have h3 : first ≠ 0x1B := fun h => hesc ((utf8_first_eq henc (by decide)).mp h)
  rw [readKey_escape hbytes', afterEscape]
  simp only [if_neg h1, if_neg h2, if_neg h3, htake, hdrop]
  rfl

theorem readBlocks_ge (needed : Nat) (fills : List Nat) : needed ≤ (readBlocks needed fills).1 := by
  induction needed using Nat.strong_induction_on generalizing fills with
  | _ needed ih =>
    have hpos := blockSize_pos fills
    rw [readBlocks]
    split
    · next h => exact h
    · have hnext := ih (needed - blockSize fills) (by omega) fills.tail
      simp only
      omega

theorem readKey_paste {text : List Char} (hvalid : (KeyEvent.paste text).Valid) {t : Terminal} {behind : Bytes}
    (hbytes : t.bytes = (KeyEvent.paste text).encode ++ behind) {fuel : Nat} (hfuel : pasteLength text ≤ fuel) :
    readKey py (fuel + 1) t = some (.key ⟨.paste, text⟩
      { t with
        bytes := behind.drop ((readBlocks (pasteLength text) t.fills).1 - pasteLength text)
        fills := (readBlocks (pasteLength text) t.fills).2 }) := by
  have hcontent := not_infix_utf8 hvalid
  have hpos : 0 < pasteLength text := by
    rw [pasteLength, pasteEnd_eq]
    simp
  have hsplit : t.bytes = [0x1B, 0x5B] ++ [0x32, 0x30, 0x30] ++ [0x7E] ++ (utf8 text ++ pasteEnd ++ behind) := by
    rw [hbytes, encode, pasteStart]
    simp
  have hlength : ([] : Bytes).length + pasteLength text = (utf8 text).length + pasteEnd.length := by simp [pasteLength]
  have hpaste := readPaste_eq hcontent hpos (t := { t with bytes := utf8 text ++ pasteEnd ++ behind }) hlength rfl hfuel
  have hdrop : (utf8 text ++ pasteEnd ++ behind).drop (readBlocks (pasteLength text) t.fills).1
      = behind.drop ((readBlocks (pasteLength text) t.fills).1 - pasteLength text) := by
    rw [List.drop_append, List.drop_of_length_le, List.nil_append, List.length_append, pasteLength]
    rw [List.length_append]
    exact readBlocks_ge _ _
  have hdecode : decodeUtf8 (utf8 text) = some text := decodeUtf8_encode text
  rw [readKey_csi (by decide) (by decide) hsplit, afterCsi, if_neg (by decide), if_pos (by decide), hpaste]
  simp only [Option.map_some, hdrop, hdecode, Option.getD_some]

end KeyEvent

/-- Escape, Alt with `O` and Alt with `[`, with nothing written behind. -/
theorem readKey_alone {t : Terminal} (hended : t.ended = false) (fuel : Nat) :
    (t.bytes = [0x1B] → readKey py (fuel + 1) t = some (.key ⟨.esc, []⟩ { t with bytes := [] }))
      ∧ (t.bytes = [0x1B, 0x4F] → readKey py (fuel + 1) t = some (.key ⟨.alt, ['O']⟩ { t with bytes := [] }))
      ∧ (t.bytes = [0x1B, 0x5B] → readKey py (fuel + 1) t = some (.key ⟨.alt, ['[']⟩ { t with bytes := [] })) := by
  refine ⟨fun hbytes => ?_, fun hbytes => ?_, fun hbytes => ?_⟩
  · rw [readKey_escape hbytes, afterEscape]
    simp only [hended]
    rfl
  · rw [readKey_escape hbytes, afterEscape]
    simp only [hended]
    rfl
  · rw [readKey_escape hbytes, afterEscape]
    simp only [hended]
    rfl

/-- The text of Alt with an ASCII character is that character. -/
theorem decodeAlt_ascii {c : Char} (hc : c = 'O' ∨ c = '[') :
    decodeAlt py (String.utf8EncodeChar c) = ⟨.alt, [c]⟩ := by
  obtain rfl | rfl := hc
  · have hprintable : py.isPrintable 'O' = true := by rw [py.isPrintable_ascii 'O' (by decide)]; decide
    rw [(by decide : String.utf8EncodeChar 'O' = [0x4F]), decodeAlt, if_neg (by decide), decodeAlt.text,
      (by decide : decodeUtf8 [0x4F] = some ['O'])]
    simp [hprintable]
  · have hprintable : py.isPrintable '[' = true := by rw [py.isPrintable_ascii '[' (by decide)]; decide
    rw [(by decide : String.utf8EncodeChar '[' = [0x5B]), decodeAlt, if_neg (by decide), decodeAlt.text,
      (by decide : decodeUtf8 [0x5B] = some ['['])]
    simp [hprintable]

/-! ## 6. More fuel -/

theorem afterCsi_mono {again again' : Terminal → Option ReadKey} {fuel more : Nat} {seq : Bytes} {t : Terminal}
    {r : ReadKey} (hagain : ∀ t, again t = some r → again' t = some r) (hmore : fuel ≤ more)
    (h : afterCsi again fuel seq t = some r) : afterCsi again' more seq t = some r := by
  rw [afterCsi] at h ⊢
  by_cases hreport : IsReport seq
  · rw [if_pos hreport] at h ⊢
    split at h
    · exact h
    · exact hagain _ h
  · rw [if_neg hreport] at h ⊢
    by_cases hpaste : seq = pasteStart
    · rw [if_pos hpaste] at h ⊢
      obtain ⟨p, hp, hkey⟩ := Option.map_eq_some_iff.mp h
      rw [readPaste_mono hp hmore, Option.map_some, hkey]
    · rw [if_neg hpaste] at h ⊢
      exact h

theorem readKey_mono {fuel more : Nat} {t : Terminal} {r : ReadKey} (h : readKey py fuel t = some r)
    (hmore : fuel ≤ more) : readKey py more t = some r := by
  induction fuel generalizing t more with
  | zero => cases h
  | succ fuel ih =>
    obtain ⟨more, rfl⟩ := Nat.exists_eq_add_one_of_ne_zero (show more ≠ 0 by omega)
    have hagain : ∀ t, readKey py fuel t = some r → readKey py more t = some r := fun t h => ih h (by omega)
    rw [readKey] at h ⊢
    split at h
    · next hbytes => simpa [hbytes] using h
    · next first rest hbytes =>
      by_cases hesc : first = 0x1B
      · rw [if_pos hesc] at h ⊢
        rw [afterEscape] at h ⊢
        split at h
        · next hrest => exact h
        · next second behind hrest =>
          by_cases hO : second = 0x4F
          · rw [if_pos hO] at h ⊢
            exact h
          · rw [if_neg hO] at h ⊢
            by_cases hbracket : second = 0x5B
            · rw [if_pos hbracket] at h ⊢
              split at h
              · exact h
              · exact afterCsi_mono hagain (by omega) h
            · rw [if_neg hbracket] at h ⊢
              exact h
      · rw [if_neg hesc] at h ⊢
        exact h

theorem readKey_unique {fuel fuel' : Nat} {t : Terminal} {r r' : ReadKey} (h : readKey py fuel t = some r)
    (h' : readKey py fuel' t = some r') : r = r' := by
  have hmax := readKey_mono h (Nat.le_max_left fuel fuel')
  rw [readKey_mono h' (Nat.le_max_right fuel fuel')] at hmax
  exact (Option.some.inj hmax).symm

/-! ## 7. Readable events -/

namespace KeyEvent

theorem returned {e : KeyEvent} (hvalid : e.Valid) (hkey : ∀ body, e ≠ .modeReport body) {t : Terminal}
    {behind : Bytes} (hended : t.ended = false) (hbytes : t.bytes = e.encode ++ behind)
    (h : e.Readable t.fills behind) :
    ∃ k fuel, e.Means py k ∧ readKey py fuel t = some (.key k (e.leaves t behind)) := by
  cases e with
  | char c =>
    obtain ⟨k, hmeans, hread⟩ := readKey_char hvalid hbytes 0
    exact ⟨k, 1, hmeans, hread⟩
  | control byte =>
    by_cases hesc : byte = 0x1B
    · obtain rfl : behind = [] := h hesc
      subst hesc
      exact ⟨⟨.esc, []⟩, 1, (by decide : Keystroke.mk .esc [] = decodeControl 0x1B), (readKey_alone hended 0).1 hbytes⟩
    · exact ⟨_, 1, rfl, readKey_control hvalid hesc hbytes 0⟩
  | csi parameters final =>
    obtain ⟨k, hk⟩ := (decodeCsi_ok_iff _).mpr h
    refine ⟨k, 1, hk, ?_⟩
    rw [readKey_csi_event hvalid hbytes, hk]
    rfl
  | ss3 final => exact ⟨_, 1, rfl, readKey_ss3 hbytes 0⟩
  | alt c =>
    obtain ⟨hesc, hbehind⟩ := h
    by_cases hO : c = 'O'
    · obtain rfl := hbehind (.inr hO)
      subst hO
      exact ⟨⟨.alt, ['O']⟩, 1, (decodeAlt_ascii (.inl rfl)).symm, (readKey_alone hended 0).2.1 hbytes⟩
    · by_cases hbracket : c = '['
      · obtain rfl := hbehind (.inl hbracket)
        subst hbracket
        exact ⟨⟨.alt, ['[']⟩, 1, (decodeAlt_ascii (.inr rfl)).symm, (readKey_alone hended 0).2.2 hbytes⟩
      · exact ⟨_, 1, rfl, readKey_alt hesc hO hbracket hbytes 0⟩
  | modeReport body => exact absurd rfl (hkey body)
  | paste text =>
    refine ⟨_, pasteLength text + 1, rfl, ?_⟩
    rw [readKey_paste hvalid hbytes le_rfl]
    have hdrop : behind.drop ((readBlocks (pasteLength text) t.fills).1 - pasteLength text) = behind := by
      obtain rfl | heq := h
      · exact List.drop_nil
      · rw [heq, Nat.sub_self, List.drop_zero]
    rw [hdrop]
    rfl

theorem decodeAlt_escape : decodeAlt py [0x1B] = ⟨.modified, "alt+escape".toList⟩ := by
  have hname : keyName py (decodeControl 0x1B) = "escape".toList := by
    simp [keyName, decodeControl, controlKeys, assocGet, Key.isCtrlLetter, Key.value, keyNames]
  rw [decodeAlt, if_pos (by decide), hname]
  rfl

/-- An event is returned, and nothing behind it taken, only when it is readable. -/
theorem readable_of_returned {e : KeyEvent} (hvalid : e.Valid) (hkey : ∀ body, e ≠ .modeReport body) {t t' : Terminal}
    {behind : Bytes} (hended : t.ended = false) (hbytes : t.bytes = e.encode ++ behind) {k : Keystroke} {fuel : Nat}
    (hmeans : e.Means py k) (h : readKey py fuel t = some (.key k t')) (hbehind : t'.bytes = behind) :
    e.Readable t.fills behind ∧ t' = e.leaves t behind := by
  have hvalue : ∀ {k' : Keystroke} {fuel' : Nat} {t'' : Terminal}, readKey py fuel' t = some (.key k' t'') → t' = t'' := by
    intro k' fuel' t'' h'
    exact (ReadKey.key.inj (readKey_unique h h')).2
  cases e with
  | char c =>
    obtain ⟨k', -, hread⟩ := readKey_char hvalid hbytes 0
    exact ⟨trivial, hvalue hread⟩
  | control byte =>
    by_cases hesc : byte = 0x1B
    · subst hesc
      obtain ⟨fuel, rfl⟩ : ∃ n, fuel = n + 1 := by
        cases fuel with
        | zero => cases h
        | succ n => exact ⟨n, rfl⟩
      have hescape : t.bytes = 0x1B :: behind := hbytes
      have hread := h
      rw [readKey_escape hescape] at hread
      have hlength := afterEscape_length (fun t h => (readKey_length h).le) hread
      simp only at hlength
      have hnil : behind = [] := by
        rw [hbehind] at hlength
        exact List.eq_nil_of_length_eq_zero (by omega)
      subst hnil
      exact ⟨fun _ => rfl, hvalue ((readKey_alone hended 0).1 hbytes)⟩
    · exact ⟨fun h => absurd h hesc, hvalue (readKey_control hvalid hesc hbytes 0)⟩
  | csi parameters final =>
    have hok : decodeCsi (parameters ++ [final]) = .ok k := hmeans
    have hread := @readKey_csi_event py _ _ hvalid _ _ hbytes 0
    rw [hok] at hread
    exact ⟨(decodeCsi_ok_iff _).mp ⟨k, hok⟩, hvalue hread⟩
  | ss3 final => exact ⟨trivial, hvalue (readKey_ss3 hbytes 0)⟩
  | alt c =>
    obtain ⟨fuel, rfl⟩ : ∃ n, fuel = n + 1 := by
      cases fuel with
      | zero => cases h
      | succ n => exact ⟨n, rfl⟩
    by_cases hesc : c = '\x1B'
    · subst hesc
      have hbytes' : t.bytes = 0x1B :: 0x1B :: behind := hbytes
      rw [readKey_escape hbytes', afterEscape] at h
      obtain ⟨rfl, -⟩ := ReadKey.key.inj (Option.some.inj h)
      have hname : (⟨.esc, []⟩ : Keystroke) = decodeAlt py [0x1B] := hmeans
      rw [decodeAlt_escape] at hname
      cases hname
    · by_cases hO : c = 'O'
      · subst hO
        have hbytes' : t.bytes = 0x1B :: 0x4F :: behind := hbytes
        have hnil : behind = [] := by
          by_contra hne
          obtain ⟨final, rest, rfl⟩ := List.exists_cons_of_ne_nil hne
          rw [readKey_escape hbytes', afterEscape] at h
          obtain ⟨-, rfl⟩ := ReadKey.key.inj (Option.some.inj h)
          simp at hbehind
        subst hnil
        exact ⟨⟨hesc, fun _ => rfl⟩, hvalue ((readKey_alone hended 0).2.1 hbytes)⟩
      · by_cases hbracket : c = '['
        · subst hbracket
          have hbytes' : t.bytes = 0x1B :: 0x5B :: behind := hbytes
          have hnil : behind = [] := by
            by_contra hne
            rw [readKey_escape hbytes', afterEscape] at h
            simp only [hended] at h
            rw [if_neg (by decide), if_pos trivial] at h
            split at h
            · cases h
            · next seq rest hcsi =>
              have hlength := afterCsi_length (fun t h => (readKey_length h).le) h
              have hcsi := readCsi_length hcsi
              have hpos := List.length_pos_of_ne_nil hne
              rw [hbehind] at hlength
              simp only at hlength
              omega
          subst hnil
          exact ⟨⟨hesc, fun _ => rfl⟩, hvalue ((readKey_alone hended 0).2.2 hbytes)⟩
        · exact ⟨⟨hesc, fun h => absurd h (by simp [hO, hbracket])⟩,
            hvalue (readKey_alt hesc hO hbracket hbytes 0)⟩
  | modeReport body => exact absurd rfl (hkey body)
  | paste text =>
    obtain rfl := hvalue (readKey_paste hvalid hbytes le_rfl)
    have hlength := congrArg List.length hbehind
    rw [List.length_drop] at hlength
    have hge := readBlocks_ge (pasteLength text) t.fills
    refine ⟨?_, ?_⟩
    · by_cases hnil : behind = []
      · exact .inl hnil
      · have hpos := List.length_pos_of_ne_nil hnil
        exact .inr (by omega)
    · simp only at hbehind
      rw [hbehind]
      rfl

end KeyEvent

/-! ## 8. A run of calls -/

theorem encodeAll_cons (e : KeyEvent) (rest : List KeyEvent) : encodeAll (e :: rest) = e.encode ++ encodeAll rest := rfl

/-- The events that were written are returned, each once and in order, exactly
when each is readable. -/
theorem returned_iff {events : List KeyEvent} (hvalid : ∀ e ∈ events, e.Valid) {t : Terminal}
    (hended : t.ended = false) (hbytes : t.bytes = encodeAll events) :
    Returned py events t ↔ AllReadable events t.fills := by
  induction events generalizing t with
  | nil =>
    refine iff_of_true ?_ trivial
    have hnil : t.bytes = [] := hbytes
    rw [Returned, readKey, hnil]
    simp only [hended]
    rfl
  | cons e rest ih =>
    rw [List.forall_mem_cons] at hvalid
    rw [encodeAll_cons] at hbytes
    by_cases hkey : ∃ body, e = .modeReport body
    · obtain ⟨body, rfl⟩ := hkey
      have hread := fun fuel => @readKey_report py fuel _ _ _ hvalid.1 hbytes
      rw [Returned, AllReadable]
      constructor
      · rintro ⟨t', hrecord, hcalls, hrest⟩
        have hshort : ¬ LongReport body := by
          intro hlong
          obtain ⟨error, herror⟩ := recordModeReport_long hlong { t with bytes := encodeAll rest }
          rw [herror] at hrecord
          cases hrecord
        obtain ⟨more, hmore⟩ := recordModeReport_short hshort
        rw [hmore] at hrecord
        obtain rfl := Except.ok.inj hrecord
        exact ⟨hshort, (ih hvalid.2 (t := { t with bytes := encodeAll rest, modes := t.modes ++ more }) hended rfl).mp
          hrest⟩
      · rintro ⟨hshort, hrest⟩
        obtain ⟨more, hmore⟩ := recordModeReport_short hshort
        refine ⟨_, hmore _, fun fuel => ?_,
          (ih hvalid.2 (t := { t with bytes := encodeAll rest, modes := t.modes ++ more }) hended rfl).mpr hrest⟩
        rw [hread, hmore]
    · have hkey' : ∀ body, e ≠ .modeReport body := fun body h => hkey ⟨body, h⟩
      have hdef : Returned py (e :: rest) t ↔ ∃ k t' fuel, e.Means py k ∧ readKey py fuel t = some (.key k t')
          ∧ t'.bytes = encodeAll rest ∧ Returned py rest t' := by
        cases e with
        | modeReport body => exact absurd rfl (hkey' body)
        | _ => rfl
      rw [hdef, AllReadable]
      constructor
      · rintro ⟨k, t', fuel, hmeans, hread, hbehind, hrest⟩
        obtain ⟨hok, rfl⟩ := KeyEvent.readable_of_returned hvalid.1 hkey' hended hbytes hmeans hread hbehind
        exact ⟨hok, (ih hvalid.2 (t := e.leaves t (encodeAll rest)) hended rfl).mp hrest⟩
      · rintro ⟨hok, hrest⟩
        obtain ⟨k, fuel, hmeans, hread⟩ := KeyEvent.returned hvalid.1 hkey' hended hbytes hok
        exact ⟨k, _, fuel, hmeans, hread, rfl,
          (ih hvalid.2 (t := e.leaves t (encodeAll rest)) hended rfl).mpr hrest⟩

/-! ## 9. The end of input -/

theorem report_parts {parameters : Bytes} {final : UInt8} (hps : ∀ b ∈ parameters, isFinal b = false)
    (h : IsReport (parameters ++ [final])) :
    ∃ body, parameters ++ [final] = 0x3F :: body ++ [0x24] ++ [0x79] ∧ ∀ b ∈ body, isFinal b = false := by
  obtain ⟨hhead, before, hbefore⟩ := h
  have hsplit : parameters = before ++ [0x24] ∧ final = 0x79 := by
    have heq : (before ++ [0x24]) ++ [0x79] = parameters ++ [final] := by simpa using hbefore
    obtain ⟨h1, h2⟩ := List.append_inj' heq rfl
    exact ⟨h1.symm, by simpa using h2.symm⟩
  obtain ⟨rfl, rfl⟩ := hsplit
  cases before with
  | nil => simp at hhead
  | cons b body =>
    obtain rfl : b = 0x3F := by simpa using hhead
    exact ⟨body, by simp, fun b hb => hps b (by simp [hb])⟩

/-- A call at the end of input never returns where a paste is left open. -/
theorem readKey_unclosed {bytes : Bytes} (h : UnclosedPaste bytes) : ∀ {t : Terminal} {fuel : Nat},
    t.ended = true → t.bytes = bytes → readKey py fuel t = none := by
  induction h with
  | @here rest hrest =>
    intro t fuel hended hbytes
    cases fuel with
    | zero => rfl
    | succ fuel =>
      have hsplit : t.bytes = [0x1B, 0x5B] ++ [0x32, 0x30, 0x30] ++ [0x7E] ++ rest := by
        rw [hbytes, pasteStart]
        simp
      rw [readKey_csi (by decide) (by decide) hsplit, afterCsi, if_neg (by decide), if_pos (by decide),
        readPaste_unclosed (t := { t with bytes := rest }) hended (by simpa using hrest)]
      rfl
  | @behindReport body rest hbody hshort _ ih =>
    intro t fuel hended hbytes
    cases fuel with
    | zero => rfl
    | succ fuel =>
      obtain ⟨more, hmore⟩ := recordModeReport_short hshort
      rw [readKey_report hbody hbytes, hmore]
      exact ih hended rfl

theorem readKey_ends {t : Terminal} (hended : t.ended = true) (h : ¬ UnclosedPaste t.bytes) :
    ∃ fuel, (readKey py fuel t).isSome = true := by
  induction hn : t.bytes.length using Nat.strong_induction_on generalizing t with
  | _ n ih =>
    cases hbytes : t.bytes with
    | nil => exact ⟨1, by rw [readKey, hbytes]; rfl⟩
    | cons first rest =>
      by_cases hesc : first = 0x1B
      · subst hesc
        cases hrest : rest with
        | nil =>
          refine ⟨1, ?_⟩
          rw [readKey_escape (by rw [hbytes, hrest]), afterEscape]
          rfl
        | cons second behind =>
          rw [hrest] at hbytes
          by_cases hbracket : second = 0x5B
          · subst hbracket
            cases hcsi : readCsi true [] behind with
            | error error =>
              refine ⟨1, ?_⟩
              rw [readKey_escape hbytes, afterEscape]
              simp only [hended, hcsi]
              rfl
            | ok p =>
              obtain ⟨seq, rest'⟩ := p
              obtain ⟨ps, final, hps, hfinal, rfl, rfl⟩ | ⟨hfalse, -⟩ := readCsi_cases hcsi
              · have hsplit : t.bytes = [0x1B, 0x5B] ++ ps ++ [final] ++ rest' := by
                  rw [hbytes]
                  simp
                rw [List.nil_append] at hcsi
                by_cases hreport : IsReport (ps ++ [final])
                · obtain ⟨body, hbody, hnot⟩ := report_parts hps hreport
                  have hshape : t.bytes = (KeyEvent.modeReport body).encode ++ rest' := by
                    rw [hsplit, List.append_assoc [0x1B, 0x5B], hbody, KeyEvent.encode]
                    simp
                  by_cases hlong : LongReport body
                  · obtain ⟨error, herror⟩ := recordModeReport_long hlong { t with bytes := rest' }
                    exact ⟨1, by rw [readKey_report hnot hshape, herror]; rfl⟩
                  · obtain ⟨more, hmore⟩ := recordModeReport_short hlong
                    have hclosed : ¬ UnclosedPaste rest' := by
                      intro hopen
                      exact h (hshape ▸ .behindReport hnot hlong hopen)
                    obtain ⟨fuel, hfuel⟩ := ih rest'.length (by rw [← hn, hsplit]; simp; omega)
                      (t := { t with bytes := rest', modes := t.modes ++ more }) hended hclosed rfl
                    exact ⟨fuel + 1, by rw [readKey_report hnot hshape, hmore]; exact hfuel⟩
                · by_cases hpaste : ps ++ [final] = pasteStart
                  · have hclosed : pasteEnd <:+: rest' := by
                      by_contra hopen
                      refine h ?_
                      rw [hsplit, List.append_assoc [0x1B, 0x5B], hpaste]
                      exact .here hopen
                    obtain ⟨content, after, hcontent, rfl⟩ := split_at_pasteEnd hclosed
                    have hpos : 0 < content.length + pasteEnd.length := by
                      rw [pasteEnd_eq]
                      simp
                    refine ⟨content.length + pasteEnd.length + 1, ?_⟩
                    rw [readKey_csi hps hfinal hsplit, afterCsi, if_neg hreport, if_pos hpaste,
                      @readPaste_eq content after hcontent _ hpos [] _ (by simp) rfl _ le_rfl]
                    rfl
                  · refine ⟨1, ?_⟩
                    rw [readKey_csi hps hfinal hsplit, afterCsi, if_neg hreport, if_neg hpaste, if_neg (by simp)]
                    rfl
              · cases hfalse
          · refine ⟨1, ?_⟩
            rw [readKey_escape hbytes, afterEscape]
            simp only [if_neg hbracket]
            split
            · split <;> rfl
            · split <;> rfl
      · refine ⟨1, ?_⟩
        rw [readKey, hbytes]
        simp only [if_neg hesc]
        rfl

/-! ## 10. No event is lost -/

/-- The reader returns what was written, ends at the end of input, and is
given only sequences it can decode, exactly under these conditions. -/
theorem reader_loses_nothing_and_ends_iff (py : CharTable) :
    (∀ (events : List KeyEvent) (fills : List Nat) (modes : List (Nat × Nat)), (∀ e ∈ events, e.Valid) →
        (Returned py events { bytes := encodeAll events, fills, modes } ↔ AllReadable events fills))
      ∧ (∀ (bytes : Bytes) (fills : List Nat) (modes : List (Nat × Nat)),
        (∃ fuel, (readKey py fuel { bytes, ended := true, fills, modes }).isSome = true) ↔ ¬ UnclosedPaste bytes)
      ∧ ∀ seq, (∃ k, decodeCsi seq = .ok k) ↔ ¬ LongCsi seq := by
  refine ⟨fun events fills modes hvalid => returned_iff hvalid rfl rfl, fun bytes fills modes => ?_, decodeCsi_ok_iff⟩
  constructor
  · rintro ⟨fuel, hsome⟩ hopen
    rw [readKey_unclosed hopen rfl rfl] at hsome
    cases hsome
  · exact fun hclosed => readKey_ends rfl hclosed

theorem typed_keys_return : Returned plainTable [.char 'a', .csi [] 0x41, .paste ['h', 'i']]
    { bytes := encodeAll [.char 'a', .csi [] 0x41, .paste ['h', 'i']], fills := [], modes := [] } := by
  have hvalid : ∀ e ∈ [KeyEvent.char 'a', .csi [] 0x41, .paste ['h', 'i']], e.Valid := by decide
  have hshort : ¬ LongCsi ([] ++ [0x41]) := by
    unfold LongCsi Long
    decide
  exact ((reader_loses_nothing_and_ends_iff plainTable).1 _ [] [] hvalid).mpr
    ⟨trivial, hshort, .inl rfl, trivial⟩

/-- The letter that is written right behind a paste is read with it, and
dropped. -/
theorem letter_behind_paste_is_lost :
    (∀ e ∈ [KeyEvent.paste ['h', 'i'], .char 'x'], e.Valid)
      ∧ readKey plainTable 2 { bytes := encodeAll [.paste ['h', 'i'], .char 'x'] }
        = some (.key ⟨.paste, ['h', 'i']⟩ { bytes := [] })
      ∧ ¬ Returned plainTable [.paste ['h', 'i'], .char 'x']
        { bytes := encodeAll [.paste ['h', 'i'], .char 'x'] } := by
  have hread : readKey plainTable 2 { bytes := encodeAll [.paste ['h', 'i'], .char 'x'] }
      = some (.key ⟨.paste, ['h', 'i']⟩ { bytes := [] }) := by decide
  refine ⟨by decide, hread, ?_⟩
  rintro ⟨k, t', fuel, -, hread', hbehind, -⟩
  cases ReadKey.key.inj (readKey_unique hread hread') with
  | intro _ hsame =>
    rw [← hsame] at hbehind
    exact absurd hbehind (by decide)

end Agenthicc.Tui
