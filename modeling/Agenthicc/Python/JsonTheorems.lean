/-
Agenthicc.Python.JsonTheorems — what `dumps` and `loads` owe each other.

* `loads_dumpsWith`: the decoder returns the value that was encoded.
* `dumpsWith_isPlain`: an encoding holds printable ASCII only, so no line break.
* `loads_dumpsWith_torn` and `loads_dumpsWith_glued`: a proper prefix of an encoded object does
  not decode, and neither does any non-empty prefix, the whole text included,
  with another encoded object written right behind it. These two are what a
  log of JSON lines can rely on after a crash.

The last pair rests on one statement, `parseValue_torn`: a parse that runs
over the end of a cut encoding either fails or stops in front of a character
that no JSON context accepts there (`BadRest`).
-/
import Agenthicc.Python.Json
import Mathlib.Tactic.IntervalCases

namespace Python

/-! ## 1. Number tokens -/

/-- The characters a constant or a number is made of. -/
def isAtomChar (c : Char) : Bool :=
  c.isAlpha || c.isDigit || c == '.' || c == '+' || c == '-'

/-- What may follow a number: nothing, or a character no number contains. -/
def Stop (rest : List Char) : Prop := ∀ c ∈ rest.head?, isAtomChar c = false

theorem stop_nil : Stop [] := by simp [Stop]

theorem stop_cons {c : Char} {rest : List Char} (h : isAtomChar c = false) :
    Stop (c :: rest) := by simpa [Stop] using h

theorem isAtomChar_of_isDigit {c : Char} (h : c.isDigit = true) : isAtomChar c = true := by
  simp [isAtomChar, h]

theorem spanDigits_append_digits : ∀ (ds rest : List Char), ds.all Char.isDigit = true →
    Stop rest → spanDigits (ds ++ rest) = (ds, rest)
  | [], [], _, _ => rfl
  | [], c :: rest, _, hs => by
      have hc : c.isDigit = false := by
        by_contra hd
        have := hs c rfl
        rw [isAtomChar_of_isDigit (by simpa using hd)] at this
        exact absurd this (by simp)
      simp [spanDigits, hc]
  | d :: ds, rest, hall, hs => by
      simp only [List.all_cons, Bool.and_eq_true] at hall
      simp [spanDigits, hall.1, spanDigits_append_digits ds rest hall.2 hs]

/-- The digits a scan takes are digits, and nothing is lost. -/
theorem spanDigits_spec : ∀ s : List Char,
    (spanDigits s).1 ++ (spanDigits s).2 = s ∧ (spanDigits s).1.all Char.isDigit = true
  | [] => ⟨rfl, rfl⟩
  | c :: rest => by
      obtain ⟨h1, h2⟩ := spanDigits_spec rest
      by_cases hc : c.isDigit = true
      · simp [spanDigits, hc, h1, h2]
      · simp [spanDigits, hc]

/-- A scan that reached the end of its text stops there when more text that
starts with no digit is written behind it. -/
theorem spanDigits_append : ∀ (s rest : List Char), Stop rest →
    spanDigits (s ++ rest) = ((spanDigits s).1, (spanDigits s).2 ++ rest)
  | [], rest, hs => by
      simpa [spanDigits] using spanDigits_append_digits [] rest rfl hs
  | c :: s, rest, hs => by
      by_cases hc : c.isDigit = true
      · simp [spanDigits, hc, spanDigits_append s rest hs]
      · simp [spanDigits, hc]

theorem scanSign_append (s rest : List Char) (hs : Stop rest) :
    scanSign (s ++ rest) = ((scanSign s).1, (scanSign s).2 ++ rest) := by
  cases s with
  | nil =>
    cases rest with
    | nil => rfl
    | cons c r =>
      have hne : c ≠ '-' := by rintro rfl; exact absurd (hs '-' rfl) (by decide)
      simp only [List.nil_append, scanSign]
      split
      · rename_i h; cases h; exact absurd rfl hne
      · rfl
  | cons c s =>
    by_cases hc : c = '-'
    · subst hc; rfl
    · have h1 : ∀ t, scanSign (c :: t) = ([], c :: t) := by
        intro t
        unfold scanSign
        split
        · rename_i h; cases h; exact absurd rfl hc
        · rfl
      simp [h1]

theorem scanInt_append {s rest ds r : List Char} (hs : Stop rest)
    (h : scanInt s = some (ds, r)) : scanInt (s ++ rest) = some (ds, r ++ rest) := by
  cases s with
  | nil => simp [scanInt] at h
  | cons c s =>
    simp only [List.cons_append, scanInt] at h ⊢
    by_cases hz : c = '0'
    · simp only [hz, if_true, Option.some.injEq, Prod.mk.injEq] at h ⊢
      obtain ⟨rfl, rfl⟩ := h; exact ⟨rfl, rfl⟩
    · by_cases hd : c.isDigit = true
      · simp only [hz, hd, if_true, if_false, Option.some.injEq, Prod.mk.injEq] at h ⊢
        obtain ⟨rfl, rfl⟩ := h
        simp [spanDigits_append s rest hs]
      · simp [hz, hd] at h

theorem scanFrac_append (s rest : List Char) (hs : Stop rest) :
    scanFrac (s ++ rest) = ((scanFrac s).1, (scanFrac s).2 ++ rest) := by
  have hother : ∀ {c : Char} {t : List Char}, c ≠ '.' → scanFrac (c :: t) = ([], c :: t) := by
    intro c t hc
    unfold scanFrac
    split
    · rename_i h; cases h; exact absurd rfl hc
    · rfl
  cases s with
  | nil =>
    cases rest with
    | nil => rfl
    | cons c r =>
      have hne : c ≠ '.' := by rintro rfl; exact absurd (hs '.' rfl) (by decide)
      simpa [scanFrac] using hother hne
  | cons c s =>
    by_cases hc : c = '.'
    · subst hc
      simp only [List.cons_append, scanFrac, spanDigits_append s rest hs]
      cases h : spanDigits s with
      | mk ds r => cases ds <;> simp
    · simp [hother hc]

theorem scanExpSign_append (s rest : List Char) (hs : Stop rest) :
    scanExpSign (s ++ rest) = ((scanExpSign s).1, (scanExpSign s).2 ++ rest) := by
  cases s with
  | nil =>
    cases rest with
    | nil => rfl
    | cons c r =>
      have hne : ¬ (c = '+' ∨ c = '-') := by
        rintro (rfl | rfl) <;> exact absurd (hs _ rfl) (by decide)
      simp [scanExpSign, hne]
  | cons c s => by_cases hc : c = '+' ∨ c = '-' <;> simp [scanExpSign, hc]

theorem scanExp_append (s rest : List Char) (hs : Stop rest) :
    scanExp (s ++ rest) = ((scanExp s).1, (scanExp s).2 ++ rest) := by
  cases s with
  | nil =>
    cases rest with
    | nil => rfl
    | cons c r =>
      have hne : ¬ (c = 'e' ∨ c = 'E') := by
        rintro (rfl | rfl) <;> exact absurd (hs _ rfl) (by decide)
      simp [scanExp, hne]
  | cons c s =>
    by_cases hc : c = 'e' ∨ c = 'E'
    · simp only [List.cons_append, scanExp, hc, if_true, scanExpSign_append s rest hs,
        spanDigits_append _ rest hs]
      cases h : spanDigits (scanExpSign s).2 with
      | mk ds r => cases ds <;> simp
    · simp [scanExp, hc]

/-- A number token is scanned the same way with more text behind it. -/
theorem scanNumber_append {s rest sg ds fe r : List Char} (hs : Stop rest)
    (h : scanNumber s = some (sg, ds, fe, r)) :
    scanNumber (s ++ rest) = some (sg, ds, fe, r ++ rest) := by
  unfold scanNumber at h ⊢
  rw [scanSign_append s rest hs]
  cases hi : scanInt (scanSign s).2 with
  | none => simp [hi] at h
  | some p =>
    obtain ⟨ds', r'⟩ := p
    simp only [hi, Option.some.injEq, Prod.mk.injEq] at h
    obtain ⟨rfl, rfl, rfl, rfl⟩ := h
    simp only [scanInt_append hs hi, scanFrac_append r' rest hs,
      scanExp_append (scanFrac r').2 rest hs]

theorem scanSign_spec (s : List Char) :
    (scanSign s).1 ++ (scanSign s).2 = s ∧ (scanSign s).1.all isAtomChar = true := by
  unfold scanSign
  split <;> simp [isAtomChar]

theorem scanInt_spec {s ds r : List Char} (h : scanInt s = some (ds, r)) :
    s = ds ++ r ∧ ds.all Char.isDigit = true ∧ ds ≠ [] := by
  cases s with
  | nil => simp [scanInt] at h
  | cons c s =>
    simp only [scanInt] at h
    by_cases hz : c = '0'
    · simp only [hz, if_true, Option.some.injEq, Prod.mk.injEq] at h
      obtain ⟨rfl, rfl⟩ := h; subst hz; exact ⟨rfl, by decide, by simp⟩
    · by_cases hd : c.isDigit = true
      · simp only [hz, hd, if_true, if_false, Option.some.injEq, Prod.mk.injEq] at h
        obtain ⟨rfl, rfl⟩ := h
        obtain ⟨h1, h2⟩ := spanDigits_spec s
        exact ⟨by simp [h1], by simp [hd, h2], by simp⟩
      · simp [hz, hd] at h

theorem all_isAtomChar_of_digits {ds : List Char} (h : ds.all Char.isDigit = true) :
    ds.all isAtomChar = true := by
  simp only [List.all_eq_true] at h ⊢
  exact fun c hc => isAtomChar_of_isDigit (h c hc)

theorem scanFrac_spec (s : List Char) :
    (scanFrac s).1 ++ (scanFrac s).2 = s ∧ (scanFrac s).1.all isAtomChar = true := by
  unfold scanFrac
  split
  · rename_i rest
    obtain ⟨h1, h2⟩ := spanDigits_spec rest
    cases h : spanDigits rest with
    | mk ds r =>
      rw [h] at h1 h2
      cases ds with
      | nil => simp
      | cons d ds =>
        exact ⟨by simpa using h1,
          by rw [List.all_cons, all_isAtomChar_of_digits h2]; decide⟩
  · simp

theorem scanExpSign_spec (s : List Char) :
    (scanExpSign s).1 ++ (scanExpSign s).2 = s ∧ (scanExpSign s).1.all isAtomChar = true := by
  cases s with
  | nil => simp [scanExpSign]
  | cons c s =>
    by_cases hc : c = '+' ∨ c = '-'
    · simp only [scanExpSign, hc, if_true]
      rcases hc with rfl | rfl <;> simp [isAtomChar]
    · simp [scanExpSign, hc]

theorem scanExp_spec (s : List Char) :
    (scanExp s).1 ++ (scanExp s).2 = s ∧ (scanExp s).1.all isAtomChar = true := by
  cases s with
  | nil => simp [scanExp]
  | cons c s =>
    by_cases hc : c = 'e' ∨ c = 'E'
    · obtain ⟨g1, g2⟩ := scanExpSign_spec s
      obtain ⟨h1, h2⟩ := spanDigits_spec (scanExpSign s).2
      simp only [scanExp, hc, if_true]
      cases h : spanDigits (scanExpSign s).2 with
      | mk ds r =>
        rw [h] at h1 h2
        cases ds with
        | nil => simp
        | cons d ds =>
          have hca : isAtomChar c = true := by rcases hc with rfl | rfl <;> decide
          refine ⟨?_, ?_⟩
          · have h1' : d :: (ds ++ r) = (scanExpSign s).2 := by simpa using h1
            simp only [List.cons_append, List.append_assoc, h1', g1]
          · simp only [List.all_cons, List.all_append, hca, g2, Bool.true_and]
            simpa using all_isAtomChar_of_digits h2
    · simp [scanExp, hc]

/-- A scanned number token is a prefix of its text, made of atom characters,
with a digit after its sign. -/
theorem scanNumber_spec {s sg ds fe r : List Char}
    (h : scanNumber s = some (sg, ds, fe, r)) :
    s = (sg ++ ds ++ fe) ++ r ∧ (sg ++ ds ++ fe).all isAtomChar = true
      ∧ (sg = [] ∨ sg = ['-']) ∧ ds.all Char.isDigit = true ∧ ds ≠ [] := by
  unfold scanNumber at h
  cases hi : scanInt (scanSign s).2 with
  | none => simp [hi] at h
  | some p =>
    obtain ⟨ds', r'⟩ := p
    simp only [hi, Option.some.injEq, Prod.mk.injEq] at h
    obtain ⟨rfl, rfl, rfl, rfl⟩ := h
    obtain ⟨s1, s2⟩ := scanSign_spec s
    obtain ⟨i1, i2, i3⟩ := scanInt_spec hi
    obtain ⟨f1, f2⟩ := scanFrac_spec r'
    obtain ⟨e1, e2⟩ := scanExp_spec (scanFrac r').2
    refine ⟨?_, ?_, ?_, i2, i3⟩
    · simp only [List.append_assoc]
      rw [e1, f1, ← i1, s1]
    · simp only [List.all_append, s2, all_isAtomChar_of_digits i2, f2, e2, Bool.and_self]
    · unfold scanSign; split <;> simp

/-! ## 2. Atoms -/

/-- The text of a natural number is a non-empty run of digits. -/
theorem toDigits_isDigit (n : Nat) : (Nat.toDigits 10 n).all Char.isDigit = true := by
  simp only [List.all_eq_true]
  exact fun c hc => Nat.isDigit_of_mem_toDigits (by decide) (by decide) hc

theorem toDigits_head_ne_zero : ∀ n : Nat, 0 < n →
    ∃ c rest, Nat.toDigits 10 n = c :: rest ∧ c ≠ '0' := by
  intro n
  induction n using Nat.strongRecOn with
  | _ n ih =>
    intro hn
    by_cases hlt : n < 10
    · refine ⟨n.digitChar, [], Nat.toDigits_of_lt_base hlt, ?_⟩
      interval_cases n <;> decide
    · obtain ⟨c, rest, he, hc⟩ := ih (n / 10) (by omega) (by omega)
      rw [Nat.toDigits_of_base_le (by decide) (by omega), he]
      exact ⟨c, _, rfl, hc⟩

theorem scanInt_toDigits (n : Nat) (rest : List Char) (hs : Stop rest) :
    scanInt (Nat.toDigits 10 n ++ rest) = some (Nat.toDigits 10 n, rest) := by
  by_cases hn : n = 0
  · subst hn; simp [Nat.toDigits_zero, scanInt]
  · obtain ⟨c, ds, he, hc⟩ := toDigits_head_ne_zero n (by omega)
    have hall := toDigits_isDigit n
    rw [he] at hall ⊢
    simp only [List.all_cons, Bool.and_eq_true] at hall
    simp [scanInt, hc, hall.1, spanDigits_append_digits ds rest hall.2 hs]

theorem scanFrac_stop {rest : List Char} (hs : Stop rest) : scanFrac rest = ([], rest) := by
  simpa [scanFrac] using scanFrac_append [] rest hs

theorem scanExp_stop {rest : List Char} (hs : Stop rest) : scanExp rest = ([], rest) := by
  simpa [scanExp] using scanExp_append [] rest hs

theorem scanSign_digit {c : Char} (h : c.isDigit = true) (rest : List Char) :
    scanSign (c :: rest) = ([], c :: rest) := by
  unfold scanSign
  split
  · rename_i heq; cases heq; exact absurd h (by decide)
  · rfl

theorem scanNumber_intText (n : Int) (rest : List Char) (hs : Stop rest) :
    ∃ sg ds, scanNumber (intText n ++ rest) = some (sg, ds, [], rest)
      ∧ intOfToken sg ds = n := by
  cases n with
  | ofNat n =>
    refine ⟨[], Nat.toDigits 10 n, ?_, by simp [intOfToken, Nat.ofDigitChars_ten_toDigits]⟩
    obtain ⟨c, ds, he⟩ := List.exists_cons_of_ne_nil (Nat.toDigits_ne_nil (n := n) (b := 10))
    have hall := toDigits_isDigit n
    rw [he, List.all_cons, Bool.and_eq_true] at hall
    have hsg : scanSign (Nat.toDigits 10 n ++ rest) = ([], Nat.toDigits 10 n ++ rest) := by
      rw [he]; exact scanSign_digit hall.1 _
    simp [scanNumber, intText, hsg, scanInt_toDigits n rest hs, scanFrac_stop hs,
      scanExp_stop hs]
  | negSucc n =>
    refine ⟨['-'], Nat.toDigits 10 (n + 1), ?_, ?_⟩
    · simp [scanNumber, intText, scanSign, scanInt_toDigits (n + 1) rest hs, scanFrac_stop hs,
        scanExp_stop hs]
    · simp [intOfToken, Nat.ofDigitChars_ten_toDigits, Int.negSucc_eq]

theorem literals_digit {c : Char} (h : c.isDigit = true) (rest : List Char) :
    (literals.findSome? fun p => (p.1.isPrefixOf? (c :: rest)).map fun r => (p.2, r)) = none := by
  have hne : ∀ d : Char, d.isDigit = false → ¬ d = c := by
    rintro d hd rfl; rw [h] at hd; exact absurd hd (by simp)
  simp [literals, List.isPrefixOf?, hne 'n' (by decide), hne 't' (by decide),
    hne 'f' (by decide), hne 'N' (by decide), hne 'I' (by decide), hne '-' (by decide)]

theorem literals_minus {c : Char} (h : c.isDigit = true) (rest : List Char) :
    (literals.findSome? fun p =>
      (p.1.isPrefixOf? ('-' :: c :: rest)).map fun r => (p.2, r)) = none := by
  have hne : ∀ d : Char, d.isDigit = false → ¬ d = c := by
    rintro d hd rfl; rw [h] at hd; exact absurd hd (by simp)
  simp [literals, List.isPrefixOf?, hne 'I' (by decide)]

/-- A text that starts with a number token is parsed as that number. -/
theorem parseAtom_of_scanNumber {s sg ds fe r : List Char}
    (h : scanNumber s = some (sg, ds, fe, r)) : parseAtom s = parseNumber s := by
  obtain ⟨hs, -, hsg, hd, hne⟩ := scanNumber_spec h
  obtain ⟨c, ds', rfl⟩ := List.exists_cons_of_ne_nil hne
  rw [List.all_cons, Bool.and_eq_true] at hd
  unfold parseAtom
  rcases hsg with rfl | rfl
  · rw [hs]; simp only [List.nil_append, List.cons_append, literals_digit hd.1]
  · rw [hs]; simp only [List.nil_append, List.cons_append, literals_minus hd.1]

theorem parseAtom_intText (n : Int) (rest : List Char) (hs : Stop rest) :
    parseAtom (intText n ++ rest) = some (.int n, rest) := by
  obtain ⟨sg, ds, h, hn⟩ := scanNumber_intText n rest hs
  rw [parseAtom_of_scanNumber h]
  simp [parseNumber, h, hn]

/-- A float's text is either special or one whole number token. -/
theorem PyFloat.text_cases (x : PyFloat) :
    x.text ∈ specialFloats ∨ ∃ sg ds fe, scanNumber x.text = some (sg, ds, fe, [])
      ∧ fe ≠ [] ∧ sg ++ ds ++ fe = x.text := by
  obtain ⟨t, ht⟩ := x
  simp only [isFloatText, Bool.or_eq_true, List.contains_iff_mem] at ht
  rcases ht with h | h
  · exact Or.inl h
  · refine Or.inr ?_
    cases hn : scanNumber t with
    | none => simp [hn] at h
    | some p =>
      obtain ⟨sg, ds, fe, r⟩ := p
      cases r with
      | nil =>
        simp only [hn, Bool.and_eq_true, Bool.not_eq_true', List.isEmpty_eq_false_iff,
          beq_iff_eq] at h
        exact ⟨sg, ds, fe, rfl, h.1, h.2⟩
      | cons c r => simp [hn] at h

theorem parseAtom_float (x : PyFloat) (rest : List Char) (hs : Stop rest) :
    parseAtom (x.text ++ rest) = some (.float x, rest) := by
  rcases x.text_cases with h | ⟨sg, ds, fe, h, hfe, heq⟩
  · obtain ⟨t, ht⟩ := x
    simp only [specialFloats, List.mem_cons, List.not_mem_nil, or_false] at h
    rcases h with rfl | rfl | rfl <;>
      simp [parseAtom, literals, List.isPrefixOf?]
  · have h' := scanNumber_append hs h
    have hfloat : isFloatText (sg ++ ds ++ fe) = true := by rw [heq]; exact x.isFloat
    rw [parseAtom_of_scanNumber h', parseNumber, h']
    simp only [List.isEmpty_iff, hfe, if_false, List.nil_append]
    rw [dif_pos hfloat]
    obtain ⟨t, ht⟩ := x
    simp only at heq
    simp [heq]

theorem parseAtom_consumes {s r : List Char} {v : Json} (h : parseAtom s = some (v, r)) :
    ∃ t, s = t ++ r ∧ t.all isAtomChar = true ∧ t ≠ [] := by
  unfold parseAtom at h
  split at h
  · rename_i p hp
    obtain ⟨q, hq, hpre⟩ := List.exists_of_findSome?_eq_some hp
    simp only [Option.some.injEq] at h
    subst h
    obtain ⟨r', hr', he⟩ := Option.map_eq_some_iff.mp hpre
    cases he
    have hcat : q.1 ++ r = s := List.append_eq_of_isPrefixOf?_eq_some hr'
    refine ⟨q.1, hcat.symm, ?_, ?_⟩
    · have : ∀ q ∈ literals, q.1.all isAtomChar = true := by decide
      exact this q hq
    · have : ∀ q ∈ literals, q.1 ≠ [] := by decide
      exact this q hq
  · unfold parseNumber at h
    cases hn : scanNumber s with
    | none => simp [hn] at h
    | some p =>
      obtain ⟨sg, ds, fe, r'⟩ := p
      obtain ⟨h1, h2, -, -, h5⟩ := scanNumber_spec hn
      have hr : r' = r := by
        simp only [hn] at h
        split at h
        · cases h; rfl
        · split at h
          · cases h; rfl
          · cases h
      subst hr
      exact ⟨sg ++ ds ++ fe, h1, h2, by simp [h5]⟩

/-! ## 3. Strings -/

theorem hexVal_hexDigit : ∀ n, n < 16 → hexVal (hexDigit n) = some n := by decide

/-- The four digits of an escape are read back as the number they write. -/
theorem hex4_hexDigits (n : Nat) (h : n < 0x10000) :
    hex4 (hexDigit (n / 4096 % 16)) (hexDigit (n / 256 % 16)) (hexDigit (n / 16 % 16))
      (hexDigit (n % 16)) = some n := by
  simp only [hex4, hexVal_hexDigit _ (Nat.mod_lt _ (by decide : 0 < 16)), Option.bind_eq_bind,
    Option.bind_some, Option.pure_def, Option.some.injEq]
  omega

theorem scanString_quote (rest : List Char) : scanString ('"' :: rest) = some ([], rest) := by
  simp [scanString]

theorem scanString_plain {c : Char} (rest : List Char) (hq : c ≠ '"') (hb : c ≠ '\\')
    (h : 0x20 ≤ c.toNat) :
    scanString (c :: rest) = (scanString rest).map fun p => (c :: p.1, p.2) := by
  rw [scanString]
  · rw [if_neg (by rintro (h' | h'); omega; exact hb h')]
  all_goals simp_all

theorem scanString_short {e c : Char} (rest : List Char) (h : unescape e = some c) :
    scanString ('\\' :: e :: rest) = (scanString rest).map fun p => (c :: p.1, p.2) := by
  have hu : e ≠ 'u' := by rintro rfl; simp [unescape] at h
  rw [scanString]
  · simp [h]
  · rintro _ _ _ _ _ rfl; exact absurd rfl hu

theorem scanString_unicodeEscape {n : Nat} (rest : List Char) (h : n < 0x10000)
    (hs : ¬ (0xd800 ≤ n ∧ n < 0xe000)) :
    scanString (unicodeEscape n ++ rest)
      = (scanString rest).map fun p => (Char.ofNat n :: p.1, p.2) := by
  simp only [unicodeEscape, List.cons_append, List.nil_append]
  rw [scanString]
  simp only [hex4_hexDigits n h]
  rw [if_neg (by omega), if_neg (by omega)]

theorem scanString_surrogates {hi lo : Nat} (rest : List Char)
    (hhi : 0xd800 ≤ hi ∧ hi < 0xdc00) (hlo : 0xdc00 ≤ lo ∧ lo < 0xe000) :
    scanString (unicodeEscape hi ++ (unicodeEscape lo ++ rest))
      = (scanString rest).map fun p => (joinSurrogates hi lo :: p.1, p.2) := by
  simp only [unicodeEscape, List.cons_append, List.nil_append]
  rw [scanString]
  simp only [hex4_hexDigits hi (by omega), hex4_hexDigits lo (by omega)]
  rw [if_pos hhi, if_pos hlo]

/-- A character's code is below the surrogates or above them. -/
theorem char_toNat_cases (c : Char) : c.toNat < 0xd800 ∨ 0xe000 ≤ c.toNat ∧ c.toNat < 0x110000 := by
  have h := c.valid
  simp only [UInt32.isValidChar, Nat.isValidChar] at h
  have : c.toNat = c.val.toNat := rfl
  omega

theorem scanString_encodeChar (c : Char) (rest : List Char) :
    scanString (encodeChar c ++ rest) = (scanString rest).map fun p => (c :: p.1, p.2) := by
  have hc := char_toNat_cases c
  unfold encodeChar
  split_ifs with h1 h2 h3 h4 h5 h6 h7 h8 h9
  · subst h1; exact scanString_short rest (by decide)
  · subst h2; exact scanString_short rest (by decide)
  · subst h3; exact scanString_short rest (by decide)
  · subst h4; exact scanString_short rest (by decide)
  · subst h5; exact scanString_short rest (by decide)
  · subst h6; exact scanString_short rest (by decide)
  · subst h7; exact scanString_short rest (by decide)
  · exact scanString_plain rest h1 h2 h8.1
  · rw [scanString_unicodeEscape rest h9 (by omega), Char.ofNat_toNat]
  · rw [List.append_assoc, scanString_surrogates rest (by omega) (by omega)]
    have hj : joinSurrogates (0xd800 + (c.toNat - 0x10000) / 1024)
        (0xdc00 + (c.toNat - 0x10000) % 1024) = c := by
      unfold joinSurrogates
      rw [show 0x10000 + (0xd800 + (c.toNat - 0x10000) / 1024 - 0xd800) * 1024
          + (0xdc00 + (c.toNat - 0x10000) % 1024 - 0xdc00) = c.toNat by omega,
        Char.ofNat_toNat]
    rw [hj]

theorem scanString_encodeBody : ∀ (cs rest : List Char),
    scanString (encodeBody cs ++ rest) = some (cs, rest)
  | [], rest => scanString_quote rest
  | c :: cs, rest => by
      have ih := scanString_encodeBody cs rest
      simp only [encodeBody, List.flatMap_cons, List.append_assoc] at ih ⊢
      rw [scanString_encodeChar, ih]
      rfl

/-! ## 4. Values -/

theorem skipWs_cons {c : Char} (rest : List Char) (h : isJsonWs c = false) :
    skipWs (c :: rest) = c :: rest := by simp [skipWs, h]

theorem skipWs_gap (spaced : Bool) (rest : List Char) :
    skipWs (gap spaced ++ rest) = skipWs rest := by
  cases spaced <;> simp [gap, skipWs, isJsonWs]

theorem skipWs_torn_gap {spaced : Bool} {p : List Char} (h : p <+: gap spaced) (rest : List Char) :
    skipWs (p ++ rest) = skipWs rest := by
  cases spaced with
  | false => rw [List.prefix_nil.mp h, List.nil_append]
  | true =>
    cases p with
    | nil => rfl
    | cons c p =>
      obtain ⟨rfl, hp⟩ := List.cons_prefix_cons.mp (show c :: p <+: [' '] from h)
      rw [List.prefix_nil.mp hp]
      exact skipWs_gap true rest

theorem isJsonWs_of_isAtomChar {c : Char} (h : isAtomChar c = true) : isJsonWs c = false := by
  by_contra hw
  simp only [isJsonWs, Bool.not_eq_false, Bool.or_eq_true, beq_iff_eq] at hw
  rcases hw with ((rfl | rfl) | rfl) | rfl <;> exact absurd h (by decide)

theorem intText_head (n : Int) : ∃ c t, intText n = c :: t ∧ isAtomChar c = true := by
  obtain ⟨sg, ds, h, -⟩ := scanNumber_intText n [] stop_nil
  obtain ⟨he, ha, -, -, hne⟩ := scanNumber_spec h
  rw [List.append_nil, List.append_nil] at he
  cases hi : intText n with
  | nil => rw [hi] at he; exact absurd he (by simp [hne])
  | cons c t =>
    rw [← he, hi, List.all_cons, Bool.and_eq_true] at ha
    exact ⟨c, t, rfl, ha.1⟩

theorem float_head (x : PyFloat) : ∃ c t, x.text = c :: t ∧ isAtomChar c = true := by
  obtain ⟨t, he, ha, hne⟩ := parseAtom_consumes (parseAtom_float x [] stop_nil)
  obtain ⟨c, t', rfl⟩ := List.exists_cons_of_ne_nil hne
  rw [List.append_nil, List.append_nil] at he
  rw [List.all_cons, Bool.and_eq_true] at ha
  exact ⟨c, t', he, ha.1⟩

section

variable (sp : Bool)

section Texts

attribute [local simp] dumpsWith dumpsItemsWith dumpsPairsWith separatorWith encodeString

/-- An encoding starts with its own first character, never with whitespace,
and no closing bracket is one. -/
theorem dumpsWith_head (v : Json) : ∃ c t, dumpsWith sp v = c :: t ∧ isJsonWs c = false
    ∧ c ≠ ']' ∧ c ≠ '}' := by
  have hatom : ∀ {c : Char}, isAtomChar c = true → isJsonWs c = false ∧ c ≠ ']' ∧ c ≠ '}' := by
    intro c hc
    refine ⟨isJsonWs_of_isAtomChar hc, ?_, ?_⟩ <;> rintro rfl <;> exact absurd hc (by decide)
  cases v with
  | null => exact ⟨'n', _, rfl, by decide⟩
  | bool b => cases b <;> exact ⟨_, _, rfl, by decide⟩
  | int n =>
    obtain ⟨c, t, h, hc⟩ := intText_head n
    exact ⟨c, t, by simp [h], hatom hc⟩
  | float x =>
    obtain ⟨c, t, h, hc⟩ := float_head x
    exact ⟨c, t, by simp [h], hatom hc⟩
  | str s => exact ⟨'"', _, by simp; rfl, by decide⟩
  | arr xs => exact ⟨'[', _, by simp; rfl, by decide⟩
  | obj kvs => exact ⟨'{', _, by simp; rfl, by decide⟩

theorem skipWs_dumpsWith (v : Json) (rest : List Char) :
    skipWs (dumpsWith sp v ++ rest) = dumpsWith sp v ++ rest := by
  obtain ⟨c, t, h, hc, -⟩ := dumpsWith_head sp v
  rw [h, List.cons_append, skipWs_cons _ hc]

/-- What follows an element of a container is a separatorWith sp or the closing
bracket, which ends a number. -/
theorem stop_dumpsItemsWith (xs : List Json) (rest : List Char) :
    Stop (dumpsItemsWith sp false xs ++ rest) := by
  cases xs with
  | nil => exact stop_cons (by decide)
  | cons x xs => simpa using stop_cons (by decide)

theorem stop_dumpsPairsWith (kvs : List (String × Json)) (rest : List Char) :
    Stop (dumpsPairsWith sp false kvs ++ rest) := by
  cases kvs with
  | nil => exact stop_cons (by decide)
  | cons p kvs =>
    obtain ⟨k, v⟩ := p
    simpa using stop_cons (by decide)

end Texts

section Decoding

attribute [local simp] parseValue

/-- A value whose text starts as an atom is parsed by the atom parser. -/
theorem parseValue_atom {fuel : Nat} {c : Char} (rest : List Char)
    (hc : isAtomChar c = true) : parseValue (fuel + 1) (c :: rest) = parseAtom (c :: rest) := by
  rw [parseValue]
  all_goals rintro _ h; cases h; exact absurd hc (by decide)

theorem parseValue_brace (fuel : Nat) (c : Char) (rest : List Char) (hw : isJsonWs c = false)
    (hc : c ≠ '}') : parseValue (fuel + 1) ('{' :: c :: rest)
      = (parseMembers fuel (c :: rest)).map fun p => (.obj p.1, p.2) := by
  rw [parseValue, skipWs_cons _ hw]
  split
  · rename_i h; cases h; exact absurd rfl hc
  · rfl

theorem parseValue_bracket (fuel : Nat) (c : Char) (rest : List Char) (hw : isJsonWs c = false)
    (hc : c ≠ ']') : parseValue (fuel + 1) ('[' :: c :: rest)
      = (parseItems fuel (c :: rest)).map fun p => (.arr p.1, p.2) := by
  rw [parseValue, skipWs_cons _ hw]
  split
  · rename_i h; cases h; exact absurd rfl hc
  · rfl

mutual
/-- The decoder reads an encoding back, whatever number-ending text follows. -/
theorem parseValue_dumpsWith : ∀ (v : Json) (fuel : Nat) (rest : List Char),
    (dumpsWith sp v).length < fuel → Stop rest → parseValue fuel (dumpsWith sp v ++ rest) = some (v, rest)
  | .null, fuel + 1, rest, _, _ => by
      simp only [dumpsWith]
      rw [show "null".toList ++ rest = 'n' :: 'u' :: 'l' :: 'l' :: rest from rfl,
        parseValue_atom _ (by decide)]
      simp [parseAtom, literals, List.isPrefixOf?]
  | .bool b, fuel + 1, rest, _, _ => by
      cases b
      · rw [show dumpsWith sp (.bool false) ++ rest = 'f' :: 'a' :: 'l' :: 's' :: 'e' :: rest from rfl,
          parseValue_atom _ (by decide)]
        simp [parseAtom, literals, List.isPrefixOf?]
      · rw [show dumpsWith sp (.bool true) ++ rest = 't' :: 'r' :: 'u' :: 'e' :: rest from rfl,
          parseValue_atom _ (by decide)]
        simp [parseAtom, literals, List.isPrefixOf?]
  | .int n, fuel + 1, rest, _, hs => by
      have h := parseAtom_intText n rest hs
      obtain ⟨c, t, he, hc⟩ := intText_head n
      simp only [dumpsWith, he, List.cons_append] at h ⊢
      rw [parseValue_atom _ hc, h]
  | .float x, fuel + 1, rest, _, hs => by
      have h := parseAtom_float x rest hs
      obtain ⟨c, t, he, hc⟩ := float_head x
      simp only [dumpsWith, he, List.cons_append] at h ⊢
      rw [parseValue_atom _ hc, h]
  | .str s, fuel + 1, rest, _, _ => by
      simp only [dumpsWith, encodeString, List.cons_append]
      rw [parseValue, scanString_encodeBody]
      simp
  | .arr [], fuel + 1, rest, _, _ => by
      simp [dumpsWith, dumpsItemsWith, skipWs, isJsonWs]
  | .arr (x :: xs), fuel + 1, rest, hf, _ => by
      have h := parseItems_dumpsWith (x :: xs) (by simp) fuel rest
        (by simp only [dumpsWith, List.length_cons] at hf; omega)
      obtain ⟨c, t, he, hw, hb, -⟩ := dumpsWith_head sp x
      simp only [dumpsWith, dumpsItemsWith, separatorWith, if_true, List.nil_append, he,
        List.cons_append] at h ⊢
      rw [parseValue_bracket _ _ _ hw hb, h]
      rfl
  | .obj [], fuel + 1, rest, _, _ => by
      simp [dumpsWith, dumpsPairsWith, skipWs, isJsonWs]
  | .obj ((k, v) :: kvs), fuel + 1, rest, hf, _ => by
      have h := parseMembers_dumpsWith ((k, v) :: kvs) (by simp) fuel rest
        (by simp only [dumpsWith, List.length_cons] at hf; omega)
      simp only [dumpsWith, dumpsPairsWith, separatorWith, if_true, List.nil_append, encodeString,
        List.cons_append] at h ⊢
      rw [parseValue_brace _ _ _ (by decide) (by decide), h]
      rfl
theorem parseItems_dumpsWith : ∀ (xs : List Json), xs ≠ [] → ∀ (fuel : Nat) (rest : List Char),
    (dumpsItemsWith sp true xs).length < fuel →
    parseItems fuel (dumpsItemsWith sp true xs ++ rest) = some (xs, rest)
  | x :: xs, _, fuel + 1, rest, hf => by
      have hlen : (dumpsItemsWith sp true (x :: xs)).length
          = (dumpsWith sp x).length + (dumpsItemsWith sp false xs).length := by
        simp [dumpsItemsWith, separatorWith]
      have hpos : 0 < (dumpsItemsWith sp false xs).length := by
        cases xs <;> simp [dumpsItemsWith, separatorWith]
      have hv := parseValue_dumpsWith x fuel (dumpsItemsWith sp false xs ++ rest) (by omega)
        (stop_dumpsItemsWith sp xs rest)
      simp only [dumpsItemsWith, separatorWith, if_true, List.nil_append, List.append_assoc, parseItems,
        hv, Option.bind_eq_bind, Option.bind_some]
      match xs with
      | [] => simp [dumpsItemsWith, skipWs, isJsonWs]
      | y :: ys =>
          have h := parseItems_dumpsWith (y :: ys) (by simp) fuel rest
            (by simp [dumpsItemsWith, separatorWith] at hlen hf ⊢; omega)
          simp only [dumpsItemsWith, separatorWith, if_true, List.nil_append, List.append_assoc] at h
          simp only [dumpsItemsWith, separatorWith, Bool.false_eq_true, if_false, List.cons_append,
            List.append_assoc, skipWs_cons _ (show isJsonWs ',' = false from rfl),
            skipWs_gap, skipWs_dumpsWith, h]
          rfl
theorem parseMembers_dumpsWith : ∀ (kvs : List (String × Json)), kvs ≠ [] →
    ∀ (fuel : Nat) (rest : List Char), (dumpsPairsWith sp true kvs).length < fuel →
    parseMembers fuel (dumpsPairsWith sp true kvs ++ rest) = some (kvs, rest)
  | (k, v) :: kvs, _, fuel + 1, rest, hf => by
      have hlen : (dumpsPairsWith sp true ((k, v) :: kvs)).length
          = (encodeString k).length + 1 + (gap sp).length + (dumpsWith sp v).length
            + (dumpsPairsWith sp false kvs).length := by
        simp [dumpsPairsWith, separatorWith]; omega
      have hpos : 0 < (dumpsPairsWith sp false kvs).length := by
        rcases kvs with _ | ⟨⟨k', v'⟩, kvs⟩ <;> simp [dumpsPairsWith, separatorWith]
      have hv := parseValue_dumpsWith v fuel (dumpsPairsWith sp false kvs ++ rest) (by omega)
        (stop_dumpsPairsWith sp kvs rest)
      simp only [dumpsPairsWith, separatorWith, if_true, List.nil_append, List.append_assoc, encodeString,
        List.cons_append, parseMembers, expect, scanString_encodeBody, Option.bind_eq_bind,
        Option.bind_some, skipWs_cons _ (show isJsonWs ':' = false from rfl), skipWs_gap,
        skipWs_dumpsWith, hv, String.ofList_toList]
      match kvs with
      | [] => simp [dumpsPairsWith, skipWs, isJsonWs]
      | (k', v') :: kvs' =>
          have h := parseMembers_dumpsWith ((k', v') :: kvs') (by simp) fuel rest
            (by simp [dumpsPairsWith, separatorWith] at hlen hf ⊢; omega)
          simp only [dumpsPairsWith, separatorWith, if_true, List.nil_append, List.append_assoc,
            encodeString, List.cons_append] at h
          simp only [dumpsPairsWith, separatorWith, Bool.false_eq_true, if_false, List.cons_append,
            List.append_assoc, encodeString,
            skipWs_cons _ (show isJsonWs ',' = false from rfl), skipWs_gap,
            skipWs_cons _ (show isJsonWs '"' = false from rfl), h]
          rfl
end

end Decoding

/-- **Round trip**: `json.loads (json.dumps v)` is `v`. -/
theorem loads_dumpsWith (v : Json) : loads (dumpsWith sp v) = some v := by
  have h := parseValue_dumpsWith sp v ((dumpsWith sp v).length + 1) [] (by omega) stop_nil
  have hw := skipWs_dumpsWith sp v []
  rw [List.append_nil] at h hw
  simp [loads, hw, h, skipWs]

/-! ## 5. The characters of an encoding -/

/-- Printable ASCII. -/
def isPlain (c : Char) : Bool := decide (0x20 ≤ c.toNat ∧ c.toNat ≤ 0x7e)

theorem isPlain_of_isAtomChar {c : Char} (h : isAtomChar c = true) : isPlain c = true := by
  delta isAtomChar Char.isAlpha Char.isUpper Char.isLower at h
  simp only [Char.isDigit, Bool.or_eq_true, Bool.and_eq_true, decide_eq_true_eq, beq_iff_eq] at h
  simp only [isPlain, decide_eq_true_eq]
  rcases h with ((((h | h) | h) | rfl) | rfl) | rfl
  · have h1 : (65 : Nat) ≤ c.toNat := h.1
    have h2 : c.toNat ≤ 90 := h.2
    omega
  · have h1 : (97 : Nat) ≤ c.toNat := h.1
    have h2 : c.toNat ≤ 122 := h.2
    omega
  · have h1 : (48 : Nat) ≤ c.toNat := h.1
    have h2 : c.toNat ≤ 57 := h.2
    omega
  all_goals decide

theorem isPlain_hexDigit : ∀ n, n < 16 → isPlain (hexDigit n) = true := by decide

theorem unicodeEscape_isPlain (n : Nat) : (unicodeEscape n).all isPlain = true := by
  simp only [unicodeEscape, List.all_cons, List.all_nil,
    isPlain_hexDigit _ (Nat.mod_lt _ (by decide : 0 < 16))]
  decide

theorem encodeChar_isPlain (c : Char) : (encodeChar c).all isPlain = true := by
  unfold encodeChar
  split_ifs with h1 h2 h3 h4 h5 h6 h7 h8 h9
  iterate 7 decide
  · simp [isPlain, h8]
  · exact unicodeEscape_isPlain _
  · rw [List.all_append, unicodeEscape_isPlain, unicodeEscape_isPlain]; rfl

theorem encodeString_isPlain (s : String) : (encodeString s).all isPlain = true := by
  have hb : (s.toList.flatMap encodeChar).all isPlain = true := by
    simp only [List.all_eq_true, List.mem_flatMap]
    rintro c ⟨d, -, hc⟩
    exact List.all_eq_true.mp (encodeChar_isPlain d) c hc
  simp only [encodeString, encodeBody, List.all_cons, List.all_append, hb]
  decide

theorem atoms_isPlain {t : List Char} (h : t.all isAtomChar = true) : t.all isPlain = true := by
  simp only [List.all_eq_true] at h ⊢
  exact fun c hc => isPlain_of_isAtomChar (h c hc)

theorem gap_isPlain : (gap sp).all isPlain = true := by cases sp <;> decide

mutual
/-- An encoding is printable ASCII: it holds no line break. -/
theorem dumpsWith_isPlain : ∀ v : Json, (dumpsWith sp v).all isPlain = true
  | .null => by rw [dumpsWith]; decide
  | .bool b => by rw [dumpsWith]; cases b <;> decide
  | .int n => by
      obtain ⟨t, he, ha, -⟩ := parseAtom_consumes (parseAtom_intText n [] stop_nil)
      rw [List.append_nil, List.append_nil] at he
      rw [dumpsWith, he]; exact atoms_isPlain ha
  | .float x => by
      obtain ⟨t, he, ha, -⟩ := parseAtom_consumes (parseAtom_float x [] stop_nil)
      rw [List.append_nil, List.append_nil] at he
      rw [dumpsWith, he]; exact atoms_isPlain ha
  | .str s => encodeString_isPlain s
  | .arr xs => by
      rw [dumpsWith, List.all_cons, dumpsItemsWith_isPlain true xs]; decide
  | .obj kvs => by
      rw [dumpsWith, List.all_cons, dumpsPairsWith_isPlain true kvs]; decide
theorem dumpsItemsWith_isPlain : ∀ (first : Bool) (xs : List Json),
    (dumpsItemsWith sp first xs).all isPlain = true
  | _, [] => by rw [dumpsItemsWith]; decide
  | first, x :: xs => by
      rw [dumpsItemsWith, List.all_append, List.all_append, dumpsWith_isPlain x,
        dumpsItemsWith_isPlain false xs]
      cases first <;> cases sp <;> decide
theorem dumpsPairsWith_isPlain : ∀ (first : Bool) (kvs : List (String × Json)),
    (dumpsPairsWith sp first kvs).all isPlain = true
  | _, [] => by rw [dumpsPairsWith]; decide
  | first, (k, v) :: kvs => by
      rw [dumpsPairsWith, List.all_append, List.all_append, List.all_cons, List.all_append,
        List.all_append, gap_isPlain, encodeString_isPlain k, dumpsWith_isPlain v, dumpsPairsWith_isPlain false kvs]
      cases first <;> cases sp <;> decide
end

end

/-! ## 6. Fuel -/

/-- A parse that succeeds gives the same answer with one more unit of fuel. -/
theorem parse_succ : ∀ fuel : Nat,
    (∀ s x, parseValue fuel s = some x → parseValue (fuel + 1) s = some x)
    ∧ (∀ s x, parseMembers fuel s = some x → parseMembers (fuel + 1) s = some x)
    ∧ (∀ s x, parseItems fuel s = some x → parseItems (fuel + 1) s = some x) := by
  intro fuel
  induction fuel with
  | zero => simp [parseValue, parseMembers, parseItems]
  | succ fuel ih =>
    obtain ⟨ihv, ihm, ihi⟩ := ih
    refine ⟨?_, ?_, ?_⟩
    · intro s x h
      rw [parseValue.eq_def] at h ⊢
      simp only at h ⊢
      split at h
      · exact h
      · split at h
        · exact h
        · obtain ⟨p, hp, rfl⟩ := Option.map_eq_some_iff.mp h
          rw [ihm _ _ hp]; rfl
      · split at h
        · exact h
        · obtain ⟨p, hp, rfl⟩ := Option.map_eq_some_iff.mp h
          rw [ihi _ _ hp]; rfl
      · exact h
    · intro s x h
      rw [parseMembers.eq_def] at h ⊢
      simp only [Option.bind_eq_bind, Option.bind_eq_some_iff] at h ⊢
      obtain ⟨r0, h0, p1, h1, r2, h2, p3, h3, h4⟩ := h
      refine ⟨r0, h0, p1, h1, r2, h2, p3, ihv _ _ h3, ?_⟩
      split at h4
      · exact h4
      · obtain ⟨p, hp, rfl⟩ := Option.map_eq_some_iff.mp h4
        rw [ihm _ _ hp]; rfl
      · exact h4
    · intro s x h
      rw [parseItems.eq_def] at h ⊢
      simp only [Option.bind_eq_bind, Option.bind_eq_some_iff] at h ⊢
      obtain ⟨p1, h1, h2⟩ := h
      refine ⟨p1, ihv _ _ h1, ?_⟩
      split at h2
      · exact h2
      · obtain ⟨p, hp, rfl⟩ := Option.map_eq_some_iff.mp h2
        rw [ihi _ _ hp]; rfl
      · exact h2

theorem parseValue_mono {fuel fuel' : Nat} {s : List Char} {x : Json × List Char}
    (hle : fuel ≤ fuel') (h : parseValue fuel s = some x) : parseValue fuel' s = some x := by
  induction hle with
  | refl => exact h
  | step _ ih => exact (parse_succ _).1 _ _ ih

/-- Whatever the fuel, a parse of an encoding that succeeds returns the value
and what follows it. -/
theorem parseValue_dumpsWith_eq {sp : Bool} {v : Json} {fuel : Nat} {rest : List Char} {x : Json × List Char}
    (hs : Stop rest) (h : parseValue fuel (dumpsWith sp v ++ rest) = some x) : x = (v, rest) := by
  have h1 := parseValue_mono (Nat.le_max_left fuel ((dumpsWith sp v).length + 1)) h
  have h2 := parseValue_dumpsWith sp v (max fuel ((dumpsWith sp v).length + 1)) rest
    (Nat.lt_of_lt_of_le (Nat.lt_succ_self _) (Nat.le_max_right _ _)) hs
  exact Option.some.inj (h1.symm.trans h2)

/-! ## 7. Torn and glued encodings -/

/-- No JSON context can go on at the head of this text: it is blank, or its
first visible character is neither a separatorWith sp nor a closing bracket. -/
def BadRest (r : List Char) : Prop :=
  ∀ c ∈ (skipWs r).head?, c ≠ ',' ∧ c ≠ ':' ∧ c ≠ '}' ∧ c ≠ ']'

theorem badRest_nil : BadRest [] := by simp [BadRest, skipWs]

theorem badRest_cons {c : Char} {r : List Char} (hw : isJsonWs c = false)
    (h : c ≠ ',' ∧ c ≠ ':' ∧ c ≠ '}' ∧ c ≠ ']') : BadRest (c :: r) := by
  simpa [BadRest, skipWs_cons r hw] using h

theorem badRest_atom {c : Char} {r : List Char} (h : isAtomChar c = true) : BadRest (c :: r) := by
  refine badRest_cons (isJsonWs_of_isAtomChar h) ⟨?_, ?_, ?_, ?_⟩ <;>
    rintro rfl <;> exact absurd h (by decide)

/-- What stands behind a cut encoding: nothing, or the start of another
object, in front of which every parse ends badly. -/
structure GlueTail (q : List Char) : Prop where
  shape : q = [] ∨ ∃ c r, q = '{' :: '"' :: c :: r ∧ BadRest (c :: r)
  value : ∀ fuel w r, parseValue fuel q = some (w, r) → BadRest r

theorem glueTail_nil : GlueTail [] := by
  refine ⟨Or.inl rfl, fun fuel w r h => ?_⟩
  cases fuel with
  | zero => simp [parseValue] at h
  | succ fuel =>
    obtain ⟨t, ht, -, hne⟩ := parseAtom_consumes (s := []) (r := r) (v := w) (by simpa [parseValue] using h)
    exact absurd (List.append_eq_nil_iff.mp ht.symm).1 hne

theorem GlueTail.badRest {q : List Char} (hq : GlueTail q) : BadRest q := by
  rcases hq.shape with rfl | ⟨c, r, rfl, -⟩
  · exact badRest_nil
  · exact badRest_cons (by decide) (by decide)

/-- `p` is a proper prefix of `t`. -/
def Torn (p t : List Char) : Prop := p <+: t ∧ p ≠ t

theorem Torn.cons {c d : Char} {p t : List Char} (h : Torn (c :: p) (d :: t)) :
    c = d ∧ Torn p t := by
  obtain ⟨h1, h2⟩ := h
  rw [List.cons_prefix_cons] at h1
  exact ⟨h1.1, h1.2, fun he => h2 (by rw [h1.1, he])⟩

theorem not_torn_nil {p : List Char} : ¬ Torn p [] := by
  rintro ⟨h1, h2⟩
  exact h2 (List.prefix_nil.mp h1)

theorem Torn.append {p a b : List Char} (h : Torn p (a ++ b)) :
    Torn p a ∨ ∃ p', p = a ++ p' ∧ Torn p' b := by
  obtain ⟨h1, h2⟩ := h
  rcases List.prefix_or_prefix_of_prefix h1 (List.prefix_append a b) with h | ⟨p', rfl⟩
  · by_cases he : p = a
    · subst he
      exact Or.inr ⟨[], by simp, List.nil_prefix, by rintro rfl; exact h2 (by simp)⟩
    · exact Or.inl ⟨h, he⟩
  · rw [List.prefix_append_right_inj] at h1
    exact Or.inr ⟨p', rfl, h1, fun he => h2 (by rw [he])⟩

theorem Torn.singleton {p : List Char} {c : Char} (h : Torn p [c]) : p = [] := by
  cases p with
  | nil => rfl
  | cons d p => exact absurd h.cons.2 not_torn_nil

section Glued

variable {q : List Char} {sp : Bool}

/-! ### Strings -/

theorem hexVal_brace : hexVal '{' = none := by decide

/-- A cut `\u` escape has no four digits in front of what follows the cut. -/
theorem hex4_of_torn {n : Nat} {p : List Char} (hq : GlueTail q) (hp : Torn p (unicodeEscape n))
    {a b c d : Char} {t : List Char} (he : p ++ q = '\\' :: 'u' :: a :: b :: c :: d :: t) :
    hex4 a b c d = none := by
  have hqs : q = [] ∨ ∃ q', q = '{' :: q' := by
    rcases hq.shape with h | ⟨c, r, h, -⟩
    · exact Or.inl h
    · exact Or.inr ⟨_, h⟩
  rw [unicodeEscape] at hp
  match p, hp with
  | [], _ => rcases hqs with rfl | ⟨q', rfl⟩ <;> simp at he
  | [_], _ => rcases hqs with rfl | ⟨q', rfl⟩ <;> simp at he
  | [_, _], _ =>
    rcases hqs with rfl | ⟨q', rfl⟩
    · simp at he
    · simp only [List.cons_append, List.nil_append, List.cons.injEq] at he
      simp [hex4, ← he.2.2.1, hexVal_brace]
  | [_, _, _], _ =>
    rcases hqs with rfl | ⟨q', rfl⟩
    · simp at he
    · simp only [List.cons_append, List.nil_append, List.cons.injEq] at he
      cases hexVal a <;> simp [hex4, ← he.2.2.2.1, hexVal_brace]
  | [_, _, _, _], _ =>
    rcases hqs with rfl | ⟨q', rfl⟩
    · simp at he
    · simp only [List.cons_append, List.nil_append, List.cons.injEq] at he
      cases hexVal a <;> cases hexVal b <;> simp [hex4, ← he.2.2.2.2.1, hexVal_brace]
  | [_, _, _, _, _], _ =>
    rcases hqs with rfl | ⟨q', rfl⟩
    · simp at he
    · simp only [List.cons_append, List.nil_append, List.cons.injEq] at he
      cases hexVal a <;> cases hexVal b <;> cases hexVal c <;>
        simp [hex4, ← he.2.2.2.2.2.1, hexVal_brace]
  | _ :: _ :: _ :: _ :: _ :: _ :: p, hp =>
    exact absurd (hp.cons.2.cons.2.cons.2.cons.2.cons.2.singleton) (by simp)

theorem scanString_u_bad (t : List Char)
    (h : ∀ a b c d t', t = a :: b :: c :: d :: t' → hex4 a b c d = none) :
    scanString ('\\' :: 'u' :: t) = none := by
  match t, h with
  | [], _ | [_], _ | [_, _], _ | [_, _, _], _ => simp [scanString, unescape]
  | a :: b :: c :: d :: t', h => rw [scanString]; simp [h a b c d t' rfl]

theorem scanString_backslash (hq : GlueTail q) : scanString ('\\' :: q) = none := by
  rcases hq.shape with rfl | ⟨c, r, rfl, -⟩
  · simp [scanString]
  · simp [scanString, unescape]

/-- A high surrogate without its whole low half is refused. -/
theorem scanString_high_bad {n : Nat} (t : List Char) (hn : 0xd800 ≤ n ∧ n < 0xdc00)
    (h : ∀ a b c d t', t = '\\' :: 'u' :: a :: b :: c :: d :: t' → hex4 a b c d = none) :
    scanString (unicodeEscape n ++ t) = none := by
  simp only [unicodeEscape, List.cons_append, List.nil_append]
  rw [scanString]
  simp only [hex4_hexDigits n (by omega), if_pos hn]
  split
  · rw [h _ _ _ _ _ rfl]
  · rfl

theorem unicodeEscape_torn (hq : GlueTail q) {n : Nat} {p : List Char}
    (hp : Torn p (unicodeEscape n)) (hne : p ≠ []) : scanString (p ++ q) = none := by
  have hbad := fun a b c d t => hex4_of_torn (a := a) (b := b) (c := c) (d := d) (t := t) hq hp
  match p, hne with
  | ['\\'], _ => exact scanString_backslash hq
  | [a], _ =>
    obtain ⟨rfl, -⟩ := hp.cons
    exact scanString_backslash hq
  | a :: b :: p', _ =>
    obtain ⟨rfl, hp'⟩ := hp.cons
    obtain ⟨rfl, -⟩ := hp'.cons
    exact scanString_u_bad _ fun a b c d t' he => hbad a b c d t' (by simpa using he)

/-- An encoded character that is cut before its end ends the scan. -/
theorem encodeChar_torn (hq : GlueTail q) {c : Char} {p : List Char}
    (hp : Torn p (encodeChar c)) (hne : p ≠ []) : scanString (p ++ q) = none := by
  have hc := char_toNat_cases c
  have hshort : ∀ e, Torn p ['\\', e] → scanString (p ++ q) = none := by
    intro e he
    obtain ⟨d, p', rfl⟩ := List.exists_cons_of_ne_nil hne
    obtain ⟨rfl, h'⟩ := he.cons
    rw [h'.singleton]
    exact scanString_backslash hq
  unfold encodeChar at hp
  split_ifs at hp with h1 h2 h3 h4 h5 h6 h7 h8 h9
  iterate 7 exact hshort _ hp
  · exact absurd hp.singleton hne
  · exact unicodeEscape_torn hq hp hne
  · rcases hp.append with hp | ⟨p', rfl, hp'⟩
    · exact unicodeEscape_torn hq hp hne
    · rw [List.append_assoc]
      exact scanString_high_bad _ (by omega) fun a b c d t he => hex4_of_torn hq hp' he

theorem scanString_glue (hq : GlueTail q) {x r : List Char} (h : scanString q = some (x, r)) :
    BadRest r := by
  rcases hq.shape with rfl | ⟨c, r', rfl, hbad⟩
  · simp [scanString] at h
  · rw [scanString_plain _ (by decide) (by decide) (by decide), scanString_quote] at h
    cases h
    exact hbad

/-- A string that is cut before its closing quote is closed, if at all, by a
quote of the text behind the cut. -/
theorem scanString_torn (hq : GlueTail q) : ∀ (cs p : List Char), Torn p (encodeBody cs) →
    ∀ x r, scanString (p ++ q) = some (x, r) → BadRest r
  | [], p, hp, x, r, h => by
      rw [Torn.singleton (c := '"') hp] at h
      exact scanString_glue hq h
  | c :: cs, p, hp, x, r, h => by
      rw [show encodeBody (c :: cs) = encodeChar c ++ encodeBody cs by simp [encodeBody]] at hp
      rcases hp.append with hp | ⟨p', rfl, hp'⟩
      · by_cases hne : p = []
        · subst hne; exact scanString_glue hq h
        · rw [encodeChar_torn hq hp hne] at h; cases h
      · rw [List.append_assoc, scanString_encodeChar] at h
        obtain ⟨y, hy, he⟩ := Option.map_eq_some_iff.mp h
        cases he
        exact scanString_torn hq cs p' hp' _ _ hy

/-! ### Values -/

theorem expect_badRest {c : Char} {r : List Char} (hr : BadRest r)
    (hc : c = ',' ∨ c = ':' ∨ c = '}' ∨ c = ']') : expect c (skipWs r) = none := by
  cases h : skipWs r with
  | nil => rfl
  | cons d t =>
    have hd := hr d (by rw [h]; rfl)
    rw [expect, if_neg]
    rintro rfl
    rcases hc with rfl | rfl | rfl | rfl <;> simp at hd

/-- A cut number or constant is followed by its own characters or by the
text behind the cut. -/
theorem parseAtom_torn (hq : GlueTail q) {t p : List Char} (ht : t.all isAtomChar = true)
    (hp : Torn p t) {w : Json} {r : List Char} (h : parseAtom (p ++ q) = some (w, r)) :
    BadRest r := by
  obtain ⟨s, he, hs, -⟩ := parseAtom_consumes h
  have hpa : p.all isAtomChar = true := by
    obtain ⟨t', rfl⟩ := hp.1
    rw [List.all_append, Bool.and_eq_true] at ht
    exact ht.1
  rcases List.append_eq_append_iff.mp he with ⟨s', rfl, hqs⟩ | ⟨p', rfl, rfl⟩
  · -- the atom reaches into the text behind the cut, which starts with a brace
    cases s' with
    | nil =>
      rw [List.nil_append] at hqs
      exact hqs ▸ hq.badRest
    | cons c s' =>
      rcases hq.shape with hq' | ⟨d, r', hq', -⟩
      · rw [hq'] at hqs; cases hqs
      · rw [hq'] at hqs
        simp only [List.cons_append, List.cons.injEq] at hqs
        rw [List.all_append, List.all_cons, ← hqs.1] at hs
        simp [isAtomChar] at hs
  · cases p' with
    | nil => exact hq.badRest
    | cons c p' =>
      rw [List.all_append, List.all_cons, Bool.and_eq_true, Bool.and_eq_true] at hpa
      exact badRest_atom hpa.2.1

/-- A cut atom as `parseValue` sees it. -/
theorem parseValue_atom_torn (hq : GlueTail q) {t p : List Char} (ht : t.all isAtomChar = true)
    (hp : Torn p t) {fuel : Nat} {w : Json} {r : List Char}
    (h : parseValue fuel (p ++ q) = some (w, r)) : BadRest r := by
  cases p with
  | nil => exact hq.value _ _ _ h
  | cons c p =>
    cases fuel with
    | zero => simp [parseValue] at h
    | succ fuel =>
      obtain ⟨t', rfl⟩ := hp.1
      have hc : isAtomChar c = true := by
        simp only [List.cons_append, List.all_cons, Bool.and_eq_true] at ht
        exact ht.1
      rw [List.cons_append, parseValue_atom _ hc] at h
      exact parseAtom_torn hq ht hp h

/-- Behind a finished element, a cut container has no bracket and no next
element. -/
theorem parseMembers_glue (hq : GlueTail q) (fuel : Nat) : parseMembers fuel q = none := by
  cases fuel with
  | zero => rfl
  | succ fuel =>
    rcases hq.shape with rfl | ⟨c, r, rfl, -⟩ <;> simp [parseMembers, expect]

theorem skipWs_glue (hq : GlueTail q) : skipWs q = q := by
  rcases hq.shape with rfl | ⟨c, r, rfl, -⟩
  · rfl
  · exact skipWs_cons _ (by decide)

theorem parseItems_of_value_bad {fuel : Nat} {s : List Char}
    (h : ∀ fuel w r, parseValue fuel s = some (w, r) → BadRest r) :
    parseItems fuel s = none := by
  cases fuel with
  | zero => rfl
  | succ fuel =>
    simp only [parseItems, Option.bind_eq_bind]
    cases hv : parseValue fuel s with
    | none => rfl
    | some x =>
      obtain ⟨w, r⟩ := x
      have hr := h _ _ _ hv
      simp only [Option.bind_some]
      split
      · rename_i he; exact absurd (hr _ (by rw [he]; rfl)) (by simp)
      · rename_i he; exact absurd (hr _ (by rw [he]; rfl)) (by simp)
      · rfl

theorem skipWs_prefix_dumpsWith (hq : GlueTail q) {v : Json} {p t : List Char}
    (hp : p <+: dumpsWith sp v ++ t) : skipWs (p ++ q) = p ++ q := by
  cases p with
  | nil => exact skipWs_glue hq
  | cons c p =>
    obtain ⟨d, t', h, hw, -⟩ := dumpsWith_head sp v
    rw [h, List.cons_append, List.cons_prefix_cons] at hp
    rw [hp.1, List.cons_append, skipWs_cons _ hw]

theorem parseMembers_of_value_bad {fuel : Nat} {s r0 k r1 r2 : List Char}
    (h0 : expect '"' s = some r0) (h1 : scanString r0 = some (k, r1))
    (h2 : expect ':' (skipWs r1) = some r2)
    (h : ∀ w r, parseValue fuel (skipWs r2) = some (w, r) → BadRest r) :
    parseMembers (fuel + 1) s = none := by
  simp only [parseMembers, Option.bind_eq_bind, h0, h1, h2, Option.bind_some]
  cases hv : parseValue fuel (skipWs r2) with
  | none => rfl
  | some x =>
    obtain ⟨w, r⟩ := x
    have hr := h _ _ hv
    simp only [Option.bind_some]
    split
    · rename_i he; exact absurd (hr _ (by rw [he]; rfl)) (by simp)
    · rename_i he; exact absurd (hr _ (by rw [he]; rfl)) (by simp)
    · rfl

/-- What follows a finished value inside a cut container ends a number. -/
theorem Torn.stop_items (hq : GlueTail q) {xs : List Json} {p : List Char}
    (hp : Torn p (dumpsItemsWith sp false xs)) : Stop (p ++ q) := by
  cases p with
  | nil =>
    rcases hq.shape with rfl | ⟨c, r, rfl, -⟩
    · exact stop_nil
    · exact stop_cons (by decide)
  | cons c p =>
    cases xs with
    | nil => rw [dumpsItemsWith] at hp; exact absurd hp.singleton (by simp)
    | cons x xs =>
      simp only [dumpsItemsWith, separatorWith, Bool.false_eq_true, if_false, List.cons_append] at hp
      rw [hp.cons.1]
      exact stop_cons (by decide)

theorem Torn.stop_pairs (hq : GlueTail q) {kvs : List (String × Json)} {p : List Char}
    (hp : Torn p (dumpsPairsWith sp false kvs)) : Stop (p ++ q) := by
  cases p with
  | nil =>
    rcases hq.shape with rfl | ⟨c, r, rfl, -⟩
    · exact stop_nil
    · exact stop_cons (by decide)
  | cons c p =>
    rcases kvs with _ | ⟨⟨k, v⟩, kvs⟩
    · rw [dumpsPairsWith] at hp; exact absurd hp.singleton (by simp)
    · simp only [dumpsPairsWith, separatorWith, Bool.false_eq_true, if_false, List.cons_append] at hp
      rw [hp.cons.1]
      exact stop_cons (by decide)

theorem dumpsItemsWith_false (x : Json) (xs : List Json) :
    dumpsItemsWith sp false (x :: xs) = ',' :: (gap sp ++ dumpsItemsWith sp true (x :: xs)) := by
  simp [dumpsItemsWith, separatorWith]

theorem dumpsPairsWith_false (kv : String × Json) (kvs : List (String × Json)) :
    dumpsPairsWith sp false (kv :: kvs) = ',' :: (gap sp ++ dumpsPairsWith sp true (kv :: kvs)) := by
  simp [dumpsPairsWith, separatorWith]

theorem skipWs_prefix_items (hq : GlueTail q) {xs : List Json} {p : List Char}
    (hp : p <+: dumpsItemsWith sp true xs) : skipWs (p ++ q) = p ++ q := by
  cases p with
  | nil => exact skipWs_glue hq
  | cons c p =>
    cases xs with
    | nil =>
      rw [dumpsItemsWith, List.cons_prefix_cons] at hp
      rw [hp.1, List.cons_append, skipWs_cons _ (by decide)]
    | cons x xs =>
      rw [dumpsItemsWith, separatorWith, if_pos rfl, List.nil_append] at hp
      exact skipWs_prefix_dumpsWith hq hp

theorem skipWs_prefix_pairs (hq : GlueTail q) {kvs : List (String × Json)} {p : List Char}
    (hp : p <+: dumpsPairsWith sp true kvs) : skipWs (p ++ q) = p ++ q := by
  cases p with
  | nil => exact skipWs_glue hq
  | cons c p =>
    rcases kvs with _ | ⟨⟨k, v⟩, kvs⟩
    · rw [dumpsPairsWith, List.cons_prefix_cons] at hp
      rw [hp.1, List.cons_append, skipWs_cons _ (by decide)]
    · rw [dumpsPairsWith, separatorWith, if_pos rfl, List.nil_append, encodeString, List.cons_append,
        List.cons_prefix_cons] at hp
      rw [hp.1, List.cons_append, skipWs_cons _ (by decide)]

theorem torn_items_ne_bracket (hq : GlueTail q) {xs : List Json} {p : List Char}
    (hp : Torn p (dumpsItemsWith sp true xs)) (r : List Char) : p ++ q ≠ ']' :: r := by
  cases p with
  | nil => rcases hq.shape with rfl | ⟨c, r', rfl, -⟩ <;> simp
  | cons c p =>
    cases xs with
    | nil => rw [dumpsItemsWith] at hp; exact absurd hp.singleton (by simp)
    | cons x xs =>
      obtain ⟨d, t, h, -, hb, -⟩ := dumpsWith_head sp x
      rw [dumpsItemsWith, separatorWith, if_pos rfl, List.nil_append, h, List.cons_append] at hp
      rw [hp.cons.1, List.cons_append]
      simp [hb]

theorem torn_pairs_ne_brace (hq : GlueTail q) {kvs : List (String × Json)} {p : List Char}
    (hp : Torn p (dumpsPairsWith sp true kvs)) (r : List Char) : p ++ q ≠ '}' :: r := by
  cases p with
  | nil => rcases hq.shape with rfl | ⟨c, r', rfl, -⟩ <;> simp
  | cons c p =>
    rcases kvs with _ | ⟨⟨k, v⟩, kvs⟩
    · rw [dumpsPairsWith] at hp; exact absurd hp.singleton (by simp)
    · rw [dumpsPairsWith, separatorWith, if_pos rfl, List.nil_append, encodeString,
        List.cons_append] at hp
      rw [hp.cons.1, List.cons_append]
      simp

/-- Behind a finished element of a cut array stands the cut rest of the
array; `hrest` is what is known of the elements after it. -/
theorem parseItems_after_value (hq : GlueTail q) {x : Json} {xs : List Json} {p : List Char}
    (hp : Torn p (dumpsItemsWith sp false xs))
    (hrest : ∀ p', Torn p' (dumpsItemsWith sp true xs) → ∀ fuel, parseItems fuel (p' ++ q) = none)
    (fuel : Nat) : parseItems fuel (dumpsWith sp x ++ (p ++ q)) = none := by
  cases fuel with
  | zero => rfl
  | succ fuel =>
    simp only [parseItems, Option.bind_eq_bind]
    cases hv : parseValue fuel (dumpsWith sp x ++ (p ++ q)) with
    | none => rfl
    | some y =>
      have hy := parseValue_dumpsWith_eq (hp.stop_items hq) hv
      subst hy
      simp only [Option.bind_some]
      match p, xs, hp with
      | [], _, _ =>
        rw [List.nil_append]
        split
        · rename_i he; exact absurd (hq.badRest _ (by rw [he]; rfl)) (by simp)
        · rename_i he; exact absurd (hq.badRest _ (by rw [he]; rfl)) (by simp)
        · rfl
      | c :: p, [], hp =>
        rw [dumpsItemsWith] at hp
        exact absurd hp.singleton (by simp)
      | c :: p, y :: ys, hp =>
        rw [dumpsItemsWith_false] at hp
        obtain ⟨rfl, hp'⟩ := hp.cons
        simp only [List.cons_append, skipWs_cons _ (show isJsonWs ',' = false from rfl),
          Option.map_eq_none_iff]
        rcases hp'.append with hgap | ⟨p', rfl, hp''⟩
        · rw [skipWs_torn_gap hgap.1, skipWs_glue hq]
          exact parseItems_of_value_bad hq.value
        · rw [List.append_assoc, skipWs_gap, skipWs_prefix_items hq hp''.1]
          exact hrest p' hp'' fuel

theorem parseMembers_after_value (hq : GlueTail q) {k : String} {v : Json}
    {kvs : List (String × Json)} {p : List Char} (hp : Torn p (dumpsPairsWith sp false kvs))
    (hrest : ∀ p', Torn p' (dumpsPairsWith sp true kvs) → ∀ fuel, parseMembers fuel (p' ++ q) = none)
    (fuel : Nat) :
    parseMembers fuel (encodeString k ++ (':' :: (gap sp ++ (dumpsWith sp v ++ (p ++ q))))) = none := by
  cases fuel with
  | zero => rfl
  | succ fuel =>
    simp only [encodeString, List.cons_append, parseMembers, expect, if_true,
      scanString_encodeBody, Option.bind_eq_bind, Option.bind_some, skipWs_gap, skipWs_dumpsWith,
      skipWs_cons _ (show isJsonWs ':' = false from rfl)]
    cases hv : parseValue fuel (dumpsWith sp v ++ (p ++ q)) with
    | none => rfl
    | some y =>
      have hy := parseValue_dumpsWith_eq (hp.stop_pairs hq) hv
      subst hy
      simp only [Option.bind_some]
      match p, kvs, hp with
      | [], _, _ =>
        rw [List.nil_append]
        split
        · rename_i he; exact absurd (hq.badRest _ (by rw [he]; rfl)) (by simp)
        · rename_i he; exact absurd (hq.badRest _ (by rw [he]; rfl)) (by simp)
        · rfl
      | c :: p, [], hp =>
        rw [dumpsPairsWith] at hp
        exact absurd hp.singleton (by simp)
      | c :: p, kv :: kvs', hp =>
        rw [dumpsPairsWith_false] at hp
        obtain ⟨rfl, hp'⟩ := hp.cons
        simp only [List.cons_append, skipWs_cons _ (show isJsonWs ',' = false from rfl),
          Option.map_eq_none_iff]
        rcases hp'.append with hgap | ⟨p', rfl, hp''⟩
        · rw [skipWs_torn_gap hgap.1, skipWs_glue hq]
          exact parseMembers_glue hq fuel
        · rw [List.append_assoc, skipWs_gap, skipWs_prefix_pairs hq hp''.1]
          exact hrest p' hp'' fuel

/-- A member that is cut inside its key or before its value. -/
theorem parseMembers_torn_key (hq : GlueTail q) {k : String} {p : List Char}
    (hp : Torn p (encodeString k)) (fuel : Nat) : parseMembers fuel (p ++ q) = none := by
  match p, fuel, hp with
  | [], fuel, _ => exact parseMembers_glue hq fuel
  | _ :: _, 0, _ => rfl
  | c :: p, fuel + 1, hp =>
    rw [encodeString] at hp
    obtain ⟨rfl, hp'⟩ := hp.cons
    have h0 : expect '"' ('"' :: (p ++ q)) = some (p ++ q) := by simp [expect]
    simp only [List.cons_append, parseMembers, h0, Option.bind_eq_bind, Option.bind_some]
    cases hs : scanString (p ++ q) with
    | none => rfl
    | some x =>
      have hx := expect_badRest (c := ':') (scanString_torn hq _ _ hp' _ _ hs) (by simp)
      simp only [Option.bind_some, hx, Option.bind_none]

mutual
/-- A parse that runs over the end of a cut encoding fails or stops badly. -/
theorem parseValue_torn (hq : GlueTail q) : ∀ (v : Json) {p : List Char}, Torn p (dumpsWith sp v) →
    ∀ fuel w r, parseValue fuel (p ++ q) = some (w, r) → BadRest r
  | _, [], _, fuel, w, r, h => hq.value fuel w r h
  | _, _ :: _, _, 0, _, _, h => by simp [parseValue] at h
  | .null, c :: p, hp, fuel + 1, w, r, h => by
      rw [dumpsWith] at hp
      exact parseValue_atom_torn hq (by decide) hp h
  | .bool b, c :: p, hp, fuel + 1, w, r, h => by
      rw [dumpsWith] at hp
      exact parseValue_atom_torn hq (by cases b <;> decide) hp h
  | .int n, c :: p, hp, fuel + 1, w, r, h => by
      obtain ⟨t, he, ht, -⟩ := parseAtom_consumes (parseAtom_intText n [] stop_nil)
      rw [List.append_nil, List.append_nil] at he
      exact parseValue_atom_torn hq ht (he ▸ hp) h
  | .float x, c :: p, hp, fuel + 1, w, r, h => by
      obtain ⟨t, he, ht, -⟩ := parseAtom_consumes (parseAtom_float x [] stop_nil)
      rw [List.append_nil, List.append_nil] at he
      exact parseValue_atom_torn hq ht (he ▸ hp) h
  | .str s, c :: p, hp, fuel + 1, w, r, h => by
      obtain ⟨rfl, hp'⟩ := Torn.cons (show Torn (c :: p) ('"' :: encodeBody s.toList) from hp)
      simp only [List.cons_append, parseValue, Option.map_eq_some_iff] at h
      obtain ⟨x, hx, he⟩ := h
      cases he
      exact scanString_torn hq _ _ hp' _ _ hx
  | .arr xs, c :: p, hp, fuel + 1, w, r, h => by
      rw [dumpsWith] at hp
      obtain ⟨rfl, hp'⟩ := hp.cons
      rw [List.cons_append, parseValue, skipWs_prefix_items hq hp'.1] at h
      split at h
      · rename_i he
        exact absurd he (torn_items_ne_bracket hq hp' _)
      · rw [parseItems_torn hq xs hp' fuel] at h; cases h
  | .obj kvs, c :: p, hp, fuel + 1, w, r, h => by
      rw [dumpsWith] at hp
      obtain ⟨rfl, hp'⟩ := hp.cons
      rw [List.cons_append, parseValue, skipWs_prefix_pairs hq hp'.1] at h
      split at h
      · rename_i he
        exact absurd he (torn_pairs_ne_brace hq hp' _)
      · rw [parseMembers_torn hq kvs hp' fuel] at h; cases h
theorem parseItems_torn (hq : GlueTail q) : ∀ (xs : List Json) {p : List Char},
    Torn p (dumpsItemsWith sp true xs) → ∀ fuel, parseItems fuel (p ++ q) = none
  | [], p, hp, fuel => by
      rw [dumpsItemsWith] at hp
      rw [hp.singleton]
      exact parseItems_of_value_bad hq.value
  | x :: xs, p, hp, fuel => by
      rw [dumpsItemsWith, separatorWith, if_pos rfl, List.nil_append] at hp
      rcases hp.append with hp | ⟨p', rfl, hp'⟩
      · exact parseItems_of_value_bad (parseValue_torn hq x hp)
      · rw [List.append_assoc]
        exact parseItems_after_value hq hp' (fun p'' h => parseItems_torn hq xs h) fuel
theorem parseMembers_torn (hq : GlueTail q) : ∀ (kvs : List (String × Json)) {p : List Char},
    Torn p (dumpsPairsWith sp true kvs) → ∀ fuel, parseMembers fuel (p ++ q) = none
  | [], p, hp, fuel => by
      rw [dumpsPairsWith] at hp
      rw [hp.singleton]
      exact parseMembers_glue hq fuel
  | (k, v) :: kvs, p, hp, fuel => by
      rw [dumpsPairsWith, separatorWith, if_pos rfl, List.nil_append] at hp
      rcases hp.append with hp | ⟨p1, rfl, hp1⟩
      · exact parseMembers_torn_key hq hp fuel
      rw [List.append_assoc]
      have h0 : ∀ t, expect '"' (encodeString k ++ t) = some (encodeBody k.toList ++ t) := by
        intro t; simp [encodeString, expect]
      match p1, fuel, hp1 with
      | _, 0, _ => rfl
      | [], fuel + 1, _ =>
        -- cut behind the key
        have hx := expect_badRest (c := ':') hq.badRest (by simp)
        simp only [parseMembers, h0, scanString_encodeBody, Option.bind_eq_bind,
          Option.bind_some, List.nil_append, hx, Option.bind_none]
      | c :: p2, fuel + 1, hp1 =>
        obtain ⟨rfl, hp2⟩ := hp1.cons
        have h2 : ∀ t, expect ':' (skipWs (':' :: t)) = some t := by
          intro t; rw [skipWs_cons _ (by decide)]; simp [expect]
        rcases hp2.append with hgap | ⟨p3, rfl, hp3⟩
        · refine parseMembers_of_value_bad (h0 _) (scanString_encodeBody _ _) (h2 _) ?_
          change ∀ w r, parseValue fuel (skipWs (p2 ++ q)) = some (w, r) → BadRest r
          rw [skipWs_torn_gap hgap.1, skipWs_glue hq]
          exact hq.value _
        · rcases hp3.append with hp3 | ⟨p4, rfl, hp4⟩
          · refine parseMembers_of_value_bad (h0 _) (scanString_encodeBody _ _) (h2 _) ?_
            change ∀ w r, parseValue fuel (skipWs (gap sp ++ p3 ++ q)) = some (w, r) → BadRest r
            rw [List.append_assoc, skipWs_gap,
              skipWs_prefix_dumpsWith (t := []) hq (by simpa using hp3.1)]
            exact parseValue_torn hq v hp3 _
          · simp only [List.cons_append, List.append_assoc]
            exact parseMembers_after_value hq hp4 (fun p'' h => parseMembers_torn hq kvs h)
              (fuel + 1)
end

end Glued

/-! ### What a log can rely on -/

/-- The object's first key starts with a letter, as every record's does. -/
def WordKeyed : Json → Prop
  | .obj ((k, _) :: _) => ∃ c cs, k.toList = c :: cs ∧ c.isAlpha = true
  | _ => False

/-- A complete record is a possible tail behind a cut one. -/
theorem glueTail_dumpsWith {v : Json} (hv : WordKeyed v) : GlueTail (dumpsWith sp v) := by
  match v, hv with
  | .obj ((k, w) :: kvs), ⟨c, cs, hk, hc⟩ =>
    refine ⟨Or.inr ?_, fun fuel w' r h => ?_⟩
    · have hplain : encodeChar c = [c] := by
        have ha : isAtomChar c = true := by simp [isAtomChar, hc]
        have hp := isPlain_of_isAtomChar ha
        simp only [isPlain, decide_eq_true_eq] at hp
        have hne : ∀ d : Char, d.isAlpha = false → c ≠ d := by
          rintro d hd rfl; rw [hd] at hc; cases hc
        simp [encodeChar, hp, hne '"' (by decide), hne '\\' (by decide), hne '\n' (by decide),
          hne '\r' (by decide), hne '\t' (by decide), hne '\x08' (by decide),
          hne '\x0c' (by decide)]
      refine ⟨c, cs.flatMap encodeChar ++ ('"' :: ':' :: (gap sp ++
        (dumpsWith sp w ++ dumpsPairsWith sp false kvs))),
        ?_, badRest_atom (by simp [isAtomChar, hc])⟩
      simp [dumpsWith, dumpsPairsWith, separatorWith, encodeString, encodeBody, hk, hplain]
    · have he : parseValue fuel (dumpsWith sp (.obj ((k, w) :: kvs)) ++ []) = some (w', r) := by
        rwa [List.append_nil]
      have := parseValue_dumpsWith_eq stop_nil he
      simp only [Prod.mk.injEq] at this
      rw [this.2]
      exact badRest_nil

/-- A cut object is not parsed, whatever stands behind the cut. -/
theorem parseValue_obj_torn {q : List Char} (hq : GlueTail q) {kvs : List (String × Json)}
    {p : List Char} (hp : Torn p (dumpsWith sp (.obj kvs))) (hne : p ≠ []) (fuel : Nat) :
    parseValue fuel (p ++ q) = none := by
  obtain ⟨c, p', rfl⟩ := List.exists_cons_of_ne_nil hne
  rw [dumpsWith] at hp
  obtain ⟨rfl, hp'⟩ := hp.cons
  cases fuel with
  | zero => rfl
  | succ fuel =>
    rw [List.cons_append, parseValue, skipWs_prefix_pairs hq hp'.1]
    split
    · rename_i he
      exact absurd he (torn_pairs_ne_brace hq hp' _)
    · rw [parseMembers_torn hq kvs hp' fuel]; rfl

theorem skipWs_prefix_obj {kvs : List (String × Json)} {p : List Char} (q : List Char)
    (hp : p <+: dumpsWith sp (.obj kvs)) (hne : p ≠ []) : skipWs (p ++ q) = p ++ q := by
  obtain ⟨c, p', rfl⟩ := List.exists_cons_of_ne_nil hne
  rw [dumpsWith, List.cons_prefix_cons] at hp
  rw [hp.1, List.cons_append, skipWs_cons _ (by decide)]

/-- **Torn record**: a proper non-empty prefix of an encoded object does not
decode. -/
theorem loads_dumpsWith_torn {kvs : List (String × Json)} {p : List Char}
    (hp : Torn p (dumpsWith sp (.obj kvs))) (hne : p ≠ []) : loads p = none := by
  have hw := skipWs_prefix_obj [] hp.1 hne
  have hv := parseValue_obj_torn glueTail_nil hp hne (p.length + 1)
  rw [List.append_nil] at hw hv
  simp [loads, hw, hv]

/-- **Glued record**: a non-empty prefix of an encoded object, the whole of
it included, does not decode with another record written behind it. -/
theorem loads_dumpsWith_glued {kvs : List (String × Json)} {v : Json} {p : List Char}
    (hp : p <+: dumpsWith sp (.obj kvs)) (hne : p ≠ []) (hv : WordKeyed v) :
    loads (p ++ dumpsWith sp v) = none := by
  have hq : GlueTail (dumpsWith sp v) := glueTail_dumpsWith hv
  by_cases hfull : p = dumpsWith sp (.obj kvs)
  · -- the first record is whole: the second one is extra data
    have hnil : dumpsWith sp v ≠ [] := by obtain ⟨d, t, h, -⟩ := dumpsWith_head sp v; simp [h]
    have hstop : Stop (dumpsWith sp v) := by
      rcases hq.shape with h | ⟨d, r, h, -⟩
      · exact absurd h hnil
      · rw [h]; exact stop_cons (by decide)
    subst hfull
    have hparse := parseValue_dumpsWith sp (.obj kvs) ((dumpsWith sp (.obj kvs) ++ dumpsWith sp v).length + 1) (dumpsWith sp v)
      (by rw [List.length_append]; omega) hstop
    simp only [loads, skipWs_dumpsWith, hparse, skipWs_glue hq, hnil, if_false]
  · have hparse := parseValue_obj_torn hq ⟨hp, hfull⟩ hne ((p ++ dumpsWith sp v).length + 1)
    simp only [loads, skipWs_prefix_obj _ hp hne, hparse]

/-! ## 8. The default and the compact separators -/

mutual
theorem dumpsWith_true : ∀ v : Json, dumpsWith true v = dumps v
  | .null | .bool _ | .int _ | .float _ | .str _ => by simp only [dumpsWith, dumps]
  | .arr xs => by rw [dumpsWith, dumps, dumpsItemsWith_true true xs]
  | .obj kvs => by rw [dumpsWith, dumps, dumpsPairsWith_true true kvs]
theorem dumpsItemsWith_true : ∀ (first : Bool) (xs : List Json),
    dumpsItemsWith true first xs = dumpsItems first xs
  | _, [] => by rw [dumpsItemsWith, dumpsItems]
  | first, x :: xs => by
      rw [dumpsItemsWith, dumpsItems, dumpsWith_true x, dumpsItemsWith_true false xs]
      cases first <;> rfl
theorem dumpsPairsWith_true : ∀ (first : Bool) (kvs : List (String × Json)),
    dumpsPairsWith true first kvs = dumpsPairs first kvs
  | _, [] => by rw [dumpsPairsWith, dumpsPairs]
  | first, (k, v) :: kvs => by
      rw [dumpsPairsWith, dumpsPairs, dumpsWith_true v, dumpsPairsWith_true false kvs]
      cases first <;> rfl
end

theorem loads_dumps (v : Json) : loads (dumps v) = some v := by
  rw [← dumpsWith_true, loads_dumpsWith]

theorem dumps_isPlain (v : Json) : (dumps v).all isPlain = true := by
  rw [← dumpsWith_true, dumpsWith_isPlain]

theorem loads_torn {kvs : List (String × Json)} {p : List Char}
    (hp : Torn p (dumps (.obj kvs))) (hne : p ≠ []) : loads p = none := by
  rw [← dumpsWith_true] at hp
  exact loads_dumpsWith_torn hp hne

theorem loads_glued {kvs : List (String × Json)} {v : Json} {p : List Char}
    (hp : p <+: dumps (.obj kvs)) (hne : p ≠ []) (hv : WordKeyed v) :
    loads (p ++ dumps v) = none := by
  rw [← dumpsWith_true] at hp ⊢
  exact loads_dumpsWith_glued hp hne hv

theorem loads_compactDumps (v : Json) : loads (compactDumps v) = some v := loads_dumpsWith false v

theorem compactDumps_isPlain (v : Json) : (compactDumps v).all isPlain = true :=
  dumpsWith_isPlain false v

end Python
