/-
Agenthicc.Python.JsonLines — text files of one JSON value a line.

`fileLines` is iterating over a file opened in text mode (universal
newlines), `decodeLine` the strip / skip-blank / `json.loads` prologue that
every reader of such a file starts its loop with, and `jsonLine` what one
`json.dumps(record) + "\n"` appends.

The theorems say what a reader meets in a file that such appends produced:
`decodeLines_jsonLines` for a whole file, `decodeLines_torn` when the last
append was cut, `decodeLines_glued` when another record was appended behind
the cut, and `prefix_jsonLines` that nothing else can come of cutting a file.
-/
import Agenthicc.Python.JsonTheorems
import Mathlib.Data.List.DropRight

namespace Python

/-! ## 1. Files and lines -/

/-- The characters `str.strip()` removes. -/
def isSpace (c : Char) : Bool :=
  (9 ≤ c.toNat && c.toNat ≤ 13) || (28 ≤ c.toNat && c.toNat ≤ 32) || c.toNat == 0x85
    || c.toNat == 0xa0 || c.toNat == 0x1680 || (0x2000 ≤ c.toNat && c.toNat ≤ 0x200a)
    || c.toNat == 0x2028 || c.toNat == 0x2029 || c.toNat == 0x202f || c.toNat == 0x205f
    || c.toNat == 0x3000

/-- `line.strip()`. -/
def strip (s : List Char) : List Char := (s.dropWhile isSpace).rdropWhile isSpace

/-- Reading in text mode: `\r\n` and a lone `\r` become `\n`. -/
def universalNewlines : List Char → List Char
  | [] => []
  | '\r' :: '\n' :: rest => '\n' :: universalNewlines rest
  | c :: rest => (if c = '\r' then '\n' else c) :: universalNewlines rest

/-- The lines of a text, each with its line break; the last one may lack it. -/
def splitLines : List Char → List (List Char)
  | [] => []
  | c :: rest =>
      if c = '\n' then ['\n'] :: splitLines rest
      else
        match splitLines rest with
        | [] => [[c]]
        | line :: lines => (c :: line) :: lines

/-- Iterating over an open text file. -/
def fileLines (text : List Char) : List (List Char) := splitLines (universalNewlines text)

/-- What a reader makes of one line. -/
inductive Line where
  | blank
  | corrupt
  | entry (v : Json)
  deriving DecidableEq

/-- `line = raw.strip(); if not line: …; json.loads(line)`. -/
def decodeLine (raw : List Char) : Line :=
  match strip raw with
  | [] => .blank
  | line =>
      match loads line with
      | some v => .entry v
      | none => .corrupt

def decodeLines (text : List Char) : List Line := (fileLines text).map decodeLine

/-- `json.dumps(record) + "\n"`. -/
def jsonLine (v : Json) : List Char := dumps v ++ ['\n']

/-- The records one after the other. -/
def jsonLines (vs : List Json) : List Char := vs.flatMap jsonLine

@[simp] theorem jsonLines_nil : jsonLines [] = [] := rfl

@[simp] theorem jsonLines_append (vs ws : List Json) :
    jsonLines (vs ++ ws) = jsonLines vs ++ jsonLines ws := List.flatMap_append

@[simp] theorem jsonLines_cons (v : Json) (vs : List Json) :
    jsonLines (v :: vs) = jsonLine v ++ jsonLines vs := List.flatMap_cons

/-! ## 2. Plain text splits at its line breaks only -/

theorem isPlain_ne {c : Char} (h : isPlain c = true) : c ≠ '\n' ∧ c ≠ '\r' := by
  constructor <;> rintro rfl <;> exact absurd h (by decide)

theorem universalNewlines_plain : ∀ (t rest : List Char), t.all isPlain = true →
    universalNewlines (t ++ '\n' :: rest) = t ++ '\n' :: universalNewlines rest
  | [], rest, _ => by simp [universalNewlines]
  | c :: t, rest, h => by
      rw [List.all_cons, Bool.and_eq_true] at h
      have hne := (isPlain_ne h.1).2
      rw [List.cons_append, universalNewlines, if_neg hne, universalNewlines_plain t rest h.2]
      · rfl
      · rintro _ rfl; exact absurd rfl hne

theorem universalNewlines_plain_end : ∀ t : List Char, t.all isPlain = true →
    universalNewlines t = t
  | [], _ => rfl
  | c :: t, h => by
      rw [List.all_cons, Bool.and_eq_true] at h
      have hne := (isPlain_ne h.1).2
      rw [universalNewlines, if_neg hne, universalNewlines_plain_end t h.2]
      rintro _ rfl; exact absurd rfl hne

theorem splitLines_plain : ∀ (t rest : List Char), t.all isPlain = true →
    splitLines (t ++ '\n' :: rest) = (t ++ ['\n']) :: splitLines rest
  | [], rest, _ => by simp [splitLines]
  | c :: t, rest, h => by
      rw [List.all_cons, Bool.and_eq_true] at h
      rw [List.cons_append, splitLines, if_neg (isPlain_ne h.1).1, splitLines_plain t rest h.2]
      rfl

theorem splitLines_plain_end : ∀ t : List Char, t.all isPlain = true → t ≠ [] →
    splitLines t = [t]
  | [], _, hne => absurd rfl hne
  | [c], h, _ => by
      rw [List.all_cons, Bool.and_eq_true] at h
      simp [splitLines, (isPlain_ne h.1).1]
  | c :: d :: t, h, _ => by
      rw [List.all_cons, Bool.and_eq_true] at h
      rw [splitLines, if_neg (isPlain_ne h.1).1, splitLines_plain_end (d :: t) h.2 (by simp)]

theorem fileLines_plain {t : List Char} (rest : List Char) (h : t.all isPlain = true) :
    fileLines (t ++ '\n' :: rest) = (t ++ ['\n']) :: fileLines rest := by
  rw [fileLines, universalNewlines_plain t rest h, splitLines_plain t _ h, fileLines]

theorem fileLines_plain_end {t : List Char} (h : t.all isPlain = true) :
    fileLines t = if t = [] then [] else [t] := by
  rw [fileLines, universalNewlines_plain_end t h]
  split
  · rename_i he; subst he; rfl
  · rename_i he; exact splitLines_plain_end t h he

/-! ## 3. Records -/

theorem dumpsPairs_last (first : Bool) (kvs : List (String × Json)) : ∃ t, dumpsPairs first kvs = t ++ ['}'] := by
  induction kvs generalizing first with
  | nil => exact ⟨[], by simp [dumpsPairs]⟩
  | cons p kvs ih =>
      obtain ⟨k, v⟩ := p
      obtain ⟨t, h⟩ := ih false
      exact ⟨separator first ++ (encodeString k ++ (':' :: ' ' :: (dumps v ++ t))),
        by simp [dumpsPairs, h]⟩

theorem dumps_obj_last (kvs : List (String × Json)) : ∃ t, dumps (.obj kvs) = t ++ ['}'] := by
  obtain ⟨t, h⟩ := dumpsPairs_last true kvs
  exact ⟨'{' :: t, by simp [dumps, h]⟩

/-- A text between a brace and a brace loses only the line break. -/
theorem strip_braced (t : List Char) :
    strip ('{' :: (t ++ ['}', '\n'])) = '{' :: (t ++ ['}']) := by
  rw [strip, List.dropWhile_cons_of_neg (by decide)]
  rw [show '{' :: (t ++ ['}', '\n']) = ('{' :: (t ++ ['}'])) ++ ['\n'] by simp,
    List.rdropWhile_concat_pos _ _ _ (by decide),
    show '{' :: (t ++ ['}']) = ('{' :: t) ++ ['}'] by simp,
    List.rdropWhile_concat_neg _ _ _ (by decide)]

/-- Stripping a text that starts with a brace keeps a prefix that starts with
it. -/
theorem strip_brace_prefix (t : List Char) :
    strip ('{' :: t) <+: '{' :: t ∧ strip ('{' :: t) ≠ [] := by
  rw [strip, List.dropWhile_cons_of_neg (by decide)]
  refine ⟨List.rdropWhile_prefix _ _, fun h => ?_⟩
  rw [List.rdropWhile_eq_nil_iff] at h
  exact absurd (h '{' (by simp)) (by decide)

theorem decodeLine_jsonLine (kvs : List (String × Json)) :
    decodeLine (jsonLine (.obj kvs)) = .entry (.obj kvs) := by
  obtain ⟨t, h⟩ := dumpsPairs_last true kvs
  have hd : dumps (.obj kvs) = '{' :: (t ++ ['}']) := by rw [dumps, h]
  have hs : strip (jsonLine (.obj kvs)) = '{' :: (t ++ ['}']) := by
    rw [jsonLine, hd, show '{' :: (t ++ ['}']) ++ ['\n'] = '{' :: (t ++ ['}', '\n']) by simp,
      strip_braced]
  rw [decodeLine, hs]
  simp only [← hd, loads_dumps]

/-- A value that is written as a record. -/
def IsRecord (v : Json) : Prop := ∃ kvs, v = .obj kvs

theorem IsRecord.of_wordKeyed {v : Json} (h : WordKeyed v) : IsRecord v := by
  match v, h with
  | .obj kvs, _ => exact ⟨kvs, rfl⟩

theorem decodeLines_cons (kvs : List (String × Json)) (rest : List Char) :
    decodeLines (jsonLine (.obj kvs) ++ rest) = .entry (.obj kvs) :: decodeLines rest := by
  have h := fileLines_plain rest (dumps_isPlain (.obj kvs))
  rw [decodeLines, jsonLine, List.append_assoc, List.cons_append, List.nil_append, h,
    List.map_cons, ← jsonLine, decodeLine_jsonLine, decodeLines]

/-- **Whole records** are read back, in order, in front of anything. -/
theorem decodeLines_jsonLines : ∀ (vs : List Json) (rest : List Char), (∀ v ∈ vs, IsRecord v) →
    decodeLines (jsonLines vs ++ rest) = vs.map .entry ++ decodeLines rest
  | [], _, _ => rfl
  | v :: vs, rest, h => by
      obtain ⟨kvs, rfl⟩ := h v (by simp)
      rw [jsonLines_cons, List.append_assoc, decodeLines_cons,
        decodeLines_jsonLines vs rest fun w hw => h w (by simp [hw])]
      rfl

/-- A cut inside a record's line leaves a prefix of its encoding. -/
theorem Torn.prefix_dumps {p : List Char} {v : Json} (h : Torn p (jsonLine v)) :
    p <+: dumps v := by
  rcases Torn.append h with h | ⟨p', rfl, h'⟩
  · exact h.1
  · obtain rfl := h'.singleton
    exact List.append_nil _ ▸ List.prefix_refl _

theorem prefix_all {p t : List Char} (h : p <+: t) (ht : t.all isPlain = true) :
    p.all isPlain = true := by
  obtain ⟨s, rfl⟩ := h
  rw [List.all_append, Bool.and_eq_true] at ht
  exact ht.1

/-- **A torn append** is one undecodable line, or the record when only its
line break is missing, or nothing. -/
theorem decodeLines_torn {p : List Char} {v : Json} (hv : IsRecord v) (h : Torn p (jsonLine v)) :
    decodeLines p = if p = [] then [] else if p = dumps v then [.entry v] else [.corrupt] := by
  obtain ⟨kvs, rfl⟩ := hv
  have hp := h.prefix_dumps
  rw [decodeLines, fileLines_plain_end (prefix_all hp (dumps_isPlain _))]
  by_cases hnil : p = []
  · simp [hnil]
  obtain ⟨c, p', rfl⟩ := List.exists_cons_of_ne_nil hnil
  have hc : c = '{' := by rw [dumps, List.cons_prefix_cons] at hp; exact hp.1
  subst hc
  simp only [hnil, if_false, List.map_cons, List.map_nil]
  by_cases hfull : '{' :: p' = dumps (.obj kvs)
  · obtain ⟨t, ht⟩ := dumpsPairs_last true kvs
    have hs : strip ('{' :: p') = '{' :: p' := by
      rw [hfull, dumps, ht, strip, List.dropWhile_cons_of_neg (by decide), ← List.cons_append,
        List.rdropWhile_concat_neg _ _ _ (by decide)]
    rw [if_pos hfull, decodeLine, hs]
    simp only [hfull, loads_dumps]
  · obtain ⟨hpre, hne⟩ := strip_brace_prefix p'
    have htorn : Torn (strip ('{' :: p')) (dumps (.obj kvs)) := by
      refine ⟨hpre.trans hp, fun he => hfull ?_⟩
      exact List.IsPrefix.eq_of_length_le hp (he ▸ hpre.length_le)
    have hl := loads_torn htorn hne
    rw [if_neg hfull, decodeLine]
    split
    · rename_i he; exact absurd he hne
    · rw [hl]

/-- **A glued append**: behind a cut record the next one is lost with it. -/
theorem decodeLines_glued (rest : List Char) {p : List Char} {v w : Json} (hv : IsRecord v)
    (h : Torn p (jsonLine v)) (hne : p ≠ []) (hw : WordKeyed w) :
    decodeLines (p ++ (jsonLine w ++ rest)) = .corrupt :: decodeLines rest := by
  obtain ⟨kvs, rfl⟩ := hv
  obtain ⟨kws, rfl⟩ := IsRecord.of_wordKeyed hw
  have hp := h.prefix_dumps
  have hplain : (p ++ dumps (.obj kws)).all isPlain = true := by
    rw [List.all_append, prefix_all hp (dumps_isPlain _), dumps_isPlain]; rfl
  have hl := loads_glued hp hne hw
  have hlines := fileLines_plain rest hplain
  obtain ⟨t, ht⟩ := dumps_obj_last kws
  obtain ⟨c, p', rfl⟩ := List.exists_cons_of_ne_nil hne
  have hc : c = '{' := by rw [dumps, List.cons_prefix_cons] at hp; exact hp.1
  subst hc
  have hs : strip ('{' :: p' ++ dumps (.obj kws) ++ ['\n']) = '{' :: p' ++ dumps (.obj kws) := by
    rw [ht, show '{' :: p' ++ (t ++ ['}']) ++ ['\n'] = '{' :: ((p' ++ t) ++ ['}', '\n']) by simp,
      strip_braced]
    simp
  have hd : decodeLine ('{' :: p' ++ dumps (.obj kws) ++ ['\n']) = .corrupt := by
    rw [decodeLine, hs]
    simp only [List.cons_append] at hl ⊢
    rw [hl]
  rw [decodeLines, show '{' :: p' ++ (jsonLine (.obj kws) ++ rest)
      = '{' :: p' ++ dumps (.obj kws) ++ '\n' :: rest by simp [jsonLine], hlines, List.map_cons,
    hd, decodeLines]

/-- **Cutting a file** of records leaves the whole file, or whole records and
a cut one. -/
theorem prefix_jsonLines : ∀ (vs : List Json) {p : List Char}, p <+: jsonLines vs →
    p = jsonLines vs ∨ ∃ pre v post q, vs = pre ++ v :: post ∧ p = jsonLines pre ++ q
      ∧ Torn q (jsonLine v)
  | [], p, h => Or.inl (List.prefix_nil.mp h)
  | v :: vs, p, h => by
      by_cases he : p = jsonLines (v :: vs)
      · exact Or.inl he
      · have ht : Torn p (jsonLine v ++ jsonLines vs) := ⟨by rwa [← jsonLines_cons],
          fun he' => he (by rw [he', jsonLines_cons])⟩
        rcases ht.append with ht | ⟨p', rfl, hp'⟩
        · exact Or.inr ⟨[], v, vs, p, rfl, rfl, ht⟩
        · rcases prefix_jsonLines vs hp'.1 with rfl | ⟨pre, w, post, q, rfl, rfl, hq⟩
          · exact absurd rfl hp'.2
          · exact Or.inr ⟨v :: pre, w, post, q, rfl, by simp, hq⟩

/-! ## 4. Texts of whole lines -/

/-- A text that does not end inside a line. -/
def WholeLines (t : List Char) : Prop := t = [] ∨ ∃ a, t = a ++ ['\n']

/-- The third rule of `universalNewlines`, away from `\r\n`. -/
theorem universalNewlines_step (c d : Char) (t : List Char) (h : ¬ (c = '\r' ∧ d = '\n')) :
    universalNewlines (c :: d :: t)
      = (if c = '\r' then '\n' else c) :: universalNewlines (d :: t) := by
  rw [universalNewlines]
  rintro rest rfl hr
  exact h ⟨rfl, (List.cons.inj hr).1⟩

theorem universalNewlines_newline : ∀ a : List Char, ∃ u, ∀ b,
    universalNewlines (a ++ '\n' :: b) = u ++ '\n' :: universalNewlines b
  | [] => ⟨[], fun b => by simp [universalNewlines]⟩
  | [c] => by
      by_cases hc : c = '\r'
      · subst hc
        exact ⟨[], fun b => by simp [universalNewlines]⟩
      · refine ⟨[c], fun b => ?_⟩
        rw [List.singleton_append, universalNewlines_step c '\n' b fun h => hc h.1, if_neg hc]
        simp [universalNewlines]
  | c :: d :: a => by
      by_cases hcd : c = '\r' ∧ d = '\n'
      · obtain ⟨rfl, rfl⟩ := hcd
        obtain ⟨u, hu⟩ := universalNewlines_newline a
        exact ⟨'\n' :: u, fun b => by
          rw [List.cons_append, List.cons_append, universalNewlines, hu, List.cons_append]⟩
      · obtain ⟨u, hu⟩ := universalNewlines_newline (d :: a)
        refine ⟨(if c = '\r' then '\n' else c) :: u, fun b => ?_⟩
        rw [List.cons_append, List.cons_append, universalNewlines_step c d _ hcd,
          ← List.cons_append, hu, List.cons_append]

theorem splitLines_newline : ∀ u v : List Char,
    splitLines (u ++ '\n' :: v) = splitLines (u ++ ['\n']) ++ splitLines v
  | [], v => by simp [splitLines]
  | c :: u, v => by
      simp only [List.cons_append, splitLines, splitLines_newline u v]
      split
      · rfl
      · cases h : splitLines (u ++ ['\n']) with
        | nil =>
            -- a text that is not empty has a line
            cases u <;> simp only [List.nil_append, List.cons_append, splitLines] at h
            · cases h
            · split at h
              · cases h
              · split at h <;> cases h
        | cons line lines => rfl

/-- A reader meets the lines of a whole text and then those behind it. -/
theorem fileLines_wholeLines {t : List Char} (rest : List Char) (h : WholeLines t) :
    fileLines (t ++ rest) = fileLines t ++ fileLines rest := by
  rcases h with rfl | ⟨a, rfl⟩
  · rfl
  · obtain ⟨u, hu⟩ := universalNewlines_newline a
    have hrest := hu rest
    have hnil := hu []
    rw [fileLines, List.append_assoc, List.singleton_append, hrest, splitLines_newline]
    rw [fileLines, hnil]
    rfl

theorem decodeLines_wholeLines {t : List Char} (rest : List Char) (h : WholeLines t) :
    decodeLines (t ++ rest) = decodeLines t ++ decodeLines rest := by
  rw [decodeLines, fileLines_wholeLines rest h, List.map_append]
  rfl

theorem wholeLines_jsonLines : ∀ vs : List Json, WholeLines (jsonLines vs)
  | [] => Or.inl rfl
  | v :: vs => by
      rcases wholeLines_jsonLines vs with h | ⟨a, h⟩
      · exact Or.inr ⟨dumps v, by rw [jsonLines_cons, h, List.append_nil, jsonLine]⟩
      · exact Or.inr ⟨jsonLine v ++ a, by rw [jsonLines_cons, h, List.append_assoc]⟩

theorem Torn.not_wholeLines {q t : List Char} {v : Json} (h : Torn q (jsonLine v)) (hne : q ≠ []) :
    ¬ WholeLines (t ++ q) := by
  rintro (hw | ⟨a, ha⟩)
  · exact hne (List.append_eq_nil_iff.mp hw).2
  · obtain ⟨q', c, rfl⟩ := (List.eq_nil_or_concat q).resolve_left hne
    have hc : c = '\n' := by simpa using congrArg List.getLast? ha
    have hplain := prefix_all h.prefix_dumps (dumps_isPlain v)
    rw [hc, List.all_eq_true] at hplain
    exact absurd (hplain '\n' (by simp)) (by decide)

/-- A prefix of records that is whole lines is some of the records. -/
theorem prefix_jsonLines_whole {vs : List Json} {cut : List Char} (hcut : cut <+: jsonLines vs)
    (hwhole : WholeLines cut) : ∃ k, cut = jsonLines (vs.take k) := by
  rcases prefix_jsonLines vs hcut with rfl | ⟨pre, v, post, q, rfl, rfl, hq⟩
  · exact ⟨vs.length, by rw [List.take_length]⟩
  · by_cases hnil : q = []
    · exact ⟨pre.length, by simp [hnil]⟩
    · exact absurd hwhole (hq.not_wholeLines hnil)

theorem WholeLines.append {s t : List Char} (hs : WholeLines s) (ht : WholeLines t) :
    WholeLines (s ++ t) := by
  rcases ht with rfl | ⟨a, rfl⟩
  · rwa [List.append_nil]
  · exact Or.inr ⟨s ++ a, by rw [List.append_assoc]⟩

end Python
