/-
Agenthicc.Tools.PatchFileTheorems — when a patch changes nothing but what it
was asked to.

A bare line feed is one without a carriage return before it. Between the
pieces of a text the replacement may make a line feed bare; `keepsCrlf` says
when it does not. With the round trip of the encodings this gives the exact
condition for an exact edit.
-/
import Agenthicc.Tools.PatchFile

namespace Agenthicc.Tools

open Python Occurrences

/-! ## 1. Line endings -/

/-- Whether a carriage return stands behind a text, which has one before it or
not. -/
def endsCr : (cr : Bool) → List Char → Bool
  | cr, [] => cr
  | _, c :: rest => endsCr (c = '\r') rest

/-- How many line feeds of a text have no carriage return before them. -/
def bareFeeds : (cr : Bool) → List Char → Nat
  | _, [] => 0
  | cr, c :: rest => (if c = '\n' ∧ cr = false then 1 else 0) + bareFeeds (c = '\r') rest

/-- A text may stand there: if it begins with a line feed, a carriage return
is before it. -/
def meets (cr : Bool) (text : List Char) : Bool := cr || text.head? ≠ some '\n'

theorem endsCr_append (cr : Bool) (s t : List Char) : endsCr cr (s ++ t) = endsCr (endsCr cr s) t := by
  induction s generalizing cr with
  | nil => rfl
  | cons c s ih => exact ih (c = '\r')

theorem bareFeeds_append (cr : Bool) (s t : List Char) :
    bareFeeds cr (s ++ t) = bareFeeds cr s + bareFeeds (endsCr cr s) t := by
  induction s generalizing cr with
  | nil => simp [bareFeeds, endsCr]
  | cons c s ih => rw [List.cons_append, bareFeeds, bareFeeds, endsCr, ih, Nat.add_assoc]

theorem bareFeeds_eq_zero (cr : Bool) (text : List Char) :
    bareFeeds cr text = 0 ↔ meets cr text = true ∧ bareFeeds true text = 0 := by
  cases text with
  | nil => simp [bareFeeds, meets]
  | cons c rest =>
    by_cases hc : c = '\n'
    · cases cr <;> simp [bareFeeds, meets, hc]
    · simp [bareFeeds, meets, hc]

theorem count_feeds (text : List Char) : text.count '\n' = count CRLF text + bareFeeds false text := by
  have hcrlf : CRLF ≠ [] := List.cons_ne_nil _ _
  induction text using induction_on hcrlf with
  | nil => rfl
  | found l ih =>
    rw [count_append hcrlf, List.count_append, ih, bareFeeds_append]
    have hzero : bareFeeds false CRLF = 0 := by decide
    have hone : CRLF.count '\n' = 1 := by decide
    have hfeed : endsCr false CRLF = false := by decide
    rw [hzero, hone, hfeed]
    omega
  | cons c l h ih =>
    rw [count_cons hcrlf h, List.count_cons, ih, bareFeeds]
    have hnext : bareFeeds (c = '\r') l = bareFeeds false l := by
      by_cases hc : c = '\r'
      · -- no line feed follows, as there is no CRLF here
        cases l with
        | nil => rfl
        | cons d l =>
          have hd : d ≠ '\n' := by
            intro hd
            apply h
            rw [hc, hd]
            exact List.prefix_append CRLF l
          simp [bareFeeds, hd]
      · simp [hc]
    rw [hnext]
    by_cases hc : c = '\n'
    · simp [hc]
      omega
    · simp [hc]

theorem newlineOf_iff (text : List Char) :
    newlineOf text = .crlf ∨ newlineOf text = .none ↔ bareFeeds false text = 0 := by
  have hcount := count_feeds text
  have hbare : text.count '\n' - count CRLF text = bareFeeds false text := by omega
  simp only [newlineOf, hbare]
  split
  · next h => simp [h.2]
  · split
    · next h => simp [h]
    · next h => split <;> simp [h]

/-- Every place between the pieces where a line feed could become bare has a
carriage return. -/
def seamsKeep (new : List Char) : (cr : Bool) → List (List Char) → Bool
  | _, [] => true
  | cr, piece :: rest =>
      meets cr new && meets (endsCr cr new) piece && seamsKeep new (endsCr (endsCr cr new) piece) rest

/-- A replacement brings no bare line feed into the pieces of a text: each
line feed of its own but a first one is behind a carriage return, and so are a
first one and what follows it. -/
def keepsCrlf (new : List Char) : List (List Char) → Bool
  | [] => true
  | piece :: rest => bareFeeds true new = 0 && seamsKeep new (endsCr false piece) rest

theorem bareFeeds_seams (new : List Char) {ps : List (List Char)} (hps : ∀ p ∈ ps, bareFeeds true p = 0)
    (hnew : bareFeeds true new = 0) (cr : Bool) :
    bareFeeds cr (ps.flatMap (new ++ ·)) = 0 ↔ seamsKeep new cr ps = true := by
  induction ps generalizing cr with
  | nil => simp [bareFeeds, seamsKeep]
  | cons p ps ih =>
    rw [List.forall_mem_cons] at hps
    rw [List.flatMap_cons, bareFeeds_append, bareFeeds_append, endsCr_append, seamsKeep]
    rw [Nat.add_eq_zero_iff, Nat.add_eq_zero_iff, bareFeeds_eq_zero cr new, bareFeeds_eq_zero _ p,
      ih hps.2 _]
    simp [hnew, hps.1]

/-- In a text without bare line feeds, the ones that replacing brings. -/
theorem bareFeeds_replace {sep new : List Char} (hsep : sep ≠ []) {text : List Char}
    (htext : bareFeeds false text = 0) (hfound : count sep text ≠ 0) :
    bareFeeds false (replace sep new text) = 0 ↔ keepsCrlf new (pieces sep text) = true := by
  obtain ⟨p, ps, hps⟩ := List.exists_cons_of_ne_nil (pieces_ne_nil hsep text)
  have hlen := length_pieces hsep text
  rw [hps, List.length_cons] at hlen
  have hback := intercalate_pieces hsep text
  rw [hps, intercalate_cons] at hback
  have hp : bareFeeds false p = 0 ∧ ∀ q ∈ ps, bareFeeds true q = 0 := by
    rw [← hback, bareFeeds_append, Nat.add_eq_zero_iff] at htext
    refine ⟨htext.1, ?_⟩
    intro q hq
    obtain ⟨s, t, hst⟩ := List.append_of_mem hq
    have hrest := htext.2
    rw [hst, List.flatMap_append, List.flatMap_cons, bareFeeds_append, bareFeeds_append, bareFeeds_append]
      at hrest
    have hzero : bareFeeds (endsCr (endsCr (endsCr false p) (s.flatMap (sep ++ ·))) sep) q = 0 := by omega
    exact ((bareFeeds_eq_zero _ q).mp hzero).2
  rw [replace, hps, intercalate_cons, bareFeeds_append, hp.1, Nat.zero_add, keepsCrlf]
  by_cases hnew : bareFeeds true new = 0
  · rw [bareFeeds_seams new hp.2 hnew]
    simp [hnew]
  · obtain ⟨q, qs, rfl⟩ := List.exists_cons_of_ne_nil (l := ps) (List.ne_nil_of_length_pos (by omega))
    rw [List.flatMap_cons, bareFeeds_append, bareFeeds_append]
    have hbare := mt (fun h => ((bareFeeds_eq_zero (endsCr false p) new).mp h).2) hnew
    simp only [hnew, decide_false, Bool.false_and, Bool.false_eq_true, iff_false]
    omega
/-! ## 2. Spellings -/

@[simp] theorem toLf_nil : toLf [] = [] := rfl

theorem toLf_crlf (l : List Char) : toLf ('\r' :: '\n' :: l) = '\n' :: toLf l :=
  replace_append (List.cons_ne_nil _ _ : CRLF ≠ []) LF l

theorem toLf_cons {c : Char} {l : List Char} (h : ¬ CRLF <+: c :: l) : toLf (c :: l) = c :: toLf l :=
  replace_cons (List.cons_ne_nil _ _) LF h

theorem crlf_prefix_cons {c : Char} {l : List Char} :
    CRLF <+: c :: l ↔ c = '\r' ∧ l.head? = some '\n' := by
  cases l with
  | nil => simp [CRLF]
  | cons d l => simp [CRLF, eq_comm]

theorem feed_prefix_cons {c : Char} {l : List Char} : LF <+: c :: l ↔ c = '\n' := by simp [LF, eq_comm]

theorem addCr_feed (l : List Char) : replace LF CRLF ('\n' :: l) = '\r' :: '\n' :: replace LF CRLF l :=
  replace_append (List.cons_ne_nil _ _ : LF ≠ []) CRLF l

theorem addCr_cons {c : Char} (hc : c ≠ '\n') (l : List Char) :
    replace LF CRLF (c :: l) = c :: replace LF CRLF l :=
  replace_cons (List.cons_ne_nil _ _) CRLF (mt feed_prefix_cons.mp hc)

/-- A text whose line feeds were given carriage returns does not begin with a
line feed. -/
theorem head_addCr (text : List Char) : (replace LF CRLF text).head? ≠ some '\n' := by
  cases text with
  | nil => simp
  | cons c text =>
    by_cases hc : c = '\n'
    · rw [hc, addCr_feed]
      simp
    · rw [addCr_cons hc]
      simpa using hc

theorem toLf_addCr (text : List Char) : toLf (replace LF CRLF text) = text := by
  induction text with
  | nil => rfl
  | cons c text ih =>
    by_cases hc : c = '\n'
    · rw [hc, addCr_feed, toLf_crlf, ih]
    · rw [addCr_cons hc, toLf_cons, ih]
      exact fun h => head_addCr text (crlf_prefix_cons.mp h).2

theorem toLf_toCrlf (text : List Char) : toLf (toCrlf text) = toLf text := toLf_addCr (toLf text)

/-- How often a text stands in another one, whichever way either spells its
lines. -/
def spellings (old text : List Char) : Nat := count (toLf old) (toLf text)

/-- The file spells `old_content` one way only: in the spelling that is
searched it stands there as often as in any. -/
def spelledAlike (args : PatchArgs) (text : List Char) : Bool :=
  spellings args.old_content text = args.occurrences text

theorem PatchArgs.toLf_target (args : PatchArgs) (text : List Char) :
    toLf (args.target text) = toLf args.old_content := by
  rw [target]
  split
  · exact toLf_toCrlf args.old_content
  · rfl

theorem PatchArgs.toLf_replacement (args : PatchArgs) (text : List Char) :
    toLf (args.replacement text) = toLf args.new_content := by
  rw [replacement]
  split
  · exact toLf_toCrlf args.new_content
  · rfl

theorem toLf_eq_nil {text : List Char} (h : toLf text = []) : text = [] := by
  have hcrlf : CRLF ≠ [] := List.cons_ne_nil _ _
  cases text with
  | nil => rfl
  | cons c l =>
    by_cases hfront : CRLF <+: c :: l
    · obtain ⟨tail, htail⟩ := hfront
      rw [← htail, CRLF, List.cons_append, List.cons_append, toLf_crlf] at h
      cases h
    · rw [toLf_cons hfront] at h
      cases h

theorem PatchArgs.target_ne_nil {args : PatchArgs} (h : args.old_content ≠ []) (text : List Char) :
    args.target text ≠ [] := by
  intro htarget
  have hlf := args.toLf_target text
  rw [htarget] at hlf
  exact h (toLf_eq_nil hlf.symm)

/-! ## 3. Writing -/

theorem atomicWrite_ok {fails : Option WriteStage} {data : Bytes} {dir dir' : Directory}
    (h : atomicWrite fails data dir = (dir', .ok ())) : fails = none ∧ dir' = ⟨some data, none⟩ := by
  cases fails with
  | none => exact ⟨rfl, (congrArg Prod.fst h).symm⟩
  | some stage => cases stage <;> cases congrArg Prod.snd h

/-- A write that fails before its end leaves the file, and no temporary one. -/
theorem atomicWrite_error {fails : Option WriteStage} {data : Bytes} {dir dir' : Directory}
    {stage : WriteStage} (h : atomicWrite fails data dir = (dir', .error stage))
    (hstage : stage ≠ .version) : dir' = ⟨dir.target, none⟩ := by
  cases fails with
  | none => cases congrArg Prod.snd h
  | some failed =>
    have hfailed : failed = stage := by
      cases failed <;> exact Except.error.inj (congrArg Prod.snd h)
    subst hfailed
    have hdir := congrArg Prod.fst h
    cases failed with
    | version => exact absurd rfl hstage
    | parents | mode | temporary | contents | chmod | rename => exact hdir.symm

theorem decodeForEdit_ok {data : Bytes} {encoding : Option Encoding} {decoded : DecodedFile} :
    decodeForEdit data encoding = .ok decoded
      ↔ encoding = some decoded.encoding ∧ decoded.bom = bomOf decoded.encoding data
        ∧ decoded.encoding.decode (data.drop decoded.bom.length) = some decoded.text
        ∧ decoded.newline = newlineOf decoded.text := by
  cases encoding with
  | none => simp [decodeForEdit]
  | some e =>
    cases htext : e.decode (data.drop (bomOf e data).length) with
    | none =>
      simp only [decodeForEdit, htext, Option.some_inj, reduceCtorEq, false_iff]
      rintro ⟨rfl, hbom, hdecode, -⟩
      rw [hbom, htext] at hdecode
      cases hdecode
    | some text =>
      simp only [decodeForEdit, htext, Option.some_inj, Except.ok.injEq]
      constructor
      · rintro rfl
        exact ⟨rfl, rfl, htext, rfl⟩
      · rintro ⟨rfl, hbom, hdecode, hnewline⟩
        rw [hbom, htext] at hdecode
        rw [Option.some.inj hdecode, ← hbom, ← hnewline]

theorem bomOf_mark (rest : Bytes) : bomOf .utf_8 (BOM_UTF8 ++ rest) = BOM_UTF8 := by
  have hmark : BOM_UTF8 <+: BOM_UTF8 ++ rest := List.prefix_append _ _
  rw [bomOf, if_pos hmark]

theorem bomOf_append (e : Encoding) (data : Bytes) : bomOf e data ++ data.drop (bomOf e data).length = data := by
  cases e with
  | utf_8 =>
    rw [bomOf]
    split
    · next h => exact List.prefix_iff_eq_append.mp h
    · rfl
  | utf_8_sig | utf_16 byteorder | utf_16_le | utf_16_be | charmap table => rfl

/-- Data that were decoded are encoded to themselves where the encoding keeps
their bytes. -/
theorem encode_text {data : Bytes} {encoding : Option Encoding} {decoded : DecodedFile}
    (h : decodeForEdit data encoding = .ok decoded) :
    decoded.encode decoded.text = some data ↔ decoded.encoding.KeepsBytes data := by
  obtain ⟨-, hbom, hdecode, -⟩ := decodeForEdit_ok.mp h
  have hback := bomOf_append decoded.encoding data
  have hkeeps := Encoding.encode_decode hdecode
  rw [← hbom] at hback
  have hencode : decoded.encode decoded.text = some data
      ↔ decoded.encoding.encode decoded.text = some (data.drop decoded.bom.length) := by
    rw [DecodedFile.encode, Option.map_eq_some_iff]
    constructor
    · rintro ⟨bytes, hbytes, happ⟩
      rw [← hback] at happ
      rw [hbytes, List.append_cancel_left happ]
    · intro hbytes
      exact ⟨_, hbytes, hback⟩
  rw [hencode, hkeeps]
  cases he : decoded.encoding with
  | utf_8 => exact Iff.rfl
  | utf_8_sig | utf_16 byteorder | utf_16_le | utf_16_be | charmap table =>
    have hnone : decoded.bom = [] := by rw [hbom, he]; rfl
    rw [hnone]
    exact Iff.rfl

/-- A mark before a text changes nothing in its line endings. -/
theorem newlineOf_cons {c : Char} (hcr : c ≠ '\r') (hlf : c ≠ '\n') (text : List Char) :
    newlineOf (c :: text) = newlineOf text := by
  have hcount : count CRLF (c :: text) = count CRLF text :=
    count_cons (List.cons_ne_nil _ _) fun h => hcr (crlf_prefix_cons.mp h).1
  simp only [newlineOf, hcount, List.count_cons]
  simp [hlf]

theorem decodeForEdit_of_decode {e : Encoding} {data : Bytes} {text : List Char}
    (h : e.decode (data.drop (bomOf e data).length) = some text) :
    decodeForEdit data (some e) = .ok ⟨text, e, bomOf e data, newlineOf text⟩ := by
  rw [decodeForEdit]
  simp only [h]

/-- The file that was written can be read, and its line endings are those of
the text. -/
theorem newline_written {e : Encoding} {data data' : Bytes} {text : List Char}
    (hwritten : (e.encode text).map (bomOf e data ++ ·) = some data') :
    ∃ decoded, decodeForEdit data' (some e) = .ok decoded ∧ decoded.newline = newlineOf text := by
  obtain ⟨bytes, hbytes, rfl⟩ := Option.map_eq_some_iff.mp hwritten
  have hread := Encoding.decode_encode hbytes
  cases e with
  | utf_8_sig | utf_16 byteorder | utf_16_le | utf_16_be | charmap table =>
    exact ⟨_, decodeForEdit_of_decode hread, rfl⟩
  | utf_8 =>
    by_cases hmark : BOM_UTF8 <+: data
    · have hdata : bomOf .utf_8 data = BOM_UTF8 := if_pos hmark
      have hdata' := bomOf_mark bytes
      rw [hdata]
      refine ⟨_, decodeForEdit_of_decode ?_, rfl⟩
      rw [hdata', List.drop_left]
      exact hread
    · have hdata : bomOf .utf_8 data = [] := if_neg hmark
      rw [hdata, List.nil_append]
      by_cases hmark' : BOM_UTF8 <+: bytes
      · -- the text begins with the character of the mark, which is now taken for one
        obtain ⟨rest, rfl⟩ := hmark'
        have happ := decodeUtf8_append '\ufeff' rest
        have hread' : decodeUtf8 (String.utf8EncodeChar '\ufeff' ++ rest) = some text := hread
        rw [happ] at hread'
        obtain ⟨text', htext', rfl⟩ := Option.map_eq_some_iff.mp hread'
        have hbom := bomOf_mark rest
        have hdecode : Encoding.utf_8.decode
            ((BOM_UTF8 ++ rest).drop (bomOf .utf_8 (BOM_UTF8 ++ rest)).length) = some text' := by
          rw [hbom, List.drop_left]
          exact htext'
        exact ⟨_, decodeForEdit_of_decode hdecode, (newlineOf_cons (by decide) (by decide) text').symm⟩
      · have hbom : bomOf .utf_8 bytes = [] := if_neg hmark'
        refine ⟨_, decodeForEdit_of_decode ?_, rfl⟩
        rw [hbom]
        exact hread
/-! ## 4. The tool -/

/-- The data after an edit are those before it with `n` occurrences of the old
text, in one spelling, replaced by the new text. -/
def ReplacedExactly (args : PatchArgs) (e : Encoding) (data data' : Bytes) (n : Nat) : Prop :=
  ∃ target replacement : List Char, ∃ pieces : List (List Char),
    toLf target = toLf args.old_content ∧ toLf replacement = toLf args.new_content
      ∧ pieces.length = n + 1 ∧ (∀ piece ∈ pieces, ¬ target <:+: piece)
      ∧ data = bomOf e data ++ e.mark ++ (e.spell target).intercalate (pieces.map e.spell)
      ∧ data' = bomOf e data ++ e.mark ++ (e.spell replacement).intercalate (pieces.map e.spell)

/-- An exact edit changes nothing else. -/
structure ExactEdit (args : PatchArgs) (world : PatchWorld) (file : Option Bytes) : Prop where
  /-- What is decoded is encoded to the same bytes. -/
  keeps_bytes : ∀ data decoded, file = some data → decodeForEdit data args.encoding = .ok decoded →
    decoded.encode decoded.text = some data
  replaced : ∀ n, (patchFile args world file).2 = .ok n → ∃ data data' decoded, file = some data
    ∧ decodeForEdit data args.encoding = .ok decoded
    ∧ (patchFile args world file).1 = ⟨some data', none⟩
    ∧ ReplacedExactly args decoded.encoding data data' n
  /-- As many as were expected, whichever way the file spells its lines. -/
  counted : ∀ n data decoded, (patchFile args world file).2 = .ok n → file = some data →
    decodeForEdit data args.encoding = .ok decoded →
    args.replace_all = true ∨ (spellings args.old_content decoded.text : Int) = args.expected_replacements
  /-- A file with CRLF endings only has no others afterwards. -/
  endings : ∀ n data decoded, (patchFile args world file).2 = .ok n → file = some data →
    decodeForEdit data args.encoding = .ok decoded → decoded.newline = .crlf →
    ∃ data' decoded', (patchFile args world file).1.target = some data'
      ∧ decodeForEdit data' args.encoding = .ok decoded'
      ∧ (decoded'.newline = .crlf ∨ decoded'.newline = .none)
  /-- Whatever is refused leaves the file. Only the `stat` of a file that was
  written fails later. -/
  refused : ∀ exc, (patchFile args world file).2 = .error exc → exc ≠ .osError .version →
    (patchFile args world file).1 = ⟨file, none⟩

/-- The edit goes through. -/
structure PatchAccepted (args : PatchArgs) (world : PatchWorld) (decoded : DecodedFile) : Prop where
  old_content : args.old_content ≠ []
  at_least_one : args.replace_all = true ∨ 1 ≤ args.expected_replacements
  permitted : world.permitted = true
  fresh : world.stale = false
  found : args.occurrences decoded.text ≠ 0
  expected : args.replace_all = true ∨ (args.occurrences decoded.text : Int) = args.expected_replacements
  encodable : decoded.encoding.encodable (args.replacement decoded.text) = true
  written : world.fails = none

/-- When it does: the encoding keeps the bytes of the file and, where the edit
goes through, all occurrences are spelled alike, unless they are all meant,
and a file with CRLF endings gets no bare line feed from the replacement. -/
def KeepsRest (args : PatchArgs) (world : PatchWorld) (file : Option Bytes) : Prop :=
  ∀ data decoded, file = some data → decodeForEdit data args.encoding = .ok decoded →
    decoded.encoding.KeepsBytes data
      ∧ (PatchAccepted args world decoded →
        (args.replace_all = true ∨ spelledAlike args decoded.text = true)
          ∧ (decoded.newline = .crlf →
            keepsCrlf (args.replacement decoded.text) (pieces (args.target decoded.text) decoded.text) = true))

theorem encodable_iff {e : Encoding} {text : List Char} :
    e.encodable text = true ↔ ∀ c ∈ text, (e.charBytes c).isSome = true := by
  rw [Encoding.encodable, List.all_eq_true]

/-- With every character of a text encodable, a patched text is as soon as the
replacement is. -/
theorem encodable_replace {e : Encoding} {sep : List Char} (new : List Char) {text : List Char}
    (hsep : sep ≠ []) (htext : e.encodable text = true) (hfound : count sep text ≠ 0) :
    e.encodable (replace sep new text) = e.encodable new := by
  have hlen := length_pieces hsep text
  rw [Bool.eq_iff_iff, encodable_iff, encodable_iff]
  constructor
  · intro h c hc
    exact h c (mem_intercalate_of_mem_new hc (by omega))
  · intro h c hc
    obtain ⟨p, hp, hcp⟩ | hnew := mem_intercalate hc
    · have hmem := mem_intercalate_of_mem sep hp hcp
      rw [intercalate_pieces hsep] at hmem
      exact encodable_iff.mp htext c hmem
    · exact h c hnew

theorem spell_intercalate (e : Encoding) (sep : List Char) (ps : List (List Char)) :
    e.spell (sep.intercalate ps) = (e.spell sep).intercalate (ps.map e.spell) :=
  flatMap_intercalate _ sep ps

variable {args : PatchArgs} {world : PatchWorld} {file : Option Bytes}

theorem patchedText_ok {text patched : List Char} {n : Nat} (h : patchedText args text = .ok (patched, n)) :
    args.occurrences text ≠ 0
      ∧ (args.replace_all = true ∨ (args.occurrences text : Int) = args.expected_replacements)
      ∧ patched = replace (args.target text) (args.replacement text) text ∧ n = args.occurrences text := by
  unfold patchedText at h
  split at h
  · cases h
  · next hfound =>
    split at h
    · cases h
    · next hexpected =>
      have hpair := Except.ok.inj h
      rw [Prod.mk.injEq] at hpair
      refine ⟨hfound, ?_, hpair.1.symm, hpair.2.symm⟩
      by_contra hnot
      rw [not_or] at hnot
      exact hexpected ⟨by simpa using hnot.1, hnot.2⟩

theorem writePatched_cases (args : PatchArgs) (world : PatchWorld) (dir : Directory) (decoded : DecodedFile) :
    (∃ data', decoded.encode (replace (args.target decoded.text) (args.replacement decoded.text) decoded.text)
        = some data' ∧ world.fails = none ∧ args.occurrences decoded.text ≠ 0
        ∧ (args.replace_all = true ∨ (args.occurrences decoded.text : Int) = args.expected_replacements)
        ∧ writePatched args world dir decoded = (⟨some data', none⟩, .ok (args.occurrences decoded.text)))
      ∨ ∃ dir' exc, writePatched args world dir decoded = (dir', .error exc)
        ∧ (exc ≠ .osError .version → dir' = dir ∨ dir' = ⟨dir.target, none⟩) := by
  unfold writePatched
  cases hpatched : patchedText args decoded.text with
  | error exc => exact .inr ⟨dir, exc, rfl, fun _ => .inl rfl⟩
  | ok result =>
    obtain ⟨patched, n⟩ := result
    obtain ⟨hfound, hexpected, rfl, rfl⟩ := patchedText_ok hpatched
    cases hencode : decoded.encode
        (replace (args.target decoded.text) (args.replacement decoded.text) decoded.text) with
    | none => exact .inr ⟨dir, .unencodable, by simp only [hencode], fun _ => .inl rfl⟩
    | some data' =>
      cases hwrite : atomicWrite world.fails data' dir with
      | mk dir' result =>
        cases result with
        | ok done =>
          obtain ⟨hfails, rfl⟩ := atomicWrite_ok hwrite
          exact .inl ⟨data', rfl, hfails, hfound, hexpected, by simp only [hencode, hwrite]⟩
        | error stage =>
          refine .inr ⟨dir', .osError stage, by simp only [hencode, hwrite], ?_⟩
          intro hstage
          exact .inr (atomicWrite_error hwrite fun h => hstage (h ▸ rfl))

theorem patchFile_cases (args : PatchArgs) (world : PatchWorld) (file : Option Bytes) :
    (∃ exc, patchFile args world file = (⟨file, none⟩, .error exc))
      ∨ ∃ data decoded, file = some data ∧ decodeForEdit data args.encoding = .ok decoded
        ∧ args.old_content ≠ [] ∧ (args.replace_all = true ∨ 1 ≤ args.expected_replacements)
        ∧ world.permitted = true ∧ world.stale = false
        ∧ patchFile args world file = writePatched args world ⟨file, none⟩ decoded := by
  unfold patchFile
  split
  · exact .inl ⟨_, rfl⟩
  · next hold =>
    split
    · exact .inl ⟨_, rfl⟩
    · next hexpected =>
      split
      · exact .inl ⟨_, rfl⟩
      · next hpermitted =>
        cases file with
        | none => exact .inl ⟨_, rfl⟩
        | some data =>
          cases hstale : world.stale with
          | true => exact .inl ⟨_, rfl⟩
          | false =>
            cases hdecode : decodeForEdit data args.encoding with
            | error exc => exact .inl ⟨exc, by simp only [hdecode]; rfl⟩
            | ok decoded =>
              refine .inr ⟨data, decoded, rfl, hdecode, hold, ?_, by simpa using hpermitted, rfl,
                by simp only [hdecode]; rfl⟩
              by_contra hnot
              rw [not_or] at hnot
              exact hexpected ⟨by omega, by simpa using hnot.1⟩

theorem patchFile_ok {n : Nat} (h : (patchFile args world file).2 = .ok n) :
    ∃ data decoded data', file = some data ∧ decodeForEdit data args.encoding = .ok decoded
      ∧ PatchAccepted args world decoded ∧ n = args.occurrences decoded.text
      ∧ decoded.encode (replace (args.target decoded.text) (args.replacement decoded.text) decoded.text)
        = some data'
      ∧ (patchFile args world file).1 = ⟨some data', none⟩ := by
  obtain ⟨exc, hexc⟩ | ⟨data, decoded, hfile, hdecode, hold, hone, hpermitted, hfresh, heq⟩ :=
    patchFile_cases args world file
  · rw [hexc] at h
    cases h
  · obtain ⟨data', hencode, hfails, hfound, hexpected, hok⟩ | ⟨dir', exc, herror, -⟩ :=
      writePatched_cases args world ⟨file, none⟩ decoded
    · rw [heq, hok] at h ⊢
      obtain rfl := Except.ok.inj h
      have hencodable : decoded.encoding.encodable (args.replacement decoded.text) = true := by
        obtain ⟨bytes, hbytes, -⟩ := Option.map_eq_some_iff.mp hencode
        have hall := encodable_iff.mp (Encoding.encode_eq_some.mp hbytes).1
        have hlen := length_pieces (args.target_ne_nil hold decoded.text) decoded.text
        rw [PatchArgs.occurrences] at hfound
        exact encodable_iff.mpr fun c hc => hall c (mem_intercalate_of_mem_new hc (by omega))
      exact ⟨data, decoded, data', hfile, hdecode,
        ⟨hold, hone, hpermitted, hfresh, hfound, hexpected, hencodable, hfails⟩, rfl, hencode, rfl⟩
    · rw [heq, herror] at h
      cases h

theorem patchFile_accepted {data : Bytes} {decoded : DecodedFile}
    (hdecode : decodeForEdit data args.encoding = .ok decoded) (h : PatchAccepted args world decoded)
    (htext : decoded.encoding.encodable decoded.text = true) :
    (patchFile args world (some data)).2 = .ok (args.occurrences decoded.text) := by
  have htarget := args.target_ne_nil h.old_content decoded.text
  have hencodable := encodable_replace (args.replacement decoded.text) htarget htext h.found
  rw [h.encodable] at hencodable
  have hencode : decoded.encode
      (replace (args.target decoded.text) (args.replacement decoded.text) decoded.text)
        = some (decoded.bom ++ (decoded.encoding.mark ++ decoded.encoding.spell
          (replace (args.target decoded.text) (args.replacement decoded.text) decoded.text))) := by
    rw [DecodedFile.encode, Encoding.encode, if_pos hencodable]
    rfl
  have hpatched : patchedText args decoded.text
      = .ok (replace (args.target decoded.text) (args.replacement decoded.text) decoded.text,
        args.occurrences decoded.text) := by
    rw [patchedText, if_neg h.found, if_neg]
    rintro ⟨hall, hne⟩
    obtain hreplace | hexpected := h.expected
    · rw [hreplace] at hall
      cases hall
    · exact hne hexpected
  have hexpected : ¬ (args.expected_replacements < 1 ∧ (!args.replace_all) = true) := by
    rintro ⟨hlt, hall⟩
    obtain hreplace | hone := h.at_least_one
    · rw [hreplace] at hall
      cases hall
    · omega
  have hwrite : (writePatched args world ⟨some data, none⟩ decoded).2
      = .ok (args.occurrences decoded.text) := by
    unfold writePatched
    simp only [hpatched, hencode, h.written]
    rfl
  rw [patchFile, if_neg h.old_content, if_neg hexpected, if_neg (by simp [h.permitted])]
  simp only [h.fresh, hdecode, Bool.false_eq_true, if_false]
  exact hwrite

theorem patchFile_error {exc : PatchError} (h : (patchFile args world file).2 = .error exc)
    (hexc : exc ≠ .osError .version) : (patchFile args world file).1 = ⟨file, none⟩ := by
  obtain ⟨exc', hexc'⟩ | ⟨data, decoded, hfile, hdecode, -, -, -, -, heq⟩ := patchFile_cases args world file
  · rw [hexc']
  · obtain ⟨data', -, -, -, -, hok⟩ | ⟨dir', exc', herror, hdir⟩ :=
      writePatched_cases args world ⟨file, none⟩ decoded
    · rw [heq, hok] at h
      cases h
    · rw [heq, herror] at h ⊢
      obtain rfl := Except.error.inj h
      obtain hsame | hsame := hdir hexc
      · exact hsame
      · exact hsame

/-- The file keeps the bytes of its encoding in what is written. -/
theorem replaced_of_keepsBytes {data data' : Bytes} {decoded : DecodedFile}
    (hdecode : decodeForEdit data args.encoding = .ok decoded) (hkeeps : decoded.encoding.KeepsBytes data)
    (hold : args.old_content ≠ [])
    (hencode : decoded.encode (replace (args.target decoded.text) (args.replacement decoded.text) decoded.text)
      = some data') :
    ReplacedExactly args decoded.encoding data data' (args.occurrences decoded.text) := by
  have htarget := args.target_ne_nil hold decoded.text
  obtain ⟨-, hbom, -, -⟩ := decodeForEdit_ok.mp hdecode
  obtain ⟨bytes, hbytes, hdata⟩ := Option.map_eq_some_iff.mp ((encode_text hdecode).mpr hkeeps)
  obtain ⟨bytes', hbytes', hdata'⟩ := Option.map_eq_some_iff.mp hencode
  obtain ⟨-, hspell⟩ := Encoding.encode_eq_some.mp hbytes
  obtain ⟨-, hspell'⟩ := Encoding.encode_eq_some.mp hbytes'
  refine ⟨args.target decoded.text, args.replacement decoded.text,
    pieces (args.target decoded.text) decoded.text, args.toLf_target _, args.toLf_replacement _,
    length_pieces htarget _, not_infix_pieces htarget _, ?_, ?_⟩
  · rw [← spell_intercalate, intercalate_pieces htarget, ← hbom, List.append_assoc, hspell]
    exact hdata.symm
  · rw [← spell_intercalate, ← hbom, List.append_assoc]
    rw [replace] at hspell'
    rw [hspell', hdata']

/-- A patch is an exact edit exactly where the encoding keeps the file's bytes
and the file spells the old text and its line endings one way. -/
theorem patch_changes_nothing_else_iff (args : PatchArgs) (world : PatchWorld) (file : Option Bytes) :
    ExactEdit args world file ↔ KeepsRest args world file := by
  constructor
  · intro hexact data decoded hfile hdecode
    have hkeeps := (encode_text hdecode).mp (hexact.keeps_bytes data decoded hfile hdecode)
    refine ⟨hkeeps, fun haccepted => ?_⟩
    have htarget := args.target_ne_nil haccepted.old_content decoded.text
    have htext : decoded.encoding.encodable decoded.text = true := by
      obtain ⟨bytes, hbytes, -⟩ := Option.map_eq_some_iff.mp (hexact.keeps_bytes data decoded hfile hdecode)
      exact (Encoding.encode_eq_some.mp hbytes).1
    have hok := patchFile_accepted hdecode haccepted htext
    rw [← hfile] at hok
    constructor
    · obtain hall | hcount := hexact.counted _ data decoded hok hfile hdecode
      · exact .inl hall
      · obtain hall | hexpected := haccepted.expected
        · exact .inl hall
        · right
          rw [spelledAlike, decide_eq_true_eq]
          omega
    · intro hcrlf
      obtain ⟨data', decoded', hdata', hdecode', hnewline⟩ :=
        hexact.endings _ data decoded hok hfile hdecode hcrlf
      obtain ⟨data₁, decoded₁, data₁', hfile₁, hdecode₁, -, -, hencode, hwritten⟩ := patchFile_ok hok
      rw [hfile] at hfile₁
      obtain rfl := Option.some.inj hfile₁
      rw [hdecode] at hdecode₁
      obtain rfl := Except.ok.inj hdecode₁
      rw [hwritten] at hdata'
      obtain rfl := Option.some.inj hdata'
      obtain ⟨he, hbom, -, htextline⟩ := decodeForEdit_ok.mp hdecode
      rw [DecodedFile.encode, hbom] at hencode
      obtain ⟨decoded₂, hdecode₂, hnewline₂⟩ := newline_written hencode
      rw [← he, hdecode'] at hdecode₂
      obtain rfl := Except.ok.inj hdecode₂
      rw [hnewline₂, newlineOf_iff] at hnewline
      have hbare := (newlineOf_iff decoded.text).mp (.inl (htextline ▸ hcrlf))
      exact (bareFeeds_replace htarget hbare haccepted.found).mp hnewline
  · intro hkeeps
    constructor
    case keeps_bytes =>
      intro data decoded hfile hdecode
      exact (encode_text hdecode).mpr (hkeeps data decoded hfile hdecode).1
    case replaced =>
      intro n hok
      obtain ⟨data, decoded, data', hfile, hdecode, haccepted, rfl, hencode, hwritten⟩ := patchFile_ok hok
      exact ⟨data, data', decoded, hfile, hdecode, hwritten,
        replaced_of_keepsBytes hdecode (hkeeps data decoded hfile hdecode).1 haccepted.old_content hencode⟩
    case counted =>
      intro n data decoded hok hfile hdecode
      obtain ⟨data₁, decoded₁, data', hfile₁, hdecode₁, haccepted, -, -, -⟩ := patchFile_ok hok
      rw [hfile] at hfile₁
      obtain rfl := Option.some.inj hfile₁
      rw [hdecode] at hdecode₁
      obtain rfl := Except.ok.inj hdecode₁
      obtain hall | halike := ((hkeeps data decoded hfile hdecode).2 haccepted).1
      · exact .inl hall
      · obtain hall | hexpected := haccepted.expected
        · exact .inl hall
        · right
          rw [spelledAlike, decide_eq_true_eq] at halike
          omega
    case endings =>
      intro n data decoded hok hfile hdecode hcrlf
      obtain ⟨data₁, decoded₁, data', hfile₁, hdecode₁, haccepted, -, hencode, hwritten⟩ := patchFile_ok hok
      rw [hfile] at hfile₁
      obtain rfl := Option.some.inj hfile₁
      rw [hdecode] at hdecode₁
      obtain rfl := Except.ok.inj hdecode₁
      have htarget := args.target_ne_nil haccepted.old_content decoded.text
      obtain ⟨he, hbom, -, htextline⟩ := decodeForEdit_ok.mp hdecode
      rw [DecodedFile.encode, hbom] at hencode
      obtain ⟨decoded', hdecode', hnewline⟩ := newline_written hencode
      have hbare := (newlineOf_iff decoded.text).mp (.inl (htextline ▸ hcrlf))
      have hseams := ((hkeeps data decoded hfile hdecode).2 haccepted).2 hcrlf
      refine ⟨data', decoded', by rw [hwritten], he ▸ hdecode', ?_⟩
      rw [hnewline, newlineOf_iff]
      exact (bareFeeds_replace htarget hbare haccepted.found).mpr hseams
    case refused =>
      intro exc herror hexc
      exact patchFile_error herror hexc
/-- Two lines for one word of a file with CRLF endings: the new line ends with
LF. -/
theorem patch_mixes_line_endings :
    ¬ ExactEdit { old_content := ['a'], new_content := ['x', '\n', 'y'] } {}
      (some [97, 13, 10, 98, 13, 10]) := by
  intro h
  have hdecode : decodeForEdit [97, 13, 10, 98, 13, 10] (some .utf_8)
      = .ok ⟨['a', '\r', '\n', 'b', '\r', '\n'], .utf_8, [], .crlf⟩ :=
    decodeForEdit_of_decode (decodeUtf8_encode ['a', '\r', '\n', 'b', '\r', '\n'])
  have hdecode' : decodeForEdit [120, 10, 121, 13, 10, 98, 13, 10] (some .utf_8)
      = .ok ⟨['x', '\n', 'y', '\r', '\n', 'b', '\r', '\n'], .utf_8, [], .mixed⟩ :=
    decodeForEdit_of_decode (decodeUtf8_encode ['x', '\n', 'y', '\r', '\n', 'b', '\r', '\n'])
  have hpatch : patchFile { old_content := ['a'], new_content := ['x', '\n', 'y'] } {}
      (some [97, 13, 10, 98, 13, 10]) = (⟨some [120, 10, 121, 13, 10, 98, 13, 10], none⟩, .ok 1) := by
    unfold patchFile
    simp only [hdecode]
    decide
  obtain ⟨data', decoded', hdata', hread, hnewline⟩ :=
    h.endings 1 _ _ (by rw [hpatch]) rfl hdecode rfl
  rw [hpatch] at hdata'
  obtain rfl := Option.some.inj hdata'
  rw [hdecode'] at hread
  obtain rfl := Except.ok.inj hread
  obtain hcrlf | hnone := hnewline
  · cases hcrlf
  · cases hnone

end Agenthicc.Tools
