/-
Agenthicc.Subagents.TranscriptWriterTheorems — the transcript of one worker
accounts for its events, and its readers agree.

`Holds` says what the bytes of the file are after a list of appends: their
lines, or a marker for the oldest ones and the lines of the newest.
`TranscriptInv` adds the line that is being written, the size the writer
remembers, and what a reader has read of the file it looked at last.
-/
import Agenthicc.Python.RawJson
import Agenthicc.Subagents.Transcripts
import Agenthicc.Library.Runs

open Python Runs

namespace Agenthicc.Subagents

variable {py : Interp}

/-! ## 1. A line reads back -/

namespace TranscriptEvent

/-- The event has values that a reader takes as they are. -/
structure Readable (e : TranscriptEvent) : Prop where
  kind : e.kind ∈ TRANSCRIPT_KINDS
  undelivered_messages : 0 ≤ e.undelivered_messages
  attempt : 1 ≤ e.attempt
  schema_version : 1 ≤ e.schema_version

theorem lookup_cons (key k : String) (v : Json) (rest : List (String × Json)) :
    Json.lookup key ((k, v) :: rest) = (Json.lookup key rest).or (if k = key then some v else none) := by
  rw [Json.lookup]
  cases Json.lookup key rest <;> rfl

theorem lookup_nil (key : String) : Json.lookup key [] = none := rfl

theorem lookup_optional (key name : String) (v : Json) (present : Bool) :
    Json.lookup key (optional name v present) = if present ∧ name = key then some v else none := by
  cases present <;> simp [optional, lookup_cons, lookup_nil]

theorem scalar_optional (name : String) {v : Json} (hv : v.isScalar = true) (present : Bool) :
    ∀ kv ∈ optional name v present, kv.2.isScalar = true := by
  intro kv hkv
  cases present with
  | false => cases hkv
  | true =>
    rw [optional, if_pos rfl, List.mem_singleton] at hkv
    rw [hkv]
    exact hv

theorem scalar_toDict (e : TranscriptEvent) : ∀ kv ∈ e.toDict, kv.2.isScalar = true := by
  intro kv hkv
  simp only [toDict, optionalText, List.mem_append, List.mem_cons, List.not_mem_nil, or_false, or_assoc] at hkv
  obtain rfl | rfl | rfl | h | h | h | h | h | h | h | h | h | h | h | h | h | h | h | h := hkv
  case inl | inr.inl | inr.inr.inl => rfl
  all_goals exact scalar_optional _ rfl _ kv h

/-- What a reader sees of the pairs that were written. -/
def written (e : TranscriptEvent) : Json := Json.canonical (.obj e.toDict)

theorem get?_written (e : TranscriptEvent) (key : String) :
    e.written.get? key = (Json.lookup key e.toDict).map Json.canonical := by
  rw [written, Json.canonical, Json.get?, Json.lookup_canonicalPairs]

theorem stringField_written {e : TranscriptEvent} {key s : String}
    (h : Json.lookup key e.toDict = if s ≠ "" then some (.str s) else none) : stringField e.written key = s := by
  rw [stringField, get?_written, h]
  by_cases hs : s = ""
  · rw [if_neg (not_not.mpr hs), hs]
    rfl
  · rw [if_pos hs]
    rfl

theorem intField_written {e : TranscriptEvent} {key : String} {least : Option Int} {n dflt : Int}
    (h : Json.lookup key e.toDict = if n ≠ dflt then some (.int n) else none) (hn : least.all (· ≤ n) = true) :
    intField e.written key least dflt = n := by
  rw [intField, get?_written, h]
  by_cases heq : n = dflt
  · rw [if_neg (not_not.mpr heq), heq]
    rfl
  · rw [if_pos heq, Option.map_some, Json.canonical]
    exact if_pos hn

theorem stringFields_written (e : TranscriptEvent) :
    stringField e.written "text" = e.text ∧ stringField e.written "tool" = e.tool
      ∧ stringField e.written "request_id" = e.request_id ∧ stringField e.written "mode" = e.mode
      ∧ stringField e.written "source" = e.source ∧ stringField e.written "reason" = e.reason
      ∧ stringField e.written "phase" = e.phase ∧ stringField e.written "stop_reason" = e.stop_reason
      ∧ stringField e.written "cleanup_error" = e.cleanup_error ∧ stringField e.written "pool_id" = e.pool_id
      ∧ stringField e.written "worker_id" = e.worker_id := by
  refine ⟨?_, ?_, ?_, ?_, ?_, ?_, ?_, ?_, ?_, ?_, ?_⟩ <;>
    exact stringField_written
      (by simp [toDict, optionalText, Json.lookup_append, lookup_optional, lookup_cons])

/-- **Round trip** of the pairs. -/
theorem fromMapping_written {e : TranscriptEvent} (h : e.Readable) : fromMapping py e.written = some e := by
  have hkind : e.written.get? "kind" = some (.str e.kind) := by
    rw [get?_written]
    simp [toDict, optionalText, Json.lookup_append, lookup_optional, lookup_cons, Json.canonical]
  have hat : timeField py e.written = some e.at_time := by
    rw [timeField, get?_written]
    simp [toDict, optionalText, Json.lookup_append, lookup_optional, lookup_cons, Json.canonical]
  have hok : e.written.get? "ok" = e.ok.map Json.bool := by
    rw [get?_written]
    cases hvalue : e.ok <;>
      simp [toDict, optionalText, Json.lookup_append, lookup_optional, lookup_cons, Json.canonical, hvalue]
  have hflag : decide (e.written.get? "partial" = some (.bool true)) = e.partial_output := by
    rw [get?_written]
    cases hvalue : e.partial_output <;>
      simp [toDict, optionalText, Json.lookup_append, lookup_optional, lookup_cons, Json.canonical, hvalue]
  have hdropped : intField e.written "dropped" none 0 = e.dropped :=
    intField_written (by simp [toDict, optionalText, Json.lookup_append, lookup_optional, lookup_cons]) rfl
  have hundelivered : intField e.written "undelivered_messages" (some 0) 0 = e.undelivered_messages :=
    intField_written (by simp [toDict, optionalText, Json.lookup_append, lookup_optional, lookup_cons])
      (by simpa using h.undelivered_messages)
  have hattempt : intField e.written "attempt" (some 1) 1 = e.attempt :=
    intField_written (by simp [toDict, optionalText, Json.lookup_append, lookup_optional, lookup_cons])
      (by simpa using h.attempt)
  have hversion : intField e.written "schema_version" (some 1) SUBAGENT_EVENT_SCHEMA_VERSION = e.schema_version := by
    rw [intField, get?_written]
    simp [toDict, optionalText, Json.lookup_append, lookup_optional, lookup_cons, Json.canonical, h.schema_version]
  obtain ⟨htext, htool, hrequest, hmode, hsource, hreason, hphase, hstop, hcleanup, hpool, hworker⟩ :=
    stringFields_written e
  simp only [fromMapping, hkind, hat, h.kind, if_true, htext, htool, hrequest, hmode, hsource, hreason, hphase, hstop,
    hcleanup, hpool, hworker, hdropped, hundelivered, hattempt, hversion, hok, hflag]
  cases hvalue : e.ok with
  | none =>
    simp only [Option.map_none]
    rw [← hvalue]
  | some b =>
    simp only [Option.map_some]
    rw [← hvalue]

end TranscriptEvent

/-- The line holds the event, with its break and without. -/
structure LineOf (py : Interp) (line : Bytes) (e : TranscriptEvent) : Prop where
  whole : IsByteLine line
  event : lineEvent py line = some e
  bare : lineEvent py (stripBreak line) = some e

theorem LineOf.of_text {t : List Char} {e : TranscriptEvent} (h : e.Readable) (ht : loads t = some e.written)
    (hvisible : ∀ c ∈ t, 0x20 ≤ c.toNat) : LineOf py (utf8 (t ++ ['\n'])) e := by
  obtain ⟨kvs, hkvs⟩ : ∃ kvs, e.written = .obj kvs := ⟨_, rfl⟩
  have hn : 0x0A ∉ utf8 t := newline_not_mem_utf8 fun hmem => absurd (hvisible _ hmem) (by decide)
  have hr : 0x0D ∉ utf8 t :=
    not_mem_utf8 (by decide) (show '\r'.toNat = _ from rfl) fun hmem => absurd (hvisible _ hmem) (by decide)
  have hbytes : utf8 (t ++ ['\n']) = utf8 t ++ [0x0A] := utf8_append t ['\n']
  have hloads : ∀ text : List Char, loads text = some e.written → lineEvent py (utf8 text) = some e := by
    intro text htext
    rw [lineEvent, loadsLine, utf8, decodeUtf8_encode, Option.bind_some, htext, hkvs]
    exact hkvs ▸ TranscriptEvent.fromMapping_written h
  refine ⟨⟨utf8 t, hbytes, hn, hr⟩, ?_, ?_⟩
  · exact hloads _ (by rw [loads_newline, ht])
  · rw [hbytes, stripBreak_line hn hr]
    exact hloads t ht

namespace TranscriptEvent

theorem scalar_canonicalPairs {kvs : List (String × Json)} (h : ∀ kv ∈ kvs, kv.2.isScalar = true) :
    ∀ kv ∈ Json.canonicalPairs kvs, kv.2.isScalar = true := by
  induction kvs with
  | nil =>
    intro kv hkv
    rw [Json.canonicalPairs] at hkv
    cases hkv
  | cons kv kvs ih =>
    intro kv' hkv'
    obtain ⟨k, v⟩ := kv
    have hrest := ih fun kv hkv => h kv (List.mem_cons_of_mem _ hkv)
    rw [Json.canonicalPairs] at hkv'
    split at hkv'
    · exact hrest kv' hkv'
    · obtain rfl | hkv' := Json.mem_insertPair.mp hkv'
      · have hv : v.isScalar = true := h (k, v) List.mem_cons_self
        cases v with
        | arr xs => cases hv
        | obj kvs => cases hv
        | null | bool _ | int _ | float _ | str _ => rfl
      · exact hrest kv' hkv'

variable (py) in
theorem lineOf_line {e : TranscriptEvent} (h : e.Readable) : LineOf py e.line e := by
  have hscalar := scalar_canonicalPairs e.scalar_toDict
  have hwritten : e.written = .obj (Json.canonicalPairs e.toDict) := by rw [written, Json.canonical]
  refine LineOf.of_text h ?_ ?_
  · rw [← written, hwritten, loads_rawDumps hscalar]
  · rw [← written, hwritten, rawDumps]
    intro c hc
    obtain rfl | hc := List.mem_cons.mp hc
    · decide
    · exact rawDumpsPairs_visible hscalar true c hc

variable (py) in
theorem lineOf_markerLine {e : TranscriptEvent} (h : e.Readable) : LineOf py e.markerLine e := by
  refine LineOf.of_text h (loads_dumps _) fun c hc => ?_
  have hplain := List.all_eq_true.mp (dumps_isPlain _) c hc
  rw [isPlain, decide_eq_true_eq] at hplain
  exact hplain.1

/-- An event made safe has values that are read as they are. -/
theorem readable_safe {e : TranscriptEvent} (hkind : e.kind ∈ TRANSCRIPT_KINDS) (redact : String → String)
    (pool_id worker_id : String) : (e.safe redact pool_id worker_id).Readable where
  kind := hkind
  undelivered_messages := le_max_left 0 _
  attempt := le_max_left 1 _
  schema_version := le_refl 1

end TranscriptEvent

/-! ## 2. The newest lines -/

theorem keepBack_prefix (budget : Nat) (lines : List Bytes) (kept : Nat) : keepBack budget lines kept <+: lines := by
  induction lines generalizing kept with
  | nil => exact List.nil_prefix
  | cons line lines ih =>
    rw [keepBack]
    split
    · exact List.nil_prefix
    · exact (List.prefix_cons_inj line).mpr (ih _)

theorem keepBack_length (budget : Nat) (lines : List Bytes) {kept : Nat} (h : kept ≤ budget) :
    kept + (keepBack budget lines kept).flatten.length ≤ budget := by
  induction lines generalizing kept with
  | nil => simpa [keepBack] using h
  | cons line lines ih =>
    rw [keepBack]
    split
    · simpa using h
    · next hfits =>
      have hrest := ih (Nat.le_of_not_lt hfits)
      rw [List.flatten_cons, List.length_append]
      omega

theorem keepNewest_suffix (budget : Nat) (lines : List Bytes) : keepNewest budget lines <:+ lines := by
  rw [keepNewest, ← List.reverse_prefix, List.reverse_reverse]
  exact keepBack_prefix budget lines.reverse 0

theorem keepNewest_length (budget : Nat) (lines : List Bytes) : (keepNewest budget lines).flatten.length ≤ budget := by
  have h := keepBack_length budget lines.reverse (Nat.zero_le budget)
  rw [keepNewest, List.length_flatten, List.map_reverse, List.sum_reverse, ← List.length_flatten]
  omega

theorem keepNewest_ne_nil {budget : Nat} {lines : List Bytes} {line : Bytes} (h : line.length ≤ budget) :
    keepNewest budget (lines ++ [line]) ≠ [] := by
  rw [keepNewest, List.reverse_append, List.reverse_singleton, List.singleton_append, keepBack, if_neg (by omega)]
  simp

/-! ## 3. What a reader finds -/

/-- The events of a file stand for all that were recorded: they are these, or
the newest of them behind a marker that counts the others. -/
def Accounts (events done : List TranscriptEvent) : Prop :=
  events = done ∨ ∃ marker kept, events = marker :: kept ∧ marker.kind = "truncated" ∧ kept <:+ done
    ∧ marker.dropped + kept.length = done.length

theorem events_of_lines {ls : List Bytes} {es : List TranscriptEvent} (h : List.Forall₂ (LineOf py) ls es) :
    (ls.map stripBreak).filterMap (lineEvent py) = es := by
  induction h with
  | nil => rfl
  | cons hline _ ih => rw [List.map_cons, List.filterMap_cons_some hline.bare, ih]

theorem whole_of_lines {ls : List Bytes} {es : List TranscriptEvent} (h : List.Forall₂ (LineOf py) ls es) :
    ∀ l ∈ ls, IsByteLine l := by
  induction h with
  | nil => exact fun l hl => absurd hl List.not_mem_nil
  | cons hline _ ih =>
    intro l hl
    obtain rfl | hl := List.mem_cons.mp hl
    · exact hline.whole
    · exact ih l hl

theorem readTranscript_lines {ls : List Bytes} {es : List TranscriptEvent} (h : List.Forall₂ (LineOf py) ls es) :
    readTranscript py ls.flatten = es := by
  rw [readTranscript, bytesLines_flatten (whole_of_lines h), events_of_lines h]

theorem lastEvent_lines {ls : List Bytes} {l : Bytes} {e : TranscriptEvent} (hls : ∀ l ∈ ls, IsByteLine l)
    (hl : LineOf py l e) (hwindow : l.length ≤ LAST_EVENT_WINDOW) : lastEvent py (ls.flatten ++ l) = some e := by
  obtain ⟨others, hothers, hwhole⟩ := drop_flatten hls ((ls.flatten ++ l).length - LAST_EVENT_WINDOW)
  have hdrop : (ls.flatten ++ l).drop ((ls.flatten ++ l).length - LAST_EVENT_WINDOW) = (others ++ [l]).flatten := by
    rw [List.drop_append_of_le_length (by rw [List.length_append]; omega), hothers, List.flatten_append,
      List.flatten_singleton]
  have hlines : ∀ l' ∈ others ++ [l], IsByteLine l' := by
    intro l' hl'
    obtain hl' | hl' := List.mem_append.mp hl'
    · exact hwhole l' hl'
    · rw [List.mem_singleton.mp hl']
      exact hl.whole
  rw [lastEvent, hdrop, bytesLines_flatten hlines, List.map_append, List.reverse_append, List.map_singleton,
    List.reverse_singleton, List.singleton_append, List.findSome?_cons_of_isSome (by rw [hl.bare]; rfl)]
  exact hl.bare

/-! ## 4. What the file holds -/

def lines (events : List TranscriptEvent) : List Bytes := events.map TranscriptEvent.line

/-- The content of the file after these events: their lines, of which the
first is no marker, or a marker for the oldest ones before the lines of the
newest. -/
inductive Holds (data : Bytes) (done : List TranscriptEvent) : Prop where
  | whole (content : data = (lines done).flatten) (first : ∀ e ∈ done.head?, e.kind ≠ "truncated")
  | cut (gone kept : List TranscriptEvent) (at_time : PyFloat) (split : done = gone ++ kept) (some_kept : kept ≠ [])
      (content : data = (truncationMarker at_time gone.length).markerLine ++ (lines kept).flatten)

theorem readable_truncationMarker (at_time : PyFloat) (dropped : Int) : (truncationMarker at_time dropped).Readable where
  kind := by simp [truncationMarker, TRANSCRIPT_KINDS]
  undelivered_messages := le_refl 0
  attempt := le_refl 1
  schema_version := le_refl 1

variable (py) in
theorem lines_events {es : List TranscriptEvent} (h : ∀ e ∈ es, e.Readable) :
    List.Forall₂ (LineOf py) (lines es) es := by
  induction es with
  | nil => exact .nil
  | cons e es ih =>
    exact .cons (TranscriptEvent.lineOf_line py (h e List.mem_cons_self)) (ih fun e' he' => h e' (List.mem_cons_of_mem e he'))

variable (py) in
theorem Holds.read {data : Bytes} {done : List TranscriptEvent} (h : Holds data done)
    (hdone : ∀ e ∈ done, e.Readable) : ∃ ls es, data = ls.flatten ∧ List.Forall₂ (LineOf py) ls es ∧ Accounts es done
      ∧ (es = [] ∨ ∃ front last, ls = front ++ [last.line] ∧ es.getLast? = some last ∧ last ∈ done) := by
  cases h with
  | whole content first =>
    refine ⟨_, done, content, lines_events py hdone, .inl rfl, ?_⟩
    induction done using List.reverseRecOn with
    | nil => exact .inl rfl
    | append_singleton front last =>
      exact .inr ⟨lines front, last, by simp [lines], by simp, by simp⟩
  | cut gone kept at_time split some_kept content =>
    have hkept : ∀ e ∈ kept, e.Readable := fun e he => hdone e (split ▸ List.mem_append_right gone he)
    refine ⟨(truncationMarker at_time gone.length).markerLine :: lines kept,
      truncationMarker at_time gone.length :: kept, content, ?_, ?_, .inr ?_⟩
    · exact .cons (TranscriptEvent.lineOf_markerLine py (readable_truncationMarker _ _)) (lines_events py hkept)
    · exact .inr ⟨_, kept, rfl, rfl, ⟨gone, split.symm⟩, by simp [truncationMarker, split]⟩
    · obtain ⟨front, last, rfl⟩ := List.eq_nil_or_concat kept |>.resolve_left some_kept
      refine ⟨(truncationMarker at_time gone.length).markerLine :: lines front, last, by simp [lines], ?_, by simp [split]⟩
      rw [List.concat_eq_append, ← List.cons_append, List.getLast?_concat]

/-- An event that is read as it is, with a line within the bound and the window
of `last_event`. -/
structure Recorded (E : Nat) (e : TranscriptEvent) : Prop where
  readable : e.Readable
  bounded : e.line.length ≤ E
  window : e.line.length ≤ LAST_EVENT_WINDOW

/-! ## 5. A compaction -/

theorem lines_text (es : List TranscriptEvent) : ∃ text, (lines es).flatten = utf8 text := by
  induction es with
  | nil => exact ⟨[], rfl⟩
  | cons e es ih =>
    obtain ⟨text, htext⟩ := ih
    exact ⟨_, by rw [lines, List.map_cons, List.flatten_cons, ← lines, htext, TranscriptEvent.line, ← utf8_append]⟩

variable (py) in
/-- What a compaction takes for the marker and for the lines behind it. -/
theorem Holds.splitMarker {data : Bytes} {done : List TranscriptEvent} (h : Holds data done)
    (hdone : ∀ e ∈ done, e.Readable) (hne : done ≠ []) : ∃ gone kept, done = gone ++ kept ∧ kept ≠ []
      ∧ Subagents.splitMarker py (bytesLines data) = ((gone.length : Int), lines kept) := by
  cases h with
  | whole content first =>
    refine ⟨[], done, rfl, hne, ?_⟩
    rw [content, bytesLines_flatten (whole_of_lines (lines_events py hdone))]
    cases done with
    | nil => exact absurd rfl hne
    | cons e done =>
      have he := TranscriptEvent.lineOf_line py (hdone e List.mem_cons_self)
      rw [lines, List.map_cons, Subagents.splitMarker, he.event]
      exact if_neg (first e rfl)
  | cut gone kept at_time split some_kept content =>
    refine ⟨gone, kept, split, some_kept, ?_⟩
    have hmarker := TranscriptEvent.lineOf_markerLine py (readable_truncationMarker at_time gone.length)
    have hkept : ∀ e ∈ kept, e.Readable := fun e he => hdone e (split ▸ List.mem_append_right gone he)
    rw [content, bytesLines_line hmarker.whole, bytesLines_flatten (whole_of_lines (lines_events py hkept)),
      Subagents.splitMarker, hmarker.event]
    rfl

variable (py) in
/-- **Compaction** keeps the newest events and counts the others. -/
theorem Holds.compact {data : Bytes} {done : List TranscriptEvent} (h : Holds data done)
    (hdone : ∀ e ∈ done, e.Readable) (hne : done ≠ []) (limit : Nat) (hfits : ∀ e ∈ done, e.line.length ≤ limit / 2) :
    ∃ content, Subagents.compact py limit data = some content ∧ Holds content done
      ∧ content.length ≤ (compaction py limit data).1.markerLine.length + limit / 2 := by
  obtain ⟨gone, kept, hsplit, hkept, hmarker⟩ := h.splitMarker py hdone hne
  obtain ⟨dropped, hdropped⟩ := keepNewest_suffix (limit / 2) (lines kept)
  obtain ⟨older, newer, holder, hpre, hnewer⟩ := List.map_eq_append_iff.mp hdropped.symm
  have hsome : newer ≠ [] := by
    obtain ⟨front, last, rfl⟩ := List.eq_nil_or_concat kept |>.resolve_left hkept
    have hlast : last.line.length ≤ limit / 2 := hfits last (by simp [hsplit])
    have hkeep := @keepNewest_ne_nil _ (lines front) _ hlast
    rintro rfl
    rw [List.concat_eq_append, lines, List.map_append, List.map_singleton] at hnewer
    exact hkeep hnewer.symm
  have hcompaction : ∃ at_time, compaction py limit data
      = (truncationMarker at_time (gone ++ older).length, lines newer) := by
    refine ⟨((keepNewest (limit / 2) (lines kept)).head?.map (eventTime py)).getD PyFloat.zero, ?_⟩
    rw [compaction, hmarker]
    have hcount : ((gone.length : Int) + (lines kept).length - (keepNewest (limit / 2) (lines kept)).length)
        = ((gone ++ older).length : Nat) := by
      rw [← hnewer, holder]
      simp [lines]
      omega
    rw [show lines newer = keepNewest (limit / 2) (lines kept) from hnewer]
    simp only [hcount]
  obtain ⟨at_time, hcompaction⟩ := hcompaction
  obtain ⟨text, htext⟩ := lines_text newer
  have hdecodes : (decodeUtf8 ((truncationMarker at_time (gone ++ older).length).markerLine
      ++ (lines newer).flatten)).isSome = true := by
    rw [TranscriptEvent.markerLine, htext, ← utf8_append, utf8, decodeUtf8_encode]
    rfl
  refine ⟨_, ?_, .cut (gone ++ older) newer at_time ?_ hsome rfl, ?_⟩
  · rw [Subagents.compact, hcompaction]
    exact if_pos hdecodes
  · rw [hsplit, holder, List.append_assoc]
  · have hbound := keepNewest_length (limit / 2) (lines kept)
    rw [hcompaction, List.length_append, show lines newer = keepNewest (limit / 2) (lines kept) from hnewer]
    exact Nat.add_le_add_left hbound _

/-! ## 6. One more line -/

theorem Holds.data_eq_nil {data : Bytes} (h : Holds data []) : data = [] := by
  cases h with
  | whole content first => exact content
  | cut gone kept at_time split some_kept content =>
    exact absurd (List.append_eq_nil_iff.mp split.symm).2 some_kept

theorem Holds.append {data : Bytes} {done : List TranscriptEvent} (h : Holds data done) {e : TranscriptEvent}
    (hfirst : e.kind = "truncated" → done ≠ []) : Holds (data ++ e.line) (done ++ [e]) := by
  cases h with
  | whole content first =>
    refine .whole (by rw [content]; simp [lines]) ?_
    cases done with
    | nil =>
      intro e' he'
      obtain rfl : e = e' := Option.some.inj he'
      exact fun hkind => hfirst hkind rfl
    | cons e' done => exact first
  | cut gone kept at_time split some_kept content =>
    refine .cut gone (kept ++ [e]) at_time ?_ (by simp) ?_
    · rw [split, List.append_assoc]
    · rw [content]
      simp [lines]

/-! ## 7. The reader that follows -/

/-- The reader has read this content up to its offset. -/
structure TranscriptTail.Follows (py : Interp) (data : Bytes) (t : TranscriptTail) : Prop where
  offset : t.offset ≤ data.length
  partial_line : t.partial_line = ((data.take t.offset).splitOn 0x0A).getLastD []
  events : t.events = ((data.take t.offset).splitOn 0x0A).dropLast.filterMap (lineEvent py)

/-- What is written behind its offset does not change what it has read. -/
theorem TranscriptTail.Follows.append {data : Bytes} {t : TranscriptTail} (h : t.Follows py data) (more : Bytes) :
    t.Follows py (data ++ more) where
  offset := by
    rw [List.length_append]
    exact Nat.le_add_right_of_le h.offset
  partial_line := by rw [List.take_append_of_le_length h.offset, h.partial_line]
  events := by rw [List.take_append_of_le_length h.offset, h.events]

/-- A reader of this file stays one, and has read the whole of it. -/
theorem TranscriptTail.refresh_follows {file : TranscriptFile} {t : TranscriptTail}
    (h : t.identity = some file.identity → t.Follows py file.data) :
    (t.refresh py (some file)).identity = some file.identity ∧ (t.refresh py (some file)).offset = file.data.length
      ∧ (t.refresh py (some file)).Follows py file.data := by
  -- the reader looks from where it stands: at the start, or where it was
  obtain ⟨from_, hfrom, hidentity, hfollows⟩ : ∃ from_ : TranscriptTail,
      (if some file.identity ≠ t.identity ∨ file.data.length < t.offset then { identity := some file.identity } else t)
        = from_ ∧ from_.identity = some file.identity ∧ from_.Follows py file.data := by
    refine ⟨_, rfl, ?_⟩
    split
    · exact ⟨rfl, Nat.zero_le _, rfl, rfl⟩
    · next hsame =>
      rw [not_or, not_not] at hsame
      exact ⟨hsame.1.symm, h hsame.1.symm⟩
  have hpieces : file.data.splitOn 0x0A = ((file.data.take from_.offset).splitOn 0x0A).dropLast
      ++ (from_.partial_line ++ file.data.drop from_.offset).splitOn 0x0A := by
    rw [hfollows.partial_line, ← splitOn_append_last, List.take_append_drop]
  have hne : (from_.partial_line ++ file.data.drop from_.offset).splitOn 0x0A ≠ [] := List.splitOn_ne_nil _ _
  simp only [TranscriptTail.refresh, hfrom]
  split
  · next hend => exact ⟨hidentity, hend.symm, hfollows⟩
  · refine ⟨hidentity, rfl, le_refl _, ?_, ?_⟩
    · simp only [List.take_length]
      rw [hpieces, List.getLastD_eq_getLast?, List.getLastD_eq_getLast?, List.getLast?_append_of_ne_nil _ hne]
    · simp only [List.take_length]
      rw [hpieces, List.dropLast_append_of_ne_nil hne, List.filterMap_append, hfollows.events]

/-! ## 8. Every step of a run -/

/-- A file that replaces another never gets the identity of the one the reader
saw last. -/
def Fresh (w : TranscriptWorld) : TranscriptAction → Prop
  | .start _ identity => w.tail.identity ≠ some identity
  | _ => True

/-- The bounds of the encoded events and of the markers that are written. -/
def Bounded (c : TranscriptConfig) (E M : Nat) (w : TranscriptWorld) : TranscriptAction → Prop
  | .start event _ => (c.safe event).line.length ≤ E
      ∧ (c.limit < w.knownSize + (c.safe event).line.length → (compaction c.py c.limit w.data).1.markerLine.length ≤ M)
  | _ => True

/-- Nothing of the line has been written. -/
def WriterPhase.Untouched : WriterPhase → Prop
  | .idle => True
  | .writing event rest _ => rest = event.line

/-- Where the writer keeps its promise: events of a known kind whose line the
window of `last_event` holds, the first of them no marker, and an append that
fails has written nothing. -/
def Meets (c : TranscriptConfig) (w : TranscriptWorld) : TranscriptAction → Prop
  | .start event _ => event.kind ∈ TRANSCRIPT_KINDS ∧ (event.kind = "truncated" → w.data ≠ [])
      ∧ (c.safe event).line.length ≤ LAST_EVENT_WINDOW
  | .fail => w.phase.Untouched
  | _ => True

/-- Where the writer stands in the file. -/
def WriterStands (c : TranscriptConfig) (E : Nat) (w : TranscriptWorld) : WriterPhase → Prop
  | .idle => Holds w.data w.done ∧ w.data.length ≤ c.limit ∧ ∀ s ∈ w.size, w.data.length ≤ s
  | .writing event rest size => ∃ base begun, w.data = base ++ begun ∧ event.line = begun ++ rest
      ∧ Holds base w.done ∧ Recorded E event ∧ (event.kind = "truncated" → w.done ≠ [])
      ∧ base.length ≤ size ∧ size + event.line.length ≤ c.limit ∧ ∀ s ∈ w.size, base.length ≤ s

structure TranscriptInv (c : TranscriptConfig) (E : Nat) (w : TranscriptWorld) : Prop where
  recorded : ∀ e ∈ w.done, Recorded E e
  known : ∀ s ∈ w.size, w.done ≠ []
  stands : WriterStands c E w w.phase
  reader : ∀ f ∈ w.file, w.tail.identity = some f.identity → w.tail.Follows c.py f.data
  unread : w.file = none → w.tail = {}

variable {c : TranscriptConfig} {E M : Nat}

theorem transcriptInv_init : TranscriptInv c E {} where
  recorded _ he := absurd he List.not_mem_nil
  known s hs := absurd hs (Option.not_mem_none s)
  stands := ⟨.whole rfl fun e he => absurd he (Option.not_mem_none e), Nat.zero_le _,
    fun s hs => absurd hs (Option.not_mem_none s)⟩
  reader f hf := absurd hf (Option.not_mem_none f)
  unread _ := rfl

theorem TranscriptInv.refresh {w : TranscriptWorld} (h : TranscriptInv c E w) :
    TranscriptInv c E (w.step c .refresh) where
  recorded := h.recorded
  known := h.known
  stands := h.stands
  reader f hf _ := by
    change (w.tail.refresh c.py w.file).Follows c.py f.data
    rw [show w.file = some f from hf]
    exact (TranscriptTail.refresh_follows (h.reader f hf)).2.2
  unread hnone := by
    change w.tail.refresh c.py w.file = {}
    rw [show w.file = none from hnone]
    exact h.unread hnone

theorem TranscriptInv.restart {w : TranscriptWorld} (h : TranscriptInv c E w) :
    TranscriptInv c E (w.step c .restart) := by
  cases hphase : w.phase with
  | writing event rest size =>
    rw [TranscriptWorld.step, hphase]
    exact h
  | idle =>
    have hstands := h.stands
    rw [hphase] at hstands
    rw [TranscriptWorld.step, hphase]
    refine ⟨h.recorded, fun s hs => absurd hs (Option.not_mem_none s), ?_, h.reader, h.unread⟩
    exact ⟨hstands.1, hstands.2.1, fun s hs => absurd hs (Option.not_mem_none s)⟩

/-- Before the first event the writer takes the file to be empty. -/
theorem knownSize_of_nil {w : TranscriptWorld} (hknown : ∀ s ∈ w.size, w.done ≠ []) (hdata : Holds w.data w.done)
    (hdone : w.done = []) : w.knownSize = 0 := by
  have hsize : w.size = none := by
    cases hs : w.size with
    | none => rfl
    | some s => exact absurd hdone (hknown s hs)
  rw [hdone] at hdata
  rw [TranscriptWorld.knownSize, hsize, hdata.data_eq_nil]
  rfl

theorem TranscriptInv.beginAppend {w : TranscriptWorld} (h : TranscriptInv c E w) (hidle : w.phase = .idle)
    (hlimit : 2 * (E + M) ≤ c.limit) {e : TranscriptEvent} (he : Recorded E e) {identity : Nat}
    (hfresh : w.tail.identity ≠ some identity)
    (hmarker : c.limit < w.knownSize + e.line.length → (compaction c.py c.limit w.data).1.markerLine.length ≤ M)
    (hfirst : e.kind = "truncated" → w.data ≠ []) : TranscriptInv c E (w.beginAppend c e identity) := by
  have hstands := h.stands
  rw [hidle] at hstands
  obtain ⟨hdata, hlength, hsize⟩ := hstands
  have hbound := he.bounded
  have hsome : e.kind = "truncated" → w.done ≠ [] := by
    intro hkind hnil
    rw [hnil] at hdata
    exact hfirst hkind hdata.data_eq_nil
  rw [TranscriptWorld.beginAppend]
  by_cases hfull : c.limit < w.knownSize + e.line.length
  · rw [if_pos hfull]
    have hne : w.done ≠ [] := by
      intro hnil
      rw [knownSize_of_nil h.known hdata hnil] at hfull
      omega
    obtain ⟨content, hcontent, hholds, hshort⟩ := hdata.compact c.py (fun e he => (h.recorded e he).readable) hne
      c.limit (fun e he => (h.recorded e he).bounded.trans (by omega))
    have hsmall := hmarker hfull
    simp only [hcontent]
    refine ⟨h.recorded, h.known, ?_, ?_, fun hnone => by cases hnone⟩
    · refine ⟨content, [], (List.append_nil _).symm, rfl, hholds, he, hsome, le_refl _, by omega, ?_⟩
      intro s hs
      have hsame : w.knownSize = s := by
        rw [TranscriptWorld.knownSize, show w.size = some s from hs]
        rfl
      omega
    · intro f hf hsame
      obtain rfl : TranscriptFile.mk identity content = f := Option.some.inj hf
      exact absurd hsame hfresh
  · rw [if_neg hfull]
    refine ⟨h.recorded, h.known, ?_, h.reader, h.unread⟩
    refine ⟨w.data, [], (List.append_nil _).symm, rfl, hdata, he, hsome, ?_, Nat.le_of_not_lt hfull, hsize⟩
    rw [TranscriptWorld.knownSize]
    cases hs : w.size with
    | none => exact le_refl _
    | some s => exact hsize s hs

theorem TranscriptInv.write {w : TranscriptWorld} (h : TranscriptInv c E w) (count identity : Nat) :
    TranscriptInv c E (w.step c (.write count identity)) := by
  cases hphase : w.phase with
  | idle =>
    rw [TranscriptWorld.step, hphase]
    exact h
  | writing event rest size =>
    have hstands := h.stands
    rw [hphase] at hstands
    obtain ⟨base, begun, hdata, hline, hrest⟩ := hstands
    rw [TranscriptWorld.step, hphase]
    refine ⟨h.recorded, h.known, ?_, ?_, fun hnone => by cases hnone⟩
    · refine ⟨base, begun ++ rest.take count, ?_, ?_, hrest⟩
      · rw [← List.append_assoc, ← hdata]
        rfl
      · rw [List.append_assoc, List.take_append_drop, hline]
    · intro f hf hsame
      obtain rfl := Option.some.inj hf
      cases hfile : w.file with
      | none =>
        rw [h.unread hfile] at hsame
        cases hsame
      | some file =>
        have hread := h.reader file hfile (by simpa [hfile] using hsame)
        have hbytes : w.data = file.data := by simp [TranscriptWorld.data, hfile]
        simp only [hbytes]
        exact hread.append _

theorem TranscriptInv.finish {w : TranscriptWorld} (h : TranscriptInv c E w) :
    TranscriptInv c E (w.step c .finish) := by
  cases hphase : w.phase with
  | idle =>
    rw [TranscriptWorld.step, hphase]
    exact h
  | writing event rest size =>
    cases rest with
    | cons b rest =>
      rw [TranscriptWorld.step, hphase]
      exact h
    | nil =>
      have hstands := h.stands
      rw [hphase] at hstands
      obtain ⟨base, begun, hdata, hline, hholds, hevent, hfirst, hsize, hlimit, -⟩ := hstands
      rw [List.append_nil] at hline
      have hlength : w.data.length = base.length + event.line.length := by rw [hdata, List.length_append, hline]
      rw [TranscriptWorld.step, hphase]
      refine ⟨?_, fun s _ => by simp, ⟨?_, ?_, ?_⟩, h.reader, h.unread⟩
      · intro e he
        obtain he | he := List.mem_append.mp he
        · exact h.recorded e he
        · rw [List.mem_singleton.mp he]
          exact hevent
      · have happend := hholds.append hfirst
        rwa [hline, ← hdata] at happend
      · change w.data.length ≤ c.limit
        omega
      · intro s hs
        obtain rfl : size + event.line.length = s := Option.some.inj hs
        change w.data.length ≤ _
        omega

theorem TranscriptInv.fail {w : TranscriptWorld} (h : TranscriptInv c E w) (huntouched : w.phase.Untouched) :
    TranscriptInv c E (w.step c .fail) := by
  refine ⟨h.recorded, h.known, ?_, h.reader, h.unread⟩
  have hstands := h.stands
  cases hphase : w.phase with
  | idle =>
    rw [hphase] at hstands
    exact hstands
  | writing event rest size =>
    rw [hphase] at hstands huntouched
    obtain ⟨base, begun, hdata, hline, hholds, -, -, hsize, hlimit, hknown⟩ := hstands
    obtain rfl : rest = event.line := huntouched
    obtain rfl : begun = [] := List.eq_nil_of_length_eq_zero (by
      have := congrArg List.length hline
      rw [List.length_append] at this
      omega)
    rw [List.append_nil] at hdata
    subst hdata
    exact ⟨hholds, by change w.data.length ≤ _; omega, hknown⟩

theorem TranscriptInv.step (hlimit : 2 * (E + M) ≤ c.limit) (w : TranscriptWorld) (a : TranscriptAction)
    (h : TranscriptInv c E w) (hok : (Fresh w a ∧ Bounded c E M w a) ∧ Meets c w a) :
    TranscriptInv c E (w.step c a) := by
  obtain ⟨⟨hfresh, hbounded⟩, hmeets⟩ := hok
  cases a with
  | refresh => exact h.refresh
  | restart => exact h.restart
  | start event identity =>
    cases hphase : w.phase with
    | writing event' rest size =>
      rw [TranscriptWorld.step, hphase]
      exact h
    | idle =>
      obtain ⟨hkind, hfirst, hwindow⟩ := hmeets
      have he : Recorded E (c.safe event) :=
        ⟨TranscriptEvent.readable_safe hkind _ _ _, hbounded.1, hwindow⟩
      rw [TranscriptWorld.step, hphase]
      exact h.beginAppend hphase hlimit he hfresh hbounded.2 hfirst
  | write count identity => exact h.write count identity
  | finish => exact h.finish
  | fail => exact h.fail hmeets

/-! ## 9. The readers agree -/

/-- What is promised of a file at rest. -/
structure TranscriptWorld.Agrees (c : TranscriptConfig) (w : TranscriptWorld) : Prop where
  accounts : Accounts (readTranscript c.py w.data) w.done
  tail : (w.tail.refresh c.py w.file).events = readTranscript c.py w.data
  last : lastEvent c.py w.data = (readTranscript c.py w.data).getLast?

theorem TranscriptInv.length_le {w : TranscriptWorld} (h : TranscriptInv c E w) : w.data.length ≤ c.limit := by
  have hstands := h.stands
  cases hphase : w.phase with
  | idle =>
    rw [hphase] at hstands
    exact hstands.2.1
  | writing event rest size =>
    rw [hphase] at hstands
    obtain ⟨base, begun, hdata, hline, -, -, -, hsize, hlimit, -⟩ := hstands
    have hlength := congrArg List.length hline
    rw [List.length_append] at hlength
    rw [hdata, List.length_append]
    omega

theorem TranscriptInv.tail_events {w : TranscriptWorld} (h : TranscriptInv c E w) {ls : List Bytes}
    {es : List TranscriptEvent} (hdata : w.data = ls.flatten) (hlines : List.Forall₂ (LineOf c.py) ls es) :
    (w.tail.refresh c.py w.file).events = es := by
  cases hfile : w.file with
  | none =>
    have hnil : w.data = [] := by simp [TranscriptWorld.data, hfile]
    have hes : es = [] := by
      rw [← readTranscript_lines hlines, ← hdata, hnil]
      rfl
    rw [h.unread hfile, hes]
    rfl
  | some file =>
    obtain ⟨-, hoffset, hfollows⟩ := TranscriptTail.refresh_follows (h.reader file hfile)
    have hbytes : file.data = ls.flatten := by rw [← hdata, TranscriptWorld.data, hfile, Option.map_some, Option.getD_some]
    rw [hfollows.events, hoffset, List.take_length, hbytes, splitOn_flatten (whole_of_lines hlines),
      List.dropLast_concat, events_of_lines hlines]

theorem TranscriptInv.agrees {w : TranscriptWorld} (h : TranscriptInv c E w) (hidle : w.phase = .idle) : w.Agrees c := by
  have hstands := h.stands
  rw [hidle] at hstands
  obtain ⟨ls, es, hdata, hlines, haccounts, hlast⟩ :=
    hstands.1.read c.py fun e he => (h.recorded e he).readable
  have hread : readTranscript c.py w.data = es := by rw [hdata, readTranscript_lines hlines]
  refine ⟨by rwa [hread], by rw [hread, h.tail_events hdata hlines], ?_⟩
  rw [hread]
  obtain rfl | ⟨front, last, rfl, hlast, hmem⟩ := hlast
  · cases hlines
    rw [hdata]
    rfl
  · have hlast' := h.recorded last hmem
    rw [hlast, hdata, List.flatten_append, List.flatten_singleton]
    refine lastEvent_lines (fun l hl => ?_) (TranscriptEvent.lineOf_line c.py hlast'.readable) hlast'.window
    exact whole_of_lines hlines l (List.mem_append_left _ hl)

instance (w : TranscriptWorld) : ∀ a, Decidable (Fresh w a)
  | .start _ identity => inferInstanceAs (Decidable (w.tail.identity ≠ some identity))
  | .refresh | .restart | .write .. | .finish | .fail => isTrue trivial

instance (c : TranscriptConfig) (E M : Nat) (w : TranscriptWorld) : ∀ a, Decidable (Bounded c E M w a)
  | .start event _ => inferInstanceAs (Decidable ((c.safe event).line.length ≤ E ∧ (_ → _ ≤ M)))
  | .refresh | .restart | .write .. | .finish | .fail => isTrue trivial

instance : ∀ p : WriterPhase, Decidable p.Untouched
  | .idle => isTrue trivial
  | .writing event rest _ => inferInstanceAs (Decidable (rest = event.line))

instance (c : TranscriptConfig) (w : TranscriptWorld) : ∀ a, Decidable (Meets c w a)
  | .start event _ => inferInstanceAs (Decidable (event.kind ∈ TRANSCRIPT_KINDS ∧ (_ → w.data ≠ []) ∧ _ ≤ _))
  | .fail => inferInstanceAs (Decidable w.phase.Untouched)
  | .refresh | .restart | .write .. | .finish => isTrue trivial

/-- **A transcript accounts for its events.** In a run whose steps meet the
condition the file never exceeds the limit, and at rest it stands for every
append that succeeded, to each of its readers. -/
theorem transcript_agrees (hlimit : 2 * (E + M) ≤ c.limit) (actions : List TranscriptAction)
    (hbounded : RunOk (TranscriptWorld.step c) (fun w a => Fresh w a ∧ Bounded c E M w a) {} actions)
    (hmeets : RunOk (TranscriptWorld.step c) (Meets c) {} actions) (k : Nat) :
    ((actions.take k).foldl (TranscriptWorld.step c) {}).data.length ≤ c.limit
      ∧ (((actions.take k).foldl (TranscriptWorld.step c) {}).phase = .idle →
          ((actions.take k).foldl (TranscriptWorld.step c) {}).Agrees c) := by
  have h : TranscriptInv c E ((actions.take k).foldl (TranscriptWorld.step c) {}) :=
    (hbounded.and hmeets).invariant (TranscriptInv.step hlimit) transcriptInv_init k
  exact ⟨h.length_le, h.agrees⟩

/-! ### Two runs -/

/-- A writer with the limit of the source. -/
def sampleWriter : TranscriptConfig where
  py := plainInterp
  redact := id
  pool_id := "pool"
  worker_id := "w1"
  limit := 2097152

def said (text : String) : TranscriptEvent := { kind := "text", at_time := PyFloat.zero, text }

/-- An append from its start to its end, with a look of the reader in between. -/
def wholeAppend (e : TranscriptEvent) (identity : Nat) : List TranscriptAction :=
  [.start e identity, .write 40 identity, .refresh, .write 1000 identity, .finish]

/-- An append that fails after this many bytes, between two that succeed. -/
def failingRun (count : Nat) : List TranscriptAction :=
  wholeAppend (said "one") 1 ++ TranscriptAction.start (said "two") 2 :: .write count 2 :: .fail
    :: wholeAppend (said "three") 3

theorem transcript_agrees_sample :
    ((failingRun 0).foldl (TranscriptWorld.step sampleWriter) {}).data.length ≤ 2097152
      ∧ ((failingRun 0).foldl (TranscriptWorld.step sampleWriter) {}).Agrees sampleWriter := by
  have h := transcript_agrees (show 2 * (1000 + 1000) ≤ sampleWriter.limit by decide)
    (failingRun 0) (by decide +kernel) (by decide +kernel) (failingRun 0).length
  rw [List.take_length] at h
  exact ⟨h.1, h.2 (by decide +kernel)⟩

/-- The line of an event ends up behind the piece of another, and neither is
read. -/
theorem torn_append_loses_the_next :
    RunOk (TranscriptWorld.step sampleWriter) (fun w a => Fresh w a ∧ Bounded sampleWriter 1000 1000 w a) {}
        (failingRun 40)
      ∧ ((failingRun 40).foldl (TranscriptWorld.step sampleWriter) {}).phase = .idle
      ∧ ((failingRun 40).foldl (TranscriptWorld.step sampleWriter) {}).done.map TranscriptEvent.text = ["one", "three"]
      ∧ ¬ ((failingRun 40).foldl (TranscriptWorld.step sampleWriter) {}).Agrees sampleWriter := by
  have hdone : ((failingRun 40).foldl (TranscriptWorld.step sampleWriter) {}).done.map TranscriptEvent.text
      = ["one", "three"] := by decide +kernel
  have hread : (readTranscript plainInterp ((failingRun 40).foldl (TranscriptWorld.step sampleWriter) {}).data).map
      (fun e => (e.kind, e.text)) = [("text", "one")] := by decide +kernel
  refine ⟨by decide +kernel, by decide +kernel, hdone, fun h => ?_⟩
  obtain heq | ⟨marker, kept, heq, hkind, -⟩ := h.accounts
  · have htexts := congrArg (List.map TranscriptEvent.text) heq
    rw [hdone] at htexts
    have hone := congrArg (List.map Prod.snd) hread
    rw [List.map_map] at hone
    exact absurd (htexts.symm.trans hone) (by decide)
  · rw [show sampleWriter.py = plainInterp from rfl] at heq
    rw [heq, List.map_cons, List.cons.injEq, hkind] at hread
    exact absurd hread.1 (by simp)

end Agenthicc.Subagents
