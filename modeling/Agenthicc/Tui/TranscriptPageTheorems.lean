/-
Agenthicc.Tui.TranscriptPageTheorems — the pages of a log show its records,
each once and in order.

`records` are the lines of some bytes that are not empty, with their offsets.
`Shown` says that entries show records: a record that is an event has one
entry, the event or a marker; only a malformed one may have none. The loop of
a page keeps that for what is behind the line it stands at (`Inv`), a page for
what is between its cursor and the next one (`page_spec`), and the pages of a
session together for the whole log.
-/
import Agenthicc.Tui.TranscriptPages
import Agenthicc.Tui.TranscriptTheorems

open Python

namespace Agenthicc.Tui

/-! ## 1. Records -/

/-- A line that is not empty, and where it stands; `stop` is behind its line
break, if it has one. -/
structure Record where
  start : Nat
  stop : Nat
  body : Bytes

/-- The records of lines that begin at an offset. -/
def recordsOf : Nat → List Bytes → List Record
  | _, [] => []
  | base, [line] => if line = [] then [] else [⟨base, base + line.length, line⟩]
  | base, line :: rest =>
      (if line = [] then [] else [⟨base, base + line.length + 1, line⟩]) ++ recordsOf (base + line.length + 1) rest

def records (base : Nat) (bytes : Bytes) : List Record := recordsOf base (bytes.splitOn 0x0A)

theorem records_nil (base : Nat) : records base [] = [] := rfl

theorem records_last (base : Nat) {line : Bytes} (h : 0x0A ∉ line) :
    records base line = if line = [] then [] else [⟨base, base + line.length, line⟩] := by
  rw [records, List.splitOn_eq_singleton h]
  rfl

theorem records_line (base : Nat) {line : Bytes} (h : 0x0A ∉ line) (rest : Bytes) :
    records base (line ++ 0x0A :: rest)
      = (if line = [] then [] else [⟨base, base + line.length + 1, line⟩]) ++ records (base + line.length + 1) rest := by
  rw [records, List.splitOn_append_cons_self_of_not_mem h, records]
  cases hrest : rest.splitOn 0x0A with
  | nil => exact absurd hrest (List.splitOn_ne_nil _ _)
  | cons l ls => rfl

/-- Bytes that end with a line. -/
def EndsLine (bytes : Bytes) : Prop := bytes = [] ∨ ∃ front, bytes = front ++ [0x0A]

theorem records_append (base : Nat) {front : Bytes} (h : EndsLine front) (back : Bytes) :
    records base (front ++ back) = records base front ++ records (base + front.length) back := by
  induction hn : front.length using Nat.strong_induction_on generalizing front base with
  | _ n ih =>
    obtain rfl | ⟨lines, rfl⟩ := h
    · simp [records_nil, ← hn]
    · by_cases hmem : 0x0A ∈ lines
      · obtain ⟨line, rest, rfl, hline⟩ := List.eq_append_cons_of_mem hmem
        have hsplit : line ++ 0x0A :: rest ++ [0x0A] = line ++ 0x0A :: (rest ++ [0x0A]) := by simp
        have hlength : (rest ++ [(0x0A : UInt8)]).length < n := by
          rw [← hn]
          simp
          omega
        have hbase : base + line.length + 1 + (rest ++ [(0x0A : UInt8)]).length = base + n := by
          rw [← hn]
          simp
          omega
        rw [hsplit, List.append_assoc line, List.cons_append, records_line base hline, records_line base hline,
          ih _ hlength (base + line.length + 1) (.inr ⟨rest, rfl⟩) rfl, List.append_assoc, hbase]
      · have hlength : n = lines.length + 1 := by
          rw [← hn]
          simp
        rw [List.append_assoc, List.singleton_append, records_line base hmem, records_line base hmem, records_nil,
          List.append_nil, hlength]
        rfl

/-! ## 2. What entries show -/

variable {py : Interp} {session_id : String}

/-- The event of a record. -/
def Record.event (py : Interp) (r : Record) : Option ConversationEvent := decodeEvent py false (trimReturn r.body)

/-- The entry shows the record: as its event, or as a marker of it or of its
end. -/
def Shows (py : Interp) (session_id : String) (r : Record) (e : TranscriptEntry) : Prop :=
  e.end_offset = r.stop
    ∧ (e.oversized = false ∧ e.partial_line = false ∧ e.start_offset = r.start ∧ r.event py = some e.event
      ∨ e.oversized = true
        ∧ e.event = oversizedPreviewEvent session_id e.start_offset e.end_offset e.partial_line false
        ∧ if e.partial_line then r.start < e.start_offset ∧ e.start_offset < r.stop else e.start_offset = r.start)

/-- The entries show the records: each once and in order, and a record without
an entry is malformed. -/
inductive Shown (py : Interp) (session_id : String) : List Record → List TranscriptEntry → Prop
  | nil : Shown py session_id [] []
  | entry {r : Record} {e : TranscriptEntry} {rs : List Record} {es : List TranscriptEntry} :
      Shows py session_id r e → Shown py session_id rs es → Shown py session_id (r :: rs) (e :: es)
  | malformed {r : Record} {rs : List Record} {es : List TranscriptEntry} :
      r.event py = none → Shown py session_id rs es → Shown py session_id (r :: rs) es

theorem Shown.append {rs rs' : List Record} {es es' : List TranscriptEntry} (h : Shown py session_id rs es)
    (h' : Shown py session_id rs' es') : Shown py session_id (rs ++ rs') (es ++ es') := by
  induction h with
  | nil => exact h'
  | entry hshows _ ih => exact .entry hshows ih
  | malformed hnone _ ih => exact .malformed hnone ih

/-! ## 3. Line breaks in a window -/

variable {window : Bytes}

theorem rfindNewline_eq_none {stop : Nat} (h : rfindNewline window stop = none) : 0x0A ∉ window.take stop := by
  induction stop with
  | zero => simp
  | succ n ih =>
    rw [rfindNewline] at h
    split at h
    · cases h
    · next hn =>
      rw [List.take_add_one, List.mem_append, not_or]
      refine ⟨ih h, ?_⟩
      rw [Option.mem_toList]
      exact hn

theorem rfindNewline_eq_some {stop i : Nat} (h : rfindNewline window stop = some i) :
    window[i]? = some 0x0A ∧ 0x0A ∉ (window.take stop).drop (i + 1) := by
  induction stop with
  | zero => cases h
  | succ n ih =>
    rw [rfindNewline] at h
    split at h
    · next hn =>
      obtain rfl := Option.some.inj h
      refine ⟨hn, ?_⟩
      rw [List.drop_of_length_le (by rw [List.length_take]; omega)]
      simp
    · next hn =>
      obtain ⟨hi, hbehind⟩ := ih h
      refine ⟨hi, ?_⟩
      have hlt := rfindNewline_lt h
      rw [List.take_add_one, List.drop_append, List.mem_append, not_or]
      refine ⟨hbehind, fun hmem => ?_⟩
      exact hn (Option.mem_toList.mp (List.mem_of_mem_drop hmem))

/-- An offset at which a line begins. -/
def LineStart (window : Bytes) (i : Nat) : Prop := i = 0 ∨ window[i - 1]? = some 0x0A

/-- Where the line that ends at an offset begins. -/
def lineStart (window : Bytes) (line_end : Nat) : Nat :=
  match rfindNewline window line_end with
  | none => 0
  | some previous_newline => previous_newline + 1

/-- Where the lines behind it begin. -/
def lineStop (window : Bytes) (line_end : Nat) : Nat := if line_end < window.length then line_end + 1 else line_end

theorem lineStart_le (window : Bytes) (line_end : Nat) : lineStart window line_end ≤ line_end := by
  rw [lineStart]
  cases h : rfindNewline window line_end with
  | none => exact Nat.zero_le _
  | some i => exact rfindNewline_lt h

theorem lineStart_isStart (window : Bytes) (line_end : Nat) : LineStart window (lineStart window line_end) := by
  rw [lineStart]
  cases h : rfindNewline window line_end with
  | none => exact .inl rfl
  | some i => exact .inr (rfindNewline_eq_some h).1

theorem not_mem_line (window : Bytes) (line_end : Nat) :
    0x0A ∉ (window.take line_end).drop (lineStart window line_end) := by
  rw [lineStart]
  cases h : rfindNewline window line_end with
  | none => exact rfindNewline_eq_none h
  | some i => exact (rfindNewline_eq_some h).2

/-- The offset is the end of a line. -/
def LineEnd (window : Bytes) (line_end : Nat) : Prop :=
  line_end = window.length ∨ window[line_end]? = some 0x0A

theorem LineEnd.le {line_end : Nat} (h : LineEnd window line_end) : line_end ≤ window.length := by
  obtain rfl | h := h
  · exact le_rfl
  · exact (List.getElem?_eq_some_iff.mp h).1.le

/-- The records from the start of a line on: its own, and those behind it. -/
theorem records_lineStart (base : Nat) {line_end : Nat} (h : LineEnd window line_end) :
    records (base + lineStart window line_end) (window.drop (lineStart window line_end))
      = (if (window.take line_end).drop (lineStart window line_end) = [] then [] else
          [⟨base + lineStart window line_end, base + lineStop window line_end,
            (window.take line_end).drop (lineStart window line_end)⟩])
        ++ records (base + lineStop window line_end) (window.drop (lineStop window line_end)) := by
  have hle := h.le
  have hstart := lineStart_le window line_end
  have hlength : ((window.take line_end).drop (lineStart window line_end)).length
      = line_end - lineStart window line_end := by
    rw [List.length_drop, List.length_take, Nat.min_eq_left hle]
  have hsplit : window.drop (lineStart window line_end)
      = (window.take line_end).drop (lineStart window line_end) ++ window.drop line_end := by
    have hdrop := congrArg (List.drop (lineStart window line_end)) (List.take_append_drop line_end window)
    rwa [List.drop_append_of_le_length (by rw [List.length_take, Nat.min_eq_left hle]; exact hstart), eq_comm] at hdrop
  have hline := not_mem_line window line_end
  rw [hsplit]
  obtain hlast | hbreak := h
  · have hstop : lineStop window line_end = line_end := if_neg (by omega)
    have hbase : base + lineStart window line_end + (line_end - lineStart window line_end) = base + line_end := by omega
    rw [hstop, List.drop_of_length_le (by omega : window.length ≤ line_end), List.append_nil, records_nil,
      List.append_nil, records_last _ hline, hlength, hbase]
  · obtain ⟨hlt, hbyte⟩ := List.getElem?_eq_some_iff.mp hbreak
    have hstop : lineStop window line_end = line_end + 1 := if_pos hlt
    have hdrop : window.drop line_end = 0x0A :: window.drop (line_end + 1) := by
      rw [List.drop_eq_getElem_cons hlt, hbyte]
    have hbase : base + lineStart window line_end + (line_end - lineStart window line_end) + 1
        = base + (line_end + 1) := by omega
    rw [hstop, hdrop, records_line _ hline, hlength, hbase]

/-! ## 4. The loop over records -/

variable {limits : PageLimits} {last_turns : Int} {s : PageScan}

/-- The markers of a session fit into every page. -/
def MarkersFit (session_id : String) (size : Nat) : Prop :=
  ∀ start stop cut, start ≤ size → stop ≤ size →
    markerSize (oversizedPreviewEvent session_id start stop cut false) ≤ 1024

theorem one_le_events : 1 ≤ limits.events := by
  rw [PageLimits.events, MAX_TRANSCRIPT_PREVIEW_EVENTS]
  omega

theorem le_bytes : 1024 ≤ limits.bytes := by
  rw [PageLimits.bytes, MAX_TRANSCRIPT_PREVIEW_BYTES]
  omega

/-- What a record does to the loop: it is shown, or skipped as malformed, or
left for the next page where something was selected. -/
inductive Scanned (py : Interp) (session_id : String) (r : Record) (s : PageScan) : PageScan × Bool → Prop
  | shown {s' : PageScan} {ends : Bool} (e : TranscriptEntry) : Shows py session_id r e → e.start_offset = r.start →
      s'.selected = s.selected ++ [e] → s'.oldest_scanned_offset = some r.start → Scanned py session_id r s (s', ends)
  | malformed {s' : PageScan} : r.event py = none → s'.selected = s.selected → s'.retained_bytes = s.retained_bytes →
      s'.oldest_scanned_offset = some r.start → Scanned py session_id r s (s', false)
  | left {s' : PageScan} : s.selected ≠ [] → s'.selected = s.selected → Scanned py session_id r s (s', true)

theorem select_selected (entry : TranscriptEntry) (cost : Nat) (s : PageScan) :
    (s.select last_turns entry cost).1.selected = s.selected ++ [entry]
      ∧ (s.select last_turns entry cost).1.oldest_scanned_offset = s.oldest_scanned_offset := by
  unfold PageScan.select
  simp only
  split
  · exact ⟨rfl, rfl⟩
  · exact ⟨rfl, rfl⟩

theorem budget_scanned {r : Record} {e : TranscriptEntry} {cost : Nat} {s' : PageScan} {size : Nat}
    (hshows : Shows py session_id r e) (hstart : e.start_offset = r.start) (hfit : MarkersFit session_id size)
    (hsize : r.start ≤ size ∧ r.stop ≤ size) (hselected : s'.selected = s.selected)
    (holdest : s'.oldest_scanned_offset = some r.start) (hcost : e.oversized = true → s.selected = [] →
      s'.retained_bytes + cost ≤ 1024) :
    Scanned py session_id r s (s'.budget session_id limits last_turns false e cost) := by
  have hbytes := @le_bytes limits
  unfold PageScan.budget
  split
  · next hover =>
    by_cases hnone : s.selected = []
    · by_cases hoversized : e.oversized = true
      · have hle := hcost hoversized hnone
        omega
      · have hmarker : markerSize (oversizedPreviewEvent session_id e.start_offset e.end_offset false false)
            ≤ limits.bytes := by
          refine (hfit _ _ _ ?_ ?_).trans hbytes
          · rw [hstart]
            exact hsize.1
          · rw [hshows.1]
            exact hsize.2
        rw [if_pos ⟨by rw [hselected, hnone], by simpa using hoversized⟩]
        simp only [if_pos hmarker]
        refine .shown ⟨oversizedPreviewEvent session_id e.start_offset e.end_offset false false, e.start_offset,
          e.end_offset, true, false⟩ ⟨hshows.1, .inr ⟨rfl, rfl, ?_⟩⟩ hstart (by rw [hselected]) holdest
        simpa using hstart
    · have hleft : Scanned py session_id r s (s', true) := .left hnone hselected
      split
      · next hboth => exact absurd (hselected ▸ hboth.1) hnone
      · exact hleft
  · obtain ⟨h1, h2⟩ := @select_selected last_turns e cost s'
    rw [hselected] at h1
    exact .shown e hshows hstart h1 (h2.trans holdest)

theorem scanRecord_scanned {body : Bytes} {start stop size : Nat} (hfit : MarkersFit session_id size)
    (hsize : start ≤ size ∧ stop ≤ size) (hretained : s.selected = [] → s.retained_bytes = 0) :
    Scanned py session_id ⟨start, stop, body⟩ s
      (scanRecord py session_id limits last_turns false body start stop s) := by
  unfold scanRecord
  simp only
  by_cases hlong : limits.eventBytes < (trimReturn body).length
  · rw [if_pos hlong]
    refine budget_scanned ⟨rfl, .inr ⟨rfl, rfl, ?_⟩⟩ rfl hfit hsize rfl rfl fun _ hnone => ?_
    · simp
    · rw [hretained hnone, Nat.zero_add]
      exact hfit _ _ _ hsize.1 hsize.2
  · rw [if_neg hlong]
    cases hevent : decodeEvent py false (trimReturn body) with
    | none => exact .malformed hevent rfl rfl rfl
    | some event =>
      exact budget_scanned ⟨rfl, .inl ⟨rfl, rfl, rfl, hevent⟩⟩ rfl hfit hsize rfl rfl fun h => by cases h

/-- The entries so far show what is behind an offset of the window. -/
def ShownFrom (py : Interp) (session_id : String) (base : Nat) (window : Bytes) (i : Nat) (entries : List TranscriptEntry) :
    Prop :=
  Shown py session_id (records (base + i) (window.drop i)) entries

/-- Where a loop that ends here leaves the cursor: at the earliest entry, at
the last record that was looked at, or nowhere. -/
inductive Stands (py : Interp) (session_id : String) (base : Nat) (window : Bytes) (s : PageScan) : Prop
  | earliest (e : TranscriptEntry) (i : Nat) : s.selected.getLast? = some e → e.start_offset = base + i →
      i < window.length → LineStart window i → ShownFrom py session_id base window i s.selected.reverse →
      Stands py session_id base window s
  | oldest (i : Nat) : s.selected = [] → s.oldest_scanned_offset = some (base + i) → i < window.length →
      LineStart window i → ShownFrom py session_id base window i [] → Stands py session_id base window s
  | nowhere : s.selected = [] → s.oldest_scanned_offset = none → s.records_scanned = 0 →
      Stands py session_id base window s

/-- The loop in front of a line. -/
structure Inv (py : Interp) (session_id : String) (base : Nat) (window : Bytes) (i : Nat) (s : PageScan) : Prop where
  shown : ShownFrom py session_id base window i s.selected.reverse
  stands : Stands py session_id base window s
  retained : s.selected = [] → s.retained_bytes = 0

variable {base size : Nat}

/-- The entries that were selected say where the loop stands. -/
theorem Stands.of_selected {s' : PageScan} (h : Stands py session_id base window s) (hne : s.selected ≠ [])
    (hselected : s'.selected = s.selected) : Stands py session_id base window s' := by
  cases h with
  | earliest e i hlast hstart hi hline hshown =>
    exact .earliest e i (hselected ▸ hlast) hstart hi hline (hselected ▸ hshown)
  | oldest i hnil => exact absurd hnil hne
  | nowhere hnil => exact absurd hnil hne

theorem inv_scanned {line_end : Nat} (hend : LineEnd window line_end)
    (hbody : (window.take line_end).drop (lineStart window line_end) ≠ [])
    (hinv : Inv py session_id base window (lineStop window line_end) s) {s' : PageScan} {ends : Bool}
    (h : Scanned py session_id ⟨base + lineStart window line_end, base + lineStop window line_end,
      (window.take line_end).drop (lineStart window line_end)⟩ s (s', ends)) :
    Stands py session_id base window s' ∧ (s'.selected = [] → s'.oldest_scanned_offset ≠ none)
      ∧ (ends = false → Inv py session_id base window (lineStart window line_end) s') := by
  have hlt : lineStart window line_end < window.length := by
    have hpos := List.length_pos_iff.mpr hbody
    rw [List.length_drop, List.length_take] at hpos
    omega
  have hrecords := records_lineStart base hend
  rw [if_neg hbody, List.singleton_append] at hrecords
  cases h with
  | shown e hshows hstart hselected holdest =>
    have hshown : ShownFrom py session_id base window (lineStart window line_end) s'.selected.reverse := by
      rw [ShownFrom, hrecords, hselected, List.reverse_append, List.reverse_singleton, List.singleton_append]
      exact .entry hshows hinv.shown
    have hstands : Stands py session_id base window s' :=
      .earliest e _ (by rw [hselected]; simp) hstart hlt (lineStart_isStart _ _) hshown
    have hne : s'.selected ≠ [] := by
      rw [hselected]
      simp
    exact ⟨hstands, fun hnil => absurd hnil hne, fun _ => ⟨hshown, hstands, fun hnil => absurd hnil hne⟩⟩
  | malformed hevent hselected hretained holdest =>
    have hshown : ShownFrom py session_id base window (lineStart window line_end) s'.selected.reverse := by
      rw [ShownFrom, hrecords, hselected]
      exact .malformed hevent hinv.shown
    have hstands : Stands py session_id base window s' := by
      by_cases hnil : s.selected = []
      · have hnil' := hselected.trans hnil
        rw [hnil'] at hshown
        exact .oldest _ hnil' holdest hlt (lineStart_isStart _ _) hshown
      · exact hinv.stands.of_selected hnil hselected
    refine ⟨hstands, fun _ => by rw [holdest]; simp, fun _ => ⟨hshown, hstands, fun hnil => ?_⟩⟩
    rw [hretained]
    exact hinv.retained (hselected ▸ hnil)
  | left hne hselected =>
    exact ⟨hinv.stands.of_selected hne hselected, fun hnil => absurd (hselected ▸ hnil) hne, nofun⟩

/-- One turn of the loop. -/
def scanLine (py : Interp) (session_id : String) (limits : PageLimits) (last_turns : Int) (base : Nat) (window : Bytes)
    (line_end : Nat) (s : PageScan) : PageScan × Bool :=
  if (window.take line_end).drop (lineStart window line_end) = [] then (s, false)
  else scanRecord py session_id limits last_turns false ((window.take line_end).drop (lineStart window line_end))
    (base + lineStart window line_end) (base + lineStop window line_end) s

theorem scanRecords_eq (line_end : Nat) (s : PageScan) :
    scanRecords py session_id limits last_turns false window base line_end s =
      if s.selected.length < limits.events ∧ s.records_scanned < limits.events * 4 then
        if (scanLine py session_id limits last_turns base window line_end s).2 then
          (scanLine py session_id limits last_turns base window line_end s).1
        else
          match rfindNewline window line_end with
          | none => (scanLine py session_id limits last_turns base window line_end s).1
          | some previous => scanRecords py session_id limits last_turns false window base previous
              (scanLine py session_id limits last_turns base window line_end s).1
      else s := by
  conv_lhs => rw [scanRecords]
  split
  · change (if (scanLine py session_id limits last_turns base window line_end s).2 then
      (scanLine py session_id limits last_turns base window line_end s).1 else _) = _
    split
    · rfl
    · split
      · next hfind => simp only [scanLine, lineStart, lineStop, hfind]
      · next hfind => simp only [scanLine, lineStart, lineStop, hfind]
  · rfl

/-- The whole loop: where it leaves the cursor, and that without one the
window was blank. -/
theorem scanRecords_stands {line_end : Nat} (hend : LineEnd window line_end) (hfit : MarkersFit session_id size)
    (hsize : base + window.length ≤ size) (hinv : Inv py session_id base window (lineStop window line_end) s) :
    Stands py session_id base window (scanRecords py session_id limits last_turns false window base line_end s)
      ∧ ((scanRecords py session_id limits last_turns false window base line_end s).selected = [] →
        (scanRecords py session_id limits last_turns false window base line_end s).oldest_scanned_offset = none →
          ShownFrom py session_id base window 0 []) := by
  induction line_end using Nat.strong_induction_on generalizing s with
  | _ line_end ih =>
    have hle := hend.le
    have hstart := lineStart_le window line_end
    have hstop : lineStop window line_end ≤ window.length := by
      unfold lineStop
      split <;> omega
    -- what the loop does from the start of the line on
    have hrest : ∀ s', Stands py session_id base window s' →
        Inv py session_id base window (lineStart window line_end) s' →
        (s'.selected = [] → s'.oldest_scanned_offset = none → lineStart window line_end = 0 →
          ShownFrom py session_id base window 0 []) →
        Stands py session_id base window (match rfindNewline window line_end with
            | none => s'
            | some previous => scanRecords py session_id limits last_turns false window base previous s')
          ∧ ((match rfindNewline window line_end with
            | none => s'
            | some previous => scanRecords py session_id limits last_turns false window base previous s').selected = [] →
            (match rfindNewline window line_end with
            | none => s'
            | some previous =>
                scanRecords py session_id limits last_turns false window base previous s').oldest_scanned_offset = none →
            ShownFrom py session_id base window 0 []) := by
      intro s' hstands hinv' hblank
      cases hfind : rfindNewline window line_end with
      | none => exact ⟨hstands, fun h1 h2 => hblank h1 h2 (by rw [lineStart, hfind])⟩
      | some previous =>
        obtain ⟨hbyte, -⟩ := rfindNewline_eq_some hfind
        have hprevious := (List.getElem?_eq_some_iff.mp hbyte).1
        refine ih previous (rfindNewline_lt hfind) (.inr hbyte) ?_
        have heq : lineStop window previous = lineStart window line_end := by
          rw [lineStop, if_pos hprevious, lineStart, hfind]
        rw [heq]
        exact hinv'
    rw [scanRecords_eq]
    by_cases hcond : s.selected.length < limits.events ∧ s.records_scanned < limits.events * 4
    · rw [if_pos hcond, scanLine]
      by_cases hbody : (window.take line_end).drop (lineStart window line_end) = []
      · have hrecords := records_lineStart base hend
        rw [if_pos hbody, List.nil_append] at hrecords
        have hshown : ShownFrom py session_id base window (lineStart window line_end) s.selected.reverse := by
          rw [ShownFrom, hrecords]
          exact hinv.shown
        rw [if_pos hbody]
        refine hrest s hinv.stands ⟨hshown, hinv.stands, hinv.retained⟩ fun hnil _ hzero => ?_
        rwa [hzero, hnil] at hshown
      · rw [if_neg hbody]
        have hscanned := @scanRecord_scanned py session_id limits last_turns s
          ((window.take line_end).drop (lineStart window line_end)) (base + lineStart window line_end)
          (base + lineStop window line_end) size hfit (by omega) hinv.retained
        cases hresult : scanRecord py session_id limits last_turns false
            ((window.take line_end).drop (lineStart window line_end)) (base + lineStart window line_end)
            (base + lineStop window line_end) s with
        | mk s' ends =>
          rw [hresult] at hscanned
          obtain ⟨hstands, hoffset, hgoes⟩ := inv_scanned hend hbody hinv hscanned
          cases ends with
          | true => exact ⟨hstands, fun h1 h2 => absurd h2 (hoffset h1)⟩
          | false => exact hrest s' hstands (hgoes rfl) fun h1 h2 => absurd h2 (hoffset h1)
    · rw [if_neg hcond]
      refine ⟨hinv.stands, fun hnil hnone => absurd ?_ hcond⟩
      cases hinv.stands with
      | earliest e i hlast => rw [hnil] at hlast; cases hlast
      | oldest i _ holdest => rw [holdest] at hnone; cases hnone
      | nowhere _ _ hscanned =>
        have hone := @one_le_events limits
        rw [hnil, hscanned, List.length_nil]
        omega

/-! ## 5. The limits of a page -/

/-- A body without its line break. -/
def trimBreak (body : Bytes) : Bytes := if body.getLast? = some 0x0A then body.dropLast else body

theorem trimBreak_line {line : Bytes} (h : 0x0A ∉ line) : trimBreak line = line := by
  rw [trimBreak, if_neg]
  intro hlast
  exact h (List.mem_of_getLast? hlast)

theorem trimBreak_break (line : Bytes) : trimBreak (line ++ [0x0A]) = line := by
  rw [trimBreak, if_pos (by simp), List.dropLast_concat]

/-- What an entry counts for: the size of its marker, or that of its record in
the file. -/
def TranscriptEntry.cost (file : Bytes) (e : TranscriptEntry) : Nat :=
  if e.oversized then markerSize e.event
  else (trimReturn (trimBreak ((file.take e.end_offset).drop e.start_offset))).length

/-- Entries within the limits of a call, with what they count for. -/
structure WithinLimits (limits : PageLimits) (file : Bytes) (entries : List TranscriptEntry) (retained_bytes : Nat) : Prop where
  few : entries.length ≤ limits.events
  counted : retained_bytes = (entries.map (TranscriptEntry.cost file)).sum
  small : retained_bytes ≤ limits.bytes

variable {file : Bytes}

theorem select_retained (entry : TranscriptEntry) (cost : Nat) (s : PageScan) :
    (s.select last_turns entry cost).1.retained_bytes = s.retained_bytes + cost := by
  unfold PageScan.select
  simp only
  split
  · rfl
  · rfl

theorem budget_within {e : TranscriptEntry} {cost : Nat} (hcost : cost = e.cost file)
    (h : WithinLimits limits file s.selected s.retained_bytes) (hroom : s.selected.length < limits.events) :
    WithinLimits limits file (s.budget session_id limits last_turns false e cost).1.selected
      (s.budget session_id limits last_turns false e cost).1.retained_bytes := by
  unfold PageScan.budget
  split
  · split
    · next hnone =>
      simp only
      split
      · next hmarker =>
        have hempty : s.retained_bytes = 0 := by
          have hcounted := h.counted
          rw [hnone.1] at hcounted
          exact hcounted
        simp only [hnone.1, hempty, List.nil_append, Nat.zero_add]
        exact ⟨one_le_events, by simp [TranscriptEntry.cost], hmarker⟩
      · exact h
    · exact h
  · next hfits =>
    obtain ⟨hselected, -⟩ := @select_selected last_turns e cost s
    rw [hselected, select_retained]
    refine ⟨?_, ?_, Nat.not_lt.mp hfits⟩
    · rw [List.length_append, List.length_singleton]
      exact hroom
    · rw [List.map_append, List.sum_append, ← h.counted, hcost]
      simp

/-- The window is what the file holds from an offset on. -/
structure Slice (file : Bytes) (base : Nat) (window : Bytes) : Prop where
  fits : base + window.length ≤ file.length
  slice : (file.take (base + window.length)).drop base = window

theorem Slice.drop_take (h : Slice file base window) {i j : Nat} (hj : j ≤ window.length) :
    (file.take (base + j)).drop (base + i) = (window.take j).drop i := by
  have hslice := h.slice
  rw [← hslice, List.take_drop, List.take_take, List.drop_drop, Nat.min_eq_left (by omega)]

theorem trimBreak_slice (h : Slice file base window) {line_end : Nat} (hend : LineEnd window line_end) :
    trimBreak ((file.take (base + lineStop window line_end)).drop (base + lineStart window line_end))
      = (window.take line_end).drop (lineStart window line_end) := by
  have hline := not_mem_line window line_end
  have hstart := lineStart_le window line_end
  obtain hlast | hbreak := hend
  · have hstop : lineStop window line_end = line_end := if_neg (by omega)
    rw [hstop, h.drop_take (by omega), trimBreak_line hline]
  · obtain ⟨hlt, hbyte⟩ := List.getElem?_eq_some_iff.mp hbreak
    have hstop : lineStop window line_end = line_end + 1 := if_pos hlt
    rw [hstop, h.drop_take (by omega), List.take_add_one, hbreak, Option.toList_some,
      List.drop_append_of_le_length (by rw [List.length_take]; omega), trimBreak_break]

theorem scanLine_within (hslice : Slice file base window) {line_end : Nat} (hend : LineEnd window line_end)
    (h : WithinLimits limits file s.selected s.retained_bytes) (hroom : s.selected.length < limits.events) :
    WithinLimits limits file (scanLine py session_id limits last_turns base window line_end s).1.selected
      (scanLine py session_id limits last_turns base window line_end s).1.retained_bytes := by
  rw [scanLine]
  split
  · exact h
  · unfold scanRecord
    simp only
    split
    · refine budget_within ?_ h hroom
      simp [TranscriptEntry.cost]
    · cases hevent : decodeEvent py false (trimReturn ((window.take line_end).drop (lineStart window line_end))) with
      | none => exact h
      | some event =>
        refine budget_within ?_ h hroom
        rw [TranscriptEntry.cost, if_neg (by simp), trimBreak_slice hslice hend]

theorem scanRecords_within (hslice : Slice file base window) {line_end : Nat} (hend : LineEnd window line_end)
    (h : WithinLimits limits file s.selected s.retained_bytes) :
    WithinLimits limits file (scanRecords py session_id limits last_turns false window base line_end s).selected
      (scanRecords py session_id limits last_turns false window base line_end s).retained_bytes := by
  induction line_end using Nat.strong_induction_on generalizing s with
  | _ line_end ih =>
    rw [scanRecords_eq]
    split
    · next hcond =>
      have hline := @scanLine_within py session_id window limits last_turns s base file hslice line_end hend h hcond.1
      split
      · exact hline
      · cases hfind : rfindNewline window line_end with
        | none => exact hline
        | some previous => exact ih previous (rfindNewline_lt hfind) (.inr (rfindNewline_eq_some hfind).1) hline
    · exact h

/-! ## 6. A window that begins with a line -/

/-- What the page of such a window shows: all of it, or what is behind the
line that its cursor names. -/
inductive LinesShown (py : Interp) (session_id : String) (base : Nat) (window : Bytes) (skip : Bool)
    (page : TranscriptPage) : Prop
  | more (i : Nat) : i < window.length → LineStart window i → page.older_cursor = some ⟨base + i, false⟩ →
      ShownFrom py session_id base window i page.entries → LinesShown py session_id base window skip page
  | all : page.older_cursor = (if 0 < base then some ⟨base, skip⟩ else none) →
      ShownFrom py session_id base window 0 page.entries → LinesShown py session_id base window skip page

/-- The line of a window that the loop begins with. -/
def lastLineEnd (window : Bytes) : Nat := if window.getLast? = some 0x0A then window.length - 1 else window.length

theorem lastLineEnd_isEnd (window : Bytes) : LineEnd window (lastLineEnd window) := by
  rw [lastLineEnd]
  split
  · next h =>
    rw [List.getLast?_eq_getElem?] at h
    exact .inr h
  · exact .inl rfl

theorem lineStop_lastLineEnd (window : Bytes) : lineStop window (lastLineEnd window) = window.length := by
  rw [lineStop, lastLineEnd]
  split
  · next h =>
    have hpos : 0 < window.length := List.length_pos_iff.mpr fun hnil => by simp [hnil] at h
    rw [if_pos (by omega)]
    omega
  · exact if_neg (Nat.lt_irrefl _)

/-- The loop over all records of a window. -/
def scanWindow (py : Interp) (session_id : String) (limits : PageLimits) (last_turns : Int) (base : Nat) (window : Bytes) :
    PageScan :=
  scanRecords py session_id limits last_turns false window base (lastLineEnd window) {}

theorem linesPage_entries (skip : Bool) (scanned_bytes : Nat) :
    (linesPage py session_id limits last_turns false skip scanned_bytes window base).entries
      = (scanWindow py session_id limits last_turns base window).selected.reverse := rfl

theorem linesPage_retained (skip : Bool) (scanned_bytes : Nat) :
    (linesPage py session_id limits last_turns false skip scanned_bytes window base).retained_bytes
      = (scanWindow py session_id limits last_turns base window).retained_bytes := rfl

theorem linesPage_cursor (skip : Bool) (scanned_bytes : Nat) :
    (linesPage py session_id limits last_turns false skip scanned_bytes window base).older_cursor
      = match (scanWindow py session_id limits last_turns base window).selected.reverse.head?,
          (scanWindow py session_id limits last_turns base window).oldest_scanned_offset with
        | some earliest, _ => if 0 < earliest.start_offset then some ⟨earliest.start_offset, false⟩ else none
        | none, some oldest => some ⟨oldest, false⟩
        | none, none => if 0 < base then some ⟨base, skip⟩ else none := rfl

theorem linesPage_shown {skip : Bool} {scanned_bytes : Nat} (hfit : MarkersFit session_id size)
    (hsize : base + window.length ≤ size) :
    LinesShown py session_id base window skip
      (linesPage py session_id limits last_turns false skip scanned_bytes window base) := by
  have hstart : Inv py session_id base window (lineStop window (lastLineEnd window)) {} := by
    rw [lineStop_lastLineEnd]
    refine ⟨?_, .nowhere rfl rfl rfl, fun _ => rfl⟩
    rw [ShownFrom, List.drop_length]
    exact .nil
  obtain ⟨hstands, hblank⟩ := @scanRecords_stands py session_id window limits last_turns {} base size
    (lastLineEnd window) (lastLineEnd_isEnd window) hfit hsize hstart
  -- the cursor, from where the loop stands
  cases hstands with
  | earliest e i hlast hoffset hi hline hshown =>
    have hhead : (scanWindow py session_id limits last_turns base window).selected.reverse.head? = some e := by
      rw [List.head?_reverse]
      exact hlast
    by_cases hzero : 0 < base + i
    · refine .more i hi hline ?_ hshown
      rw [linesPage_cursor, hhead]
      simp only [hoffset, if_pos hzero]
    · obtain ⟨rfl, rfl⟩ : base = 0 ∧ i = 0 := by omega
      refine .all ?_ hshown
      rw [linesPage_cursor, hhead]
      simp only [hoffset, if_neg hzero, Nat.lt_irrefl, if_false]
  | oldest i hnil holdest hi hline hshown =>
    have hselected : (scanWindow py session_id limits last_turns base window).selected = [] := hnil
    refine .more i hi hline ?_ ?_
    · rw [linesPage_cursor, hselected, List.reverse_nil, List.head?_nil]
      simp only [scanWindow, holdest]
    · rw [linesPage_entries, hselected, List.reverse_nil]
      exact hshown
  | nowhere hnil hnone _ =>
    have hselected : (scanWindow py session_id limits last_turns base window).selected = [] := hnil
    refine .all ?_ ?_
    · rw [linesPage_cursor, hselected, List.reverse_nil, List.head?_nil]
      simp only [scanWindow, hnone]
    · rw [linesPage_entries, hselected, List.reverse_nil]
      exact hblank hnil hnone

theorem linesPage_within {skip : Bool} {scanned_bytes : Nat} (hslice : Slice file base window) :
    WithinLimits limits file (linesPage py session_id limits last_turns false skip scanned_bytes window base).entries
      (linesPage py session_id limits last_turns false skip scanned_bytes window base).retained_bytes := by
  have hstart : WithinLimits limits file ({} : PageScan).selected ({} : PageScan).retained_bytes :=
    ⟨Nat.zero_le _, rfl, Nat.zero_le _⟩
  obtain ⟨hfew, hcounted, hsmall⟩ := @scanRecords_within py session_id window limits last_turns {} base file hslice
    (lastLineEnd window) (lastLineEnd_isEnd window) hstart
  rw [linesPage_entries, linesPage_retained]
  refine ⟨?_, ?_, hsmall⟩
  · rw [List.length_reverse]
    exact hfew
  · rw [List.map_reverse, List.sum_reverse]
    exact hcounted

end Agenthicc.Tui
