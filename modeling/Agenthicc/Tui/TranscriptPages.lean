/-
Agenthicc.Tui.TranscriptPages — paging through the event log of a session.

A page is read from one window of bytes that ends at a cursor; it may begin
inside a record. Offsets are those of the file, which only grows, so a page
depends on the bytes in front of its cursor alone. Lines are taken for UTF-8,
as `json.loads` does where they hold no NUL and no byte order mark. Left out:
the errors of reading, and sessions that do not resolve under the sessions
directory.
-/
import Agenthicc.Tui.Transcript

open Python

namespace Agenthicc.Tui

/-! ## 1. Cursors, entries and pages -/

def MAX_TRANSCRIPT_PREVIEW_EVENTS : Nat := 1024

def MAX_TRANSCRIPT_PREVIEW_BYTES : Nat := 1024 * 1024

def MAX_TRANSCRIPT_EVENT_BYTES : Nat := 128 * 1024

def TRANSCRIPT_SCAN_CHUNK_BYTES : Nat := 16 * 1024

structure TranscriptCursor where
  offset : Nat
  /-- The cursor is inside a record that was shown already. -/
  skip_oversized_line : Bool := false
  deriving DecidableEq

structure TranscriptEntry where
  event : ConversationEvent
  start_offset : Nat
  end_offset : Nat
  oversized : Bool := false
  partial_line : Bool := false
  deriving DecidableEq

structure TranscriptPage where
  entries : List TranscriptEntry
  older_cursor : Option TranscriptCursor
  scanned_bytes : Nat := 0
  retained_bytes : Nat := 0
  notice : String := ""
  deriving DecidableEq

/-- The limits of a call. -/
structure PageLimits where
  max_events : Int := 128
  max_bytes : Int := 128 * 1024
  max_event_bytes : Int := 16 * 1024

namespace PageLimits

variable (limits : PageLimits)

def events : Nat := min MAX_TRANSCRIPT_PREVIEW_EVENTS (max 1 limits.max_events.toNat)

def bytes : Nat := min MAX_TRANSCRIPT_PREVIEW_BYTES (max 1024 limits.max_bytes.toNat)

def eventBytes : Nat := min MAX_TRANSCRIPT_EVENT_BYTES (max 256 limits.max_event_bytes.toNat)

def scanBytes : Nat := max 1 (limits.bytes + limits.eventBytes - 1)

end PageLimits

/-! ## 2. Markers -/

/-- `_oversized_preview_event`. -/
def oversizedPreviewEvent (session_id : String) (start stop : Nat) (cut rendered : Bool) : ConversationEvent :=
  let reason := if cut then "exceptionally large" else toString (stop - start) ++ " bytes"
  { event_id := "preview-omitted:" ++ session_id ++ ":" ++ toString start ++ ":" ++ toString stop
    kind := "system"
    payload := [("text", .str ("Transcript event (" ++ reason
        ++ ") omitted from preview; use /history and Enter to inspect.")),
      ("_agenthicc_session_id", .str session_id)]
    timestamp := PyFloat.zero
    rendered }

/-- `_marker_size`. -/
def markerSize (event : ConversationEvent) : Nat := (utf8 (compactDumps event.record)).length

/-! ## 3. The records of a window -/

/-- `window.rfind(b"\n", 0, stop)`. -/
def rfindNewline (window : Bytes) : Nat → Option Nat
  | 0 => none
  | n + 1 => if window[n]? = some 0x0A then some n else rfindNewline window n

theorem rfindNewline_lt {window : Bytes} {stop i : Nat} (h : rfindNewline window stop = some i) : i < stop := by
  induction stop with
  | zero => cases h
  | succ n ih =>
    rw [rfindNewline] at h
    split at h
    · obtain rfl := Option.some.inj h
      exact Nat.lt_succ_self _
    · exact (ih h).trans (Nat.lt_succ_self n)

/-- The locals of the loop over records; `selected` has the newest one first. -/
structure PageScan where
  selected : List TranscriptEntry := []
  retained_bytes : Nat := 0
  turn_count : Nat := 0
  records_scanned : Nat := 0
  oldest_scanned_offset : Option Nat := none
  notice : String := ""

section scan

variable (py : Interp) (session_id : String) (limits : PageLimits) (last_turns : Int) (rendered : Bool)

/-- An entry that fits, and whether the loop ends with it. -/
def PageScan.select (entry : TranscriptEntry) (cost : Nat) (s : PageScan) : PageScan × Bool :=
  let s := { s with selected := s.selected ++ [entry], retained_bytes := s.retained_bytes + cost }
  if entry.event.kind = "turn_start" then
    let s := { s with turn_count := s.turn_count + 1 }
    (s, 0 < last_turns && last_turns ≤ s.turn_count)
  else (s, false)

/-- An entry against the byte budget, and whether the loop ends with it. -/
def PageScan.budget (entry : TranscriptEntry) (cost : Nat) (s : PageScan) : PageScan × Bool :=
  if limits.bytes < s.retained_bytes + cost then
    if s.selected = [] ∧ !entry.oversized then
      let marker := oversizedPreviewEvent session_id entry.start_offset entry.end_offset false rendered
      if markerSize marker ≤ limits.bytes then
        ({ s with
            selected := s.selected ++ [⟨marker, entry.start_offset, entry.end_offset, true, false⟩]
            retained_bytes := s.retained_bytes + markerSize marker
            notice := "An event exceeded the preview byte budget; inspect it with Enter." }, true)
      else (s, true)
    else (s, true)
  else s.select last_turns entry cost

/-- A trailing carriage return is not part of a record. -/
def trimReturn (body : Bytes) : Bytes := if body.getLast? = some 0x0D then body.dropLast else body

/-- One record of the window, and whether the loop ends with it. -/
def scanRecord (body : Bytes) (start stop : Nat) (s : PageScan) : PageScan × Bool :=
  let s := { s with records_scanned := s.records_scanned + 1, oldest_scanned_offset := some start }
  let body := trimReturn body
  if limits.eventBytes < body.length then
    let event := oversizedPreviewEvent session_id start stop false rendered
    { s with notice := "An oversized event is shown as a marker; inspect it with Enter." }.budget session_id limits
      last_turns rendered ⟨event, start, stop, true, false⟩ (markerSize event)
  else
    match decodeEvent py rendered body with
    | none =>
        ({ s with notice := if s.notice = "" then "Malformed transcript records were skipped." else s.notice }, false)
    | some event => s.budget session_id limits last_turns rendered ⟨event, start, stop, false, false⟩ body.length

/-- The loop over the records of a window, from the last one on. -/
def scanRecords (window : Bytes) (lower : Nat) (line_end : Nat) (s : PageScan) : PageScan :=
  if s.selected.length < limits.events ∧ s.records_scanned < limits.events * 4 then
    let line_start := match rfindNewline window line_end with
      | none => 0
      | some previous_newline => previous_newline + 1
    let body := (window.take line_end).drop line_start
    let stop := if line_end < window.length then line_end + 1 else line_end
    let r := if body = [] then (s, false)
      else scanRecord py session_id limits last_turns rendered body (lower + line_start) (lower + stop) s
    if r.2 then r.1
    else
      match _h : rfindNewline window line_end with
      | none => r.1
      | some previous_newline => scanRecords window lower previous_newline r.1
  else s
termination_by line_end
decreasing_by exact rfindNewline_lt _h

/-! ## 4. One page -/

/-- The page of a window that begins at a record. -/
def linesPage (skip : Bool) (scanned_bytes : Nat) (window : Bytes) (lower : Nat) : TranscriptPage :=
  let line_end := if window.getLast? = some 0x0A then window.length - 1 else window.length
  let s := scanRecords py session_id limits last_turns rendered window lower line_end {}
  let selected := s.selected.reverse
  let older_cursor := match selected.head?, s.oldest_scanned_offset with
    | some earliest, _ => if 0 < earliest.start_offset then some ⟨earliest.start_offset, false⟩ else none
    | none, some oldest => some ⟨oldest, false⟩
    | none, none => if 0 < lower then some ⟨lower, skip⟩ else none
  let notice := if limits.events * 4 ≤ s.records_scanned ∧ older_cursor.isSome ∧ s.notice = "" then
      "Page event scan reached its safety limit; press older to continue."
    else s.notice
  let notice := if limits.scanBytes ≤ scanned_bytes ∧ older_cursor.isSome ∧ notice = "" then
      "Page scan reached its safety limit; press older to continue."
    else notice
  ⟨selected, older_cursor, scanned_bytes, s.retained_bytes, notice⟩

/-- The page of a window inside an oversized record that was shown already. -/
def skippingPage (scanned_bytes : Nat) (cursor : Option TranscriptCursor) : TranscriptPage :=
  ⟨[], cursor, scanned_bytes, 0, "Scanning past an oversized transcript event; press older again."⟩

/-- The page of a window that holds only the end of a record. -/
def partialPage (scanned_bytes lower upper : Nat) : TranscriptPage :=
  let marker := oversizedPreviewEvent session_id lower upper true rendered
  ⟨[⟨marker, lower, upper, true, true⟩], some ⟨lower, true⟩, scanned_bytes, min limits.bytes (markerSize marker),
    "An exceptionally large event is shown as a marker; inspect it with Enter."⟩

/-- The page of a window: what is left of a record at its front is dropped. -/
def windowPage (skip starts_at_line_boundary : Bool) (scanned_bytes : Nat) (window : Bytes) (lower upper : Nat) :
    TranscriptPage :=
  if 0 < lower ∧ !starts_at_line_boundary then
    match window.idxOf? 0x0A with
    | none =>
        if skip then skippingPage scanned_bytes (some ⟨lower, true⟩)
        else partialPage session_id limits rendered scanned_bytes lower upper
    | some first_newline =>
        if first_newline = window.length - 1 then
          partialPage session_id limits rendered scanned_bytes lower upper
        else
          linesPage py session_id limits last_turns rendered skip scanned_bytes (window.drop (first_newline + 1))
            (lower + (first_newline + 1))
  else linesPage py session_id limits last_turns rendered skip scanned_bytes window lower

/-- `_load_transcript_page`. -/
def loadTranscriptPage (file : Bytes) (upper_offset : Nat) (skip : Bool) : TranscriptPage :=
  let upper := min upper_offset file.length
  let lower := upper - limits.scanBytes
  let starts_at_line_boundary := lower = 0 || file[lower - 1]? = some 0x0A
  let window := (file.take upper).drop lower
  let scanned_bytes := window.length + if 0 < lower then 1 else 0
  if skip then
    match rfindNewline window window.length with
    | none => skippingPage scanned_bytes (if 0 < lower then some ⟨lower, true⟩ else none)
    | some last_newline =>
        windowPage py session_id limits last_turns rendered skip starts_at_line_boundary scanned_bytes
          (window.take (last_newline + 1)) lower (lower + (last_newline + 1))
  else
    windowPage py session_id limits last_turns rendered skip starts_at_line_boundary scanned_bytes window lower upper

end scan

variable (py : Interp)

/-- `load_recent_transcript_page`. -/
def loadRecentTranscriptPage (session_id : String) (file : Bytes) (last_turns : Int) (limits : PageLimits) :
    TranscriptPage :=
  loadTranscriptPage py session_id limits last_turns false file file.length false

/-- `load_older_transcript_page`. -/
def loadOlderTranscriptPage (session_id : String) (file : Bytes) (cursor : TranscriptCursor) (limits : PageLimits) :
    TranscriptPage :=
  loadTranscriptPage py session_id limits 0 false file (min cursor.offset file.length) cursor.skip_oversized_line

/-! ## 5. One entry -/

/-- `_find_line_start_before`: where the search ended, how much it read, and
whether it found the start. -/
def findLineStartBefore (file : Bytes) (search_end scanned scan_budget : Nat) : Nat × Nat × Bool :=
  if 0 < search_end ∧ scanned < scan_budget then
    let amount := min (min TRANSCRIPT_SCAN_CHUNK_BYTES (scan_budget - scanned)) search_end
    let start := search_end - amount
    let block := (file.take search_end).drop start
    match rfindNewline block block.length with
    | some newline => (start + newline + 1, scanned + block.length, true)
    | none => findLineStartBefore file start (scanned + block.length) scan_budget
  else if search_end = 0 then (0, scanned, true)
  else (search_end, scanned, false)
termination_by search_end
decreasing_by
  have hchunk : 0 < TRANSCRIPT_SCAN_CHUNK_BYTES := by decide
  omega

/-- `_inspection_limit_event`. -/
def inspectionLimitEvent (entry : TranscriptEntry) (reason : String) : ConversationEvent where
  event_id := entry.event.event_id
  kind := "system"
  payload := [("text", .str ("This transcript event was not expanded: " ++ reason ++ ".")),
    ("source_event_id", .str entry.event.event_id)]
  timestamp := entry.event.timestamp
  rendered := false

/-- The bytes that an entry stands for; `none` where the start is too far. -/
def entryRange (file : Bytes) (entry : TranscriptEntry) : Option (Nat × Nat) :=
  if entry.partial_line then
    match findLineStartBefore file entry.start_offset 0 MAX_TRANSCRIPT_PREVIEW_BYTES with
    | (start, _, true) => some (start, entry.end_offset)
    | (_, _, false) => none
  else some (entry.start_offset, entry.end_offset)

/-- `load_transcript_entry`, with the log that each session has. -/
def loadTranscriptEntry (files : String → Option Bytes) (entry : TranscriptEntry) : Option ConversationEvent :=
  if !entry.oversized && !entry.partial_line then some entry.event
  else
    match Json.lookup "_agenthicc_session_id" entry.event.payload with
    | some (.str session_id) =>
        if session_id = "" then none
        else
          match files session_id with
          | none => none
          | some file =>
              match entryRange file entry with
              | none => some (inspectionLimitEvent entry "record start exceeds 1 MiB scan limit")
              | some (start, stop) =>
                  if stop < start then none
                  else if MAX_TRANSCRIPT_EVENT_BYTES < stop - start then
                    some (inspectionLimitEvent entry ("record is " ++ toString (stop - start)
                      ++ " bytes; inspection limit is " ++ toString MAX_TRANSCRIPT_EVENT_BYTES ++ " bytes"))
                  else decodeEvent py false ((file.take stop).drop start)
    | _ => none

end Agenthicc.Tui
