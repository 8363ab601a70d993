/-
Agenthicc.Tui.Transcript — the event log of a session, and its two readers:
the whole log as text, or the newest turns of it in blocks of bytes from the
end.

A `LogFile` is what `append` can make, cut writes included. Its text holds no
carriage return, so text mode leaves it alone, and neither a NUL nor a byte
order mark, so `json.loads` takes its bytes for UTF-8. Left out: files that
grow while they are read (the end is taken once), and the path of the log.
-/
import Agenthicc.Python.Builtins
import Agenthicc.Python.Codecs
import Agenthicc.Python.JsonNewline
import Agenthicc.Python.JsonLines
import Mathlib.Data.PNat.Notation

open Python

namespace Agenthicc.Tui

/-! ## 1. Events and files -/

structure ConversationEvent where
  event_id : String
  kind : String
  payload : List (String × Json)
  timestamp : PyFloat
  rendered : Bool := false
  deriving DecidableEq

/-- The line of an event, without its line break. -/
def ConversationEvent.record (ev : ConversationEvent) : Json :=
  .obj [("event_id", .str ev.event_id), ("kind", .str ev.kind), ("payload", .obj ev.payload),
    ("timestamp", .float ev.timestamp)]

/-- A character that the log can hold. -/
def LogChar (c : Char) : Prop := c ≠ '\r' ∧ c ≠ '\x00' ∧ c ≠ '\uFEFF'

structure LogFile where
  text : List Char
  plain : ∀ c ∈ text, LogChar c

namespace LogFile

def bytes (log : LogFile) : Bytes := utf8 log.text

def empty : LogFile := ⟨[], by simp⟩

theorem logChar_jsonLine (v : Json) : ∀ c ∈ jsonLine v, LogChar c := by
  intro c hc
  rw [jsonLine, List.mem_append, List.mem_singleton] at hc
  obtain hc | rfl := hc
  · have hplain := List.all_eq_true.mp (dumps_isPlain v) c hc
    refine ⟨?_, ?_, ?_⟩
    · rintro rfl
      exact absurd hplain (by decide)
    · rintro rfl
      exact absurd hplain (by decide)
    · rintro rfl
      exact absurd hplain (by decide)
  · exact ⟨by decide, by decide, by decide⟩

/-- An append of which only this many characters were written. -/
def append (log : LogFile) (ev : ConversationEvent) (written : Nat) : LogFile where
  text := log.text ++ (jsonLine ev.record).take written
  plain c hc := by
    rw [List.mem_append] at hc
    exact hc.elim (log.plain c) fun h => logChar_jsonLine _ c (List.mem_of_mem_take h)

end LogFile

/-! ## 2. One line -/

variable (py : Interp) (rendered : Bool)

/-- `float(timestamp)` of a number. -/
def floatValue : Json → Option PyFloat
  | .int n => py.floatOfInt n
  | .bool b => py.floatOfInt (if b then 1 else 0)
  | .float x => some x
  | _ => none

/-- `_decode_event` of text. -/
def decodeText (line : List Char) : Option ConversationEvent :=
  match loads line with
  | some (.obj data) =>
      match Json.lookup "event_id" data, Json.lookup "kind" data, Json.lookup "payload" data,
        Json.lookup "timestamp" data with
      | some (.str event_id), some (.str kind), some (.obj payload), some timestamp =>
          (floatValue py timestamp).map fun timestamp => { event_id, kind, payload, timestamp, rendered }
      | _, _, _, _ => none
  | _ => none

/-- `_decode_event` of bytes. -/
def decodeEvent (raw : Bytes) : Option ConversationEvent := (decodeUtf8 raw).bind (decodeText py rendered)

/-- `kinds is None or event.kind in kinds`. -/
def keeps (kinds : Option (List String)) (ev : ConversationEvent) : Bool :=
  match kinds with
  | none => true
  | some kinds => kinds.contains ev.kind

/-! ## 3. The whole log -/

/-- `_iter_events`. -/
def iterEvents (kinds : Option (List String)) (log : LogFile) : List ConversationEvent :=
  ((fileLines log.text).filterMap (decodeText py rendered)).filter (keeps kinds)

/-! ## 4. The newest turns -/

/-- `_TAIL_READ_BYTES`. -/
def TAIL_READ_BYTES : ℕ+ := ⟨64 * 1024, by decide⟩

/-- `_MAX_RECENT_EVENTS`. -/
def MAX_RECENT_EVENTS : Nat := 4096

/-- What the reader has selected, newest first, and the turns it has met. -/
structure Tail where
  selected : List ConversationEvent := []
  turn_count : Nat := 0

/-- `not raw.strip()`. -/
def isBlank (raw : Bytes) : Bool := raw.all fun b => b = 0x20 || (9 ≤ b && b ≤ 13)

variable (last_turns : Int) (kinds : Option (List String))

def Tail.take (ev : ConversationEvent) (s : Tail) : Tail where
  selected := if keeps kinds ev then s.selected ++ [ev] else s.selected
  turn_count := if ev.kind = "turn_start" then s.turn_count + 1 else s.turn_count

/-- The inner loop over the lines of a block, the last one first, and whether
it ended the call. -/
def scanLines : List Bytes → Tail → Tail × Bool
  | [], s => (s, false)
  | raw :: rest, s =>
      if isBlank raw then scanLines rest s
      else
        match decodeEvent py rendered raw with
        | none => scanLines rest s
        | some ev =>
            let s := s.take kinds ev
            if last_turns ≤ s.turn_count then (s, true)
            else if MAX_RECENT_EVENTS ≤ s.selected.length then (s, false)
            else scanLines rest s

/-- The first line of the file, behind the loop. -/
def firstLine (pending : Bytes) (s : Tail) : List ConversationEvent :=
  if !isBlank pending ∧ s.selected.length < MAX_RECENT_EVENTS then
    s.selected ++ (decodeEvent py rendered pending).toList
  else s.selected

/-- The outer loop: `block` bytes more in each turn. -/
def readBlocksBack (block : ℕ+) (file : Bytes) (position : Nat) (pending : Bytes) (s : Tail) :
    List ConversationEvent :=
  if h : 0 < position ∧ s.selected.length < MAX_RECENT_EVENTS then
    let start := position - block
    let lines := ((file.take position).drop start ++ pending).splitOn 0x0A
    match scanLines py rendered last_turns kinds lines.tail.reverse s with
    | (s, true) => s.selected.reverse
    | (s, false) => readBlocksBack block file start (lines.headD []) s
  else (firstLine py rendered pending s).reverse
termination_by position
decreasing_by
  have hpos := block.pos
  omega

/-- `_load_recent_turns`, with blocks of some size. -/
def loadRecentTurns (block : ℕ+) (file : Bytes) : List ConversationEvent :=
  readBlocksBack py rendered last_turns kinds block file file.length [] {}

/-- `SessionEventLog.load`. -/
def SessionEventLog.load (log : Option LogFile) (last_turns : Option Int) (kinds : Option (List String)) :
    List ConversationEvent :=
  match log with
  | none => []
  | some log =>
      match last_turns with
      | some n =>
          if 0 < n then loadRecentTurns py rendered n kinds TAIL_READ_BYTES log.bytes
          else iterEvents py rendered kinds log
      | none => iterEvents py rendered kinds log

end Agenthicc.Tui
