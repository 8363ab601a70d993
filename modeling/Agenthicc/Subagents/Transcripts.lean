/-
Agenthicc.Subagents.Transcripts — the transcript of one worker: the events,
the file their writer keeps under a limit, and its three readers.

A `TranscriptWorld` is the file, what the writer remembers of its size, and
one reader that follows it. An append is taken apart: it may compact the file,
then its line reaches the file in pieces, and it finishes or fails. The reader
can look at any moment between. A failure before the file is touched changes
nothing and is no action.

`redact` is the redactor of the session export, left open: no statement rests
on what it returns. A text has no lone surrogates, and `kind` is a string.
Left out: the manifest of a pool, the queue in front of the writer thread, and
errors of reading.
-/
import Agenthicc.Python.Builtins
import Agenthicc.Python.ByteLines
import Agenthicc.Python.SortedJson

open Python

namespace Agenthicc.Subagents

/-! ## 1. Events -/

def SUBAGENT_EVENT_SCHEMA_VERSION : Int := 1

def TRANSCRIPT_TEXT_LIMIT : Nat := 4000

def SHORT_LIMIT : Nat := 240

/-- `_KINDS`. -/
def TRANSCRIPT_KINDS : List String :=
  ["prompt", "text", "tool_started", "tool_finished", "approval_requested", "approval_resolved", "finished",
    "stop_requested", "message_acknowledged", "attempt_started", "truncated"]

/-- One line of a transcript. `partial_output` is `partial`. -/
structure TranscriptEvent where
  kind : String
  at_time : PyFloat
  text : String := ""
  tool : String := ""
  ok : Option Bool := none
  dropped : Int := 0
  request_id : String := ""
  mode : String := ""
  source : String := ""
  reason : String := ""
  phase : String := ""
  partial_output : Bool := false
  stop_reason : String := ""
  undelivered_messages : Int := 0
  attempt : Int := 1
  cleanup_error : String := ""
  pool_id : String := ""
  worker_id : String := ""
  schema_version : Int := SUBAGENT_EVENT_SCHEMA_VERSION
  deriving DecidableEq

namespace TranscriptEvent

/-- A pair that is there only when its value says something. -/
def optional (name : String) (value : Json) (present : Bool) : List (String × Json) :=
  if present then [(name, value)] else []

/-- `if value: payload[name] = value` for a string. -/
def optionalText (name value : String) : List (String × Json) := optional name (.str value) (value ≠ "")

/-- `to_dict`; the keys are sorted when it is written. -/
def toDict (e : TranscriptEvent) : List (String × Json) :=
  [("kind", .str e.kind), ("at", .float e.at_time), ("schema_version", .int e.schema_version)]
    ++ optionalText "pool_id" e.pool_id
    ++ optionalText "worker_id" e.worker_id
    ++ optionalText "text" e.text
    ++ optionalText "tool" e.tool
    ++ optional "ok" (.bool (e.ok.getD false)) e.ok.isSome
    ++ optional "dropped" (.int e.dropped) (e.dropped ≠ 0)
    ++ optionalText "request_id" e.request_id
    ++ optionalText "mode" e.mode
    ++ optionalText "source" e.source
    ++ optionalText "reason" e.reason
    ++ optionalText "phase" e.phase
    ++ optionalText "stop_reason" e.stop_reason
    ++ optionalText "cleanup_error" e.cleanup_error
    ++ optional "partial" (.bool true) e.partial_output
    ++ optional "undelivered_messages" (.int e.undelivered_messages) (e.undelivered_messages ≠ 0)
    ++ optional "attempt" (.int e.attempt) (e.attempt ≠ 1)

/-- `_string_field`. -/
def stringField (v : Json) (name : String) : String :=
  match v.get? name with
  | some (.str s) => s
  | _ => ""

/-- An integer field that is no bool and not below a bound. -/
def intField (v : Json) (name : String) (least : Option Int) (dflt : Int) : Int :=
  match v.get? name with
  | some (.int n) => if least.all (· ≤ n) then n else dflt
  | _ => dflt

/-- `float(at)` of a number that is no bool. -/
def timeField (py : Interp) (v : Json) : Option PyFloat :=
  match v.get? "at" with
  | some (.int n) => py.floatOfInt n
  | some (.float x) => some x
  | _ => none

/-- `from_mapping`. -/
def fromMapping (py : Interp) (v : Json) : Option TranscriptEvent :=
  match v.get? "kind", timeField py v with
  | some (.str kind), some at_time =>
      if kind ∈ TRANSCRIPT_KINDS then
        some {
          kind, at_time
          text := stringField v "text"
          tool := stringField v "tool"
          ok := match v.get? "ok" with
            | some (.bool b) => some b
            | _ => none
          dropped := intField v "dropped" none 0
          request_id := stringField v "request_id"
          mode := stringField v "mode"
          source := stringField v "source"
          reason := stringField v "reason"
          phase := stringField v "phase"
          partial_output := v.get? "partial" = some (.bool true)
          stop_reason := stringField v "stop_reason"
          undelivered_messages := intField v "undelivered_messages" (some 0) 0
          attempt := intField v "attempt" (some 1) 1
          cleanup_error := stringField v "cleanup_error"
          pool_id := stringField v "pool_id"
          worker_id := stringField v "worker_id"
          schema_version := intField v "schema_version" (some 1) SUBAGENT_EVENT_SCHEMA_VERSION }
      else none
  | _, _ => none

/-- `_redact`. -/
def redactField (redact : String → String) (text : String) (limit : Nat) : String :=
  if text = "" then ""
  else
    let value := redact text
    if value.length ≤ limit then value else strTake (limit - 1) value ++ "…"

/-- The event as `_write_event` records it. -/
def safe (redact : String → String) (pool_id worker_id : String) (e : TranscriptEvent) : TranscriptEvent where
  kind := e.kind
  at_time := e.at_time
  text := redactField redact e.text
    (if e.kind ∈ ["prompt", "text", "finished"] then TRANSCRIPT_TEXT_LIMIT else SHORT_LIMIT)
  tool := strTake 80 e.tool
  ok := e.ok
  dropped := e.dropped
  request_id := strTake 80 e.request_id
  mode := strTake 16 e.mode
  source := strTake 80 e.source
  reason := redactField redact e.reason SHORT_LIMIT
  phase := strTake 32 e.phase
  partial_output := e.partial_output
  stop_reason := strTake SHORT_LIMIT e.stop_reason
  undelivered_messages := max 0 e.undelivered_messages
  attempt := max 1 e.attempt
  cleanup_error := redactField redact e.cleanup_error SHORT_LIMIT
  pool_id := pool_id
  worker_id := worker_id

/-- `json.dumps(safe.to_dict(), ensure_ascii=False, sort_keys=True) + "\n"`, encoded. -/
def line (e : TranscriptEvent) : Bytes := utf8 (rawDumps (Json.canonical (.obj e.toDict)) ++ ['\n'])

/-- `json.dumps(marker.to_dict(), sort_keys=True) + "\n"`, encoded. -/
def markerLine (e : TranscriptEvent) : Bytes := utf8 (dumps (Json.canonical (.obj e.toDict)) ++ ['\n'])

end TranscriptEvent

/-! ## 2. Lines -/

/-- `_loads`: a line that is no record counts as an empty one. -/
def loadsLine (line : Bytes) : Json :=
  match (decodeUtf8 line).bind loads with
  | some (.obj kvs) => .obj kvs
  | _ => .obj []

variable (py : Interp)

def lineEvent (line : Bytes) : Option TranscriptEvent := TranscriptEvent.fromMapping py (loadsLine line)

/-! ## 3. Readers -/

/-- `read_transcript`, on the bytes of the file. -/
def readTranscript (data : Bytes) : List TranscriptEvent :=
  ((bytesLines data).map stripBreak).filterMap (lineEvent py)

/-- The bytes `last_event` reads. -/
def LAST_EVENT_WINDOW : Nat := 16384

/-- `last_event`. -/
def lastEvent (data : Bytes) : Option TranscriptEvent :=
  ((bytesLines (data.drop (data.length - LAST_EVENT_WINDOW))).map stripBreak).reverse.findSome? (lineEvent py)

/-- The file of a transcript: its identity and what it holds. -/
structure TranscriptFile where
  identity : Nat
  data : Bytes

structure TranscriptTail where
  identity : Option Nat := none
  offset : Nat := 0
  partial_line : Bytes := []
  events : List TranscriptEvent := []

/-- `refresh`. -/
def TranscriptTail.refresh (file : Option TranscriptFile) (t : TranscriptTail) : TranscriptTail :=
  match file with
  | none => t
  | some file =>
      let t : TranscriptTail :=
        if some file.identity ≠ t.identity ∨ file.data.length < t.offset then { identity := some file.identity } else t
      if file.data.length = t.offset then t
      else
        let pieces := (t.partial_line ++ file.data.drop t.offset).splitOn 0x0A
        { t with
          offset := file.data.length
          partial_line := pieces.getLastD []
          events := t.events ++ pieces.dropLast.filterMap (lineEvent py) }

/-! ## 4. The writer -/

structure TranscriptConfig where
  py : Interp
  redact : String → String
  pool_id : String
  worker_id : String
  /-- `self._limit`. -/
  limit : Nat

/-- The newest lines that fit, from the last one on. -/
def keepBack (budget : Nat) : List Bytes → Nat → List Bytes
  | [], _ => []
  | line :: rest, kept => if budget < kept + line.length then [] else line :: keepBack budget rest (kept + line.length)

def keepNewest (budget : Nat) (lines : List Bytes) : List Bytes := (keepBack budget lines.reverse 0).reverse

/-- `_event_time`. -/
def eventTime (line : Bytes) : PyFloat := ((lineEvent py line).map TranscriptEvent.at_time).getD PyFloat.zero

/-- What the marker at the front stands for, and the lines behind it. -/
def splitMarker (lines : List Bytes) : Int × List Bytes :=
  match lines with
  | [] => (0, [])
  | first :: rest =>
      match lineEvent py first with
      | some marker => if marker.kind = "truncated" then (marker.dropped, rest) else (0, lines)
      | none => (0, lines)

/-- The marker that stands for dropped events. -/
def truncationMarker (at_time : PyFloat) (dropped : Int) : TranscriptEvent := { kind := "truncated", at_time, dropped }

/-- The marker of `_compact`, and the lines it keeps. -/
def compaction (limit : Nat) (data : Bytes) : TranscriptEvent × List Bytes :=
  let (previous, lines) := splitMarker py (bytesLines data)
  let keep := keepNewest (limit / 2) lines
  let at_time := (keep.head?.map (eventTime py)).getD PyFloat.zero
  (truncationMarker at_time (previous + lines.length - keep.length), keep)

/-- `_compact`: the new content, or `none` where decoding it raises. -/
def compact (limit : Nat) (data : Bytes) : Option Bytes :=
  let (marker, keep) := compaction py limit data
  let content := marker.markerLine ++ keep.flatten
  if (decodeUtf8 content).isSome then some content else none

/-- The event as this writer records it. -/
def TranscriptConfig.safe (c : TranscriptConfig) (e : TranscriptEvent) : TranscriptEvent :=
  e.safe c.redact c.pool_id c.worker_id

/-- Where the writer is: between appends, or with a line of which a rest is
still to be written, behind a file that it takes to have this size. -/
inductive WriterPhase where
  | idle
  | writing (event : TranscriptEvent) (rest : Bytes) (size : Nat)
  deriving DecidableEq

structure TranscriptWorld where
  file : Option TranscriptFile := none
  /-- `self._sizes.get(name)`. -/
  size : Option Nat := none
  phase : WriterPhase := .idle
  tail : TranscriptTail := {}
  /-- The events whose appends have succeeded. -/
  done : List TranscriptEvent := []

/-- The bytes of the file; none without one. -/
def TranscriptWorld.data (w : TranscriptWorld) : Bytes := (w.file.map TranscriptFile.data).getD []

inductive TranscriptAction where
  /-- The reader looks. -/
  | refresh
  /-- Another writer takes over. -/
  | restart
  /-- An append begins; a compaction makes a file of this identity. -/
  | start (event : TranscriptEvent) (identity : Nat)
  /-- Bytes of the line reach the file, which is made if there is none. -/
  | write (count : Nat) (identity : Nat)
  | finish
  | fail

namespace TranscriptWorld

variable (c : TranscriptConfig)

/-- The size the writer takes the file to have. -/
def knownSize (w : TranscriptWorld) : Nat := w.size.getD w.data.length

/-- `_write_event` of an event made safe, up to opening the file. -/
def beginAppend (event : TranscriptEvent) (identity : Nat) (w : TranscriptWorld) : TranscriptWorld :=
  if c.limit < w.knownSize + event.line.length then
    match compact c.py c.limit w.data with
    | none => w
    | some content =>
        { w with file := some ⟨identity, content⟩, phase := .writing event event.line content.length }
  else { w with phase := .writing event event.line w.knownSize }

def step (w : TranscriptWorld) : TranscriptAction → TranscriptWorld
  | .refresh => { w with tail := w.tail.refresh c.py w.file }
  | .restart =>
      match w.phase with
      | .idle => { w with size := none }
      | .writing .. => w
  | .start event identity =>
      match w.phase with
      | .idle => w.beginAppend c (c.safe event) identity
      | .writing .. => w
  | .write count identity =>
      match w.phase with
      | .idle => w
      | .writing event rest size =>
          { w with
            file := some ⟨(w.file.map TranscriptFile.identity).getD identity, w.data ++ rest.take count⟩
            phase := .writing event (rest.drop count) size }
  | .finish =>
      match w.phase with
      | .writing event [] size =>
          { w with size := some (size + event.line.length), phase := .idle, done := w.done ++ [event] }
      | _ => w
  | .fail => { w with phase := .idle }

end TranscriptWorld

end Agenthicc.Subagents
