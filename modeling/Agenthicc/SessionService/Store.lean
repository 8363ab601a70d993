/-
Agenthicc.SessionService.Store — the event logs, one JSON Lines file for a
session.

`append` writes the sorted compact record and its line break in one go;
`iterEvents` skips blank lines, lines that do not decode and records that
`from_mapping` refuses. The metadata index, which only speeds up listing, is
left out; so is the error of a line that holds a JSON value other than an
object, which no append writes.
-/
import Agenthicc.SessionService.Models

namespace Agenthicc.SessionService

open Python

/-- The logs by the identity that names them; `none` where there is no file. -/
abbrev Files := String → Option (List Char)

/-- `_safe_session_id`; `none` is its `ValueError`. -/
def safeSessionId (session_id : String) : Option String :=
  let cleaned := strip session_id.toList
  if cleaned = [] ∨ cleaned = ['.'] ∨ cleaned = ['.', '.'] ∨ cleaned.contains '/'
      ∨ cleaned.contains '\\' then none
  else some (String.ofList cleaned)

/-- The file of an identity that was accepted before. -/
def fileOf (session_id : String) : String := String.ofList (strip session_id.toList)

namespace Files

/-- What an append writes. -/
def line (event : SessionEvent) : List Char := sortedLine (.obj event.toDict)

def lines (events : List SessionEvent) : List Char := events.flatMap line

/-- `append`. -/
def append (files : Files) (event : SessionEvent) : Files :=
  Function.update files (fileOf event.session_id)
    (some ((files (fileOf event.session_id)).getD [] ++ line event))

end Files

/-- The event in a line. -/
def lineEvent (py : Interp) : Line → Option SessionEvent
  | .entry (.obj kvs) => SessionEvent.fromMapping py kvs
  | _ => none

/-- `iter_events` of a log. -/
def iterEvents (py : Interp) (text : List Char) (after_sequence : Int := 0) : List SessionEvent :=
  ((readLines text).filterMap (lineEvent py)).filter (·.sequence > after_sequence)

/-- `compact` of a log that was read before as `events`: the text that replaces
it and the earliest sequence; `none` where nothing is retained. -/
def compacted (events : List SessionEvent) (before_sequence : Int) : Option (List Char × Int) :=
  match events.filter (·.sequence ≥ before_sequence) with
  | [] => none
  | first :: rest => some (Files.lines (first :: rest), first.sequence)

/-! ## Reading what was written -/

/-- An event that a log gives back. -/
structure SessionEvent.Legible (e : SessionEvent) : Prop where
  named : e.Named
  sequence : 0 < e.sequence

theorem iterEvents_wholeLines (py : Interp) {text : List Char} (rest : List Char) (k : Int)
    (h : WholeLines text) :
    iterEvents py (text ++ rest) k = iterEvents py text k ++ iterEvents py rest k := by
  rw [iterEvents, readLines_wholeLines rest h, List.filterMap_append, List.filter_append]
  rfl

theorem wholeLines_lines (events : List SessionEvent) : WholeLines (Files.lines events) := by
  induction events with
  | nil => exact .inl rfl
  | cons event events ih => exact (wholeLines_sortedLine _).append ih

theorem lineEvent_obj (py : Interp) (kvs : Payload) :
    lineEvent py (.entry (.obj kvs)) = SessionEvent.fromMapping py kvs := rfl

theorem iterEvents_line (py : Interp) {event : SessionEvent} (h : event.Legible)
    (rest : List Char) :
    iterEvents py (Files.line event ++ rest) = event.canonical :: iterEvents py rest := by
  rw [iterEvents, Files.line, readLines_sortedLine, List.filterMap_cons, lineEvent_obj,
    SessionEvent.fromMapping_toDict py h.named]
  have hsequence : decide (event.canonical.sequence > 0) = true := decide_eq_true h.sequence
  simp only [List.filter_cons, hsequence, if_true]
  rfl

/-- **The events of a log are the events that were appended.** -/
theorem iterEvents_lines (py : Interp) {events : List SessionEvent}
    (h : ∀ event ∈ events, event.Legible) :
    iterEvents py (Files.lines events) = events.map SessionEvent.canonical := by
  induction events with
  | nil => rfl
  | cons event events ih =>
      have hhead := h event List.mem_cons_self
      have htail := ih fun e he => h e (List.mem_cons_of_mem _ he)
      rw [Files.lines, List.flatMap_cons, iterEvents_line py hhead, ← Files.lines, htail,
        List.map_cons]

theorem SessionEvent.canonical_canonical (e : SessionEvent) : e.canonical.canonical = e.canonical := by
  simp [SessionEvent.canonical]

end Agenthicc.SessionService
