/-
Agenthicc.Tui.SessionInspect — the part of `inspect_session` that reads the
conversation journal: `_read_jsonl` and the resume summary.

The other artifacts of a session and what is counted of them are left out.
-/
import Agenthicc.Python.Builtins
import Agenthicc.Python.Dict
import Agenthicc.Python.JsonLines

open Python

namespace Agenthicc.Tui

/-! ## 1. Records -/

/-- A line as `_read_jsonl` takes it: the blanks around a record are left to
the decoder. -/
def readRecord (raw : List Char) : Line :=
  if strip raw = [] then .blank
  else
    match loads raw with
    | some v => .entry v
    | none => .corrupt

/-- The records of lines that may be malformed. -/
def recordsOfLines (lines : List Line) : List Json :=
  lines.filterMap fun
    | .entry v => some v
    | _ => none

/-- `_read_jsonl`: the records, and how many lines were skipped. -/
def readJsonl (text : List Char) : List Json × Nat :=
  let lines := (fileLines text).map readRecord
  (recordsOfLines lines, lines.countP (· = .corrupt))

/-! ## 2. The resume summary -/

/-- `_text`. -/
def textOf : Json → String
  | .str s => s
  | _ => ""

/-- `_integer`; `int` of a float raises on one that is not finite. -/
def integerOf (py : Interp) : Json → Except PyError Int
  | .int n => .ok n
  | .float x => py.valueInt (.float x)
  | _ => .ok 0

structure ResumeSummary where
  incomplete : Bool
  turn_id : Option String
  base_count : Option Int
  tool_records : Nat
  turns_started : Nat
  turns_completed : Nat
  deriving DecidableEq

/-- The locals of `_resume_summary`; a set is a list without repeats. -/
structure SummaryFold where
  started : List (String × Int) := []
  completed : List String := []
  terminal : List String := []
  tool_counts : Dict String Nat := .empty

namespace SummaryFold

/-- One record. -/
def record (py : Interp) (f : SummaryFold) (record : Json) : Except PyError SummaryFold :=
  match record with
  | .obj _ =>
      let kind := textOf (record.get "kind")
      let turn_id := textOf (record.get "turn_id")
      if kind = "turn_started" ∧ turn_id ≠ "" then do
        let base_count ← integerOf py (record.get "base_count")
        return { f with started := f.started ++ [(turn_id, base_count)] }
      else if kind = "turn_completed" ∧ turn_id ≠ "" then
        .ok { f with completed := f.completed.insert turn_id, terminal := f.terminal.insert turn_id }
      else if kind ∈ ["turn_failed", "turn_aborted", "turn_recovered"] ∧ turn_id ≠ "" then
        .ok { f with terminal := f.terminal.insert turn_id }
      else if kind = "tool_recorded" ∧ turn_id ≠ "" then
        .ok { f with tool_counts := f.tool_counts.set turn_id ((f.tool_counts.get? turn_id).getD 0 + 1) }
      else .ok f
  | _ => .ok f

/-- The summary behind the last record. -/
def summary (f : SummaryFold) : ResumeSummary :=
  match f.started.reverse.find? fun s => s.1 ∉ f.terminal with
  | some (turn_id, base_count) =>
      { incomplete := true, turn_id, base_count, tool_records := (f.tool_counts.get? turn_id).getD 0
        turns_started := f.started.length, turns_completed := f.completed.length }
  | none =>
      { incomplete := false, turn_id := none, base_count := none, tool_records := 0
        turns_started := f.started.length, turns_completed := f.completed.length }

end SummaryFold

/-- `_resume_summary`. -/
def resumeSummary (py : Interp) (records : List Json) : Except PyError ResumeSummary := do
  let f ← records.foldlM (SummaryFold.record py) {}
  return f.summary

/-- The resume entry of `inspect_session`. -/
def inspectResume (py : Interp) (text : List Char) : Except PyError ResumeSummary :=
  resumeSummary py (readJsonl text).1

end Agenthicc.Tui
