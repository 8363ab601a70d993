/-
Agenthicc.Tools.ApplyDiff — `apply_diff` on the text of a file.

`parseHunks` reads the hunks of a unified diff and `applyHunks` puts them into
the lines of a file, each at its stated line or at the nearest match within 50
lines. The decoding and writing of the file, the check of its version and the
preview in the result are left out; of a header's numbers the digits are ASCII.
-/
import Agenthicc.Python.Lines
import Mathlib.Data.Int.Basic

namespace Agenthicc.Tools

open Python

/-! ## 1. Hunks -/

/-- A hunk: its zero-based start and its lines, without their endings. -/
structure Hunk where
  start : Nat
  old_lines : List (List Char)
  new_lines : List (List Char)
  deriving DecidableEq

/-- `\d+` in front of a text, with its value. -/
def scanNat : List Char → Option (Nat × List Char)
  | [] => none
  | c :: rest =>
      if c.isDigit then
        some (((c :: rest).takeWhile Char.isDigit).foldl (fun n d => 10 * n + (d.toNat - '0'.toNat)) 0,
          (c :: rest).dropWhile Char.isDigit)
      else none

/-- A fixed text in front of a text. -/
def scanText (word text : List Char) : Option (List Char) :=
  if word <+: text then some (text.drop word.length) else none

/-- `(\d+)(?:,(\d+))?`. -/
def scanRange (text : List Char) : Option ((Nat × Option Nat) × List Char) :=
  (scanNat text).map fun (start, rest) =>
    match rest with
    | ',' :: rest' =>
        match scanNat rest' with
        | some (count, rest'') => ((start, some count), rest'')
        | none => ((start, none), rest)
    | rest => ((start, none), rest)

/-- `_HUNK_HEADER` in front of a line: the range of old lines, and the text
behind the match. -/
def scanHeader (line : List Char) : Option ((Nat × Option Nat) × List Char) := do
  let rest ← scanText "@@ -".toList line
  let (old, rest) ← scanRange rest
  let rest ← scanText " +".toList rest
  let (_, rest) ← scanRange rest
  let rest ← scanText " @@".toList rest
  return (old, rest)

/-- The text of a diff, cut behind every line feed. -/
def feedLines : List Char → List (List Char)
  | [] => []
  | c :: rest =>
      if c = '\n' then ['\n'] :: feedLines rest
      else
        match feedLines rest with
        | [] => [[c]]
        | line :: lines => (c :: line) :: lines

/-- The matches of `_HUNK_HEADER` in a diff, each with the text up to the next
one. -/
def splitHeaders : List (List Char) → List ((Nat × Option Nat) × List Char)
  | [] => []
  | line :: lines =>
      match scanHeader line with
      | some (old, rest) =>
          (old, rest ++ (lines.takeWhile fun l => (scanHeader l).isNone).flatten)
            :: splitHeaders lines
      | none => splitHeaders lines

/-- The old and the new lines of a body. -/
def bodyLines : List (List Char) → List (List Char) × List (List Char)
  | [] => ([], [])
  | line :: lines =>
      let (old, new) := bodyLines lines
      match line with
      | '-' :: text => (text :: old, new)
      | '+' :: text => (old, text :: new)
      | ' ' :: text => (text :: old, text :: new)
      | [] => ([] :: old, [] :: new)
      | _ => (old, new)

/-- The loop that drops empty context lines behind a hunk, on the reversed
lines. -/
def dropBlank (old_count : Nat) :
    List (List Char) → List (List Char) → List (List Char) × List (List Char)
  | [] :: old, [] :: new =>
      if old_count < old.length + 1 then dropBlank old_count old new else ([] :: old, [] :: new)
  | old, new => (old, new)

/-- One hunk. -/
def parseHunk (header : Nat × Option Nat) (body : List Char) : Hunk :=
  let old_count := header.2.getD 1
  let (old, new) := bodyLines ((splitlines body).drop 1)
  let (old, new) := dropBlank old_count old.reverse new.reverse
  { start := if old_count = 0 then header.1 else header.1 - 1
    old_lines := old.reverse
    new_lines := new.reverse }

/-- `_parse_hunks`. -/
def parseHunks (diff : List Char) : List Hunk :=
  (splitHeaders (feedLines diff)).map fun (header, body) => parseHunk header body

/-! ## 2. Placing hunks -/

/-- `_HUNK_FUZZ_LINES`. -/
def HUNK_FUZZ_LINES : Nat := 50

/-- Whether the lines from `candidate` on are those of the hunk. -/
def matchesAt (bare old_lines : List (List Char)) (candidate : Int) : Bool :=
  0 ≤ candidate && candidate ≤ bare.length
    && (bare.drop candidate.toNat).take old_lines.length = old_lines

/-- The positions that are tried, the nearest first. -/
def candidates (expected_at : Int) : List Int :=
  (List.range (HUNK_FUZZ_LINES + 1)).flatMap fun (distance : Nat) =>
    [expected_at - distance, expected_at + distance]

/-- Where a hunk goes. -/
def searchHunk (bare old_lines : List (List Char)) (expected_at : Int) : Option Nat :=
  ((candidates expected_at).find? (matchesAt bare old_lines)).map Int.toNat

/-- An applied hunk: its number, the hunk and where it was put. The result
reports the number, `at + 1` and `at - expected_at`. -/
structure Placement where
  number : Nat
  hunk : Hunk
  at_line : Nat
  expected_at : Int
  deriving DecidableEq

/-- The variables of the loop over the hunks. -/
structure Patching where
  lines : List (List Char)
  bare : List (List Char)
  offset : Int := 0
  placements : List Placement := []
  failed : List Nat := []
  deriving DecidableEq

namespace Patching

/-- The lines of a file, before the first hunk. -/
def start (text : List Char) : Patching where
  lines := splitlinesKeep text
  bare := (splitlinesKeep text).map rstripNewlines

/-- The hunk ends at the end of a file whose last line has no newline. -/
def keepsOpenEnd (s : Patching) (replaced_end : Nat) : Bool :=
  replaced_end = s.lines.length && s.lines.getLast?.any fun line => !endsWithNewline line

/-- The new lines of a hunk with their endings. -/
def rendered (s : Patching) (ending : List Char) (replaced_end : Nat) (new_lines : List (List Char)) :
    List (List Char) :=
  if s.keepsOpenEnd replaced_end && !new_lines.isEmpty then
    new_lines.dropLast.map (· ++ ending) ++ new_lines.getLast?.toList
  else new_lines.map (· ++ ending)

/-- A hunk that goes to `at_line`. -/
def place (s : Patching) (ending : List Char) (number : Nat) (hunk : Hunk) (at_line : Nat) : Patching :=
  let replaced_end := at_line + hunk.old_lines.length
  { lines := s.lines.take at_line ++ s.rendered ending replaced_end hunk.new_lines
      ++ s.lines.drop replaced_end
    bare := s.bare.take at_line ++ hunk.new_lines ++ s.bare.drop replaced_end
    offset := s.offset + (hunk.new_lines.length - hunk.old_lines.length)
    placements := s.placements ++ [⟨number, hunk, at_line, hunk.start + s.offset⟩]
    failed := s.failed }

/-- One round of the loop, without its early return. -/
def step (ending : List Char) (s : Patching) (numbered : Nat × Hunk) : Patching :=
  match searchHunk s.bare numbered.2.old_lines (numbered.2.start + s.offset) with
  | some at_line => s.place ending numbered.1 numbered.2 at_line
  | none => { s with failed := s.failed ++ [numbered.1] }

end Patching

/-- What `apply_diff` refuses. -/
inductive DiffError where
  | noHunks
  /-- The context of this hunk was not found. -/
  | noMatch (number : Nat)
  deriving DecidableEq

/-- The loop over the hunks. Without `allow_partial` a hunk that is not found
ends it. -/
def applyHunks (ending : List Char) ( allow_partial : Bool) :
    List (Nat × Hunk) → Patching → Except DiffError Patching
  | [], s => .ok s
  | numbered :: rest, s =>
      if (searchHunk s.bare numbered.2.old_lines (numbered.2.start + s.offset)).isNone
          && ! allow_partial then .error (.noMatch numbered.1)
      else applyHunks ending allow_partial rest (s.step ending numbered)

/-- `DecodedFile.line_ending` of a text: CRLF where every line feed has a
carriage return before it, and there is one. -/
def lineEnding (text : List Char) : List Char :=
  let crlf := countCrlf text
  let lf := text.count '\n' - crlf
  if lf = 0 ∧ crlf ≠ 0 then ['\r', '\n'] else ['\n']
where
  /-- `text.count("\r\n")`. -/
  countCrlf : List Char → Nat
    | '\r' :: '\n' :: rest => countCrlf rest + 1
    | _ :: rest => countCrlf rest
    | [] => 0

/-- The hunks with their numbers, from 1. -/
def numberHunks (hunks : List Hunk) : List (Nat × Hunk) := hunks.zipIdx.map fun (hunk, i) => (i + 1, hunk)

/-- The hunks put into a text. -/
def patchText (text : List Char) (hunks : List Hunk) ( allow_partial : Bool) :
    Except DiffError Patching :=
  if hunks.isEmpty then .error .noHunks
  else applyHunks (lineEnding text) allow_partial (numberHunks hunks) (Patching.start text)

/-- `_apply_diff_sync` on the text of a file, for the hunks of a diff: the text
that the file has afterwards, and how it ended. -/
def applyDiffSync (text : List Char) (hunks : List Hunk) ( allow_partial : Bool) :
    List Char × Except DiffError Patching :=
  match patchText text hunks allow_partial with
  | .ok s => (s.lines.flatten, .ok s)
  | .error exc => (text, .error exc)

/-- `apply_diff`. -/
def applyDiff (text diff : List Char) ( allow_partial : Bool) : List Char × Except DiffError Patching :=
  applyDiffSync text (parseHunks diff) allow_partial

end Agenthicc.Tools
