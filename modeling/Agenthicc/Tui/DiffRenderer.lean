/-
Agenthicc.Tui.DiffRenderer — the rows of a diff preview, and the lines that
are highlighted for it.

Lines are their indices: of a row its texts, styles and the paired line are
left out. A context row is a line of both files. `OpcodeList` is what
`SequenceMatcher.get_opcodes` gives: opcodes that tile both files, no two
equal ones in a row.
-/
import Mathlib

namespace Agenthicc.Tui

/-! ## 1. Opcodes -/

inductive OpcodeTag where
  | equal
  | replace
  | delete
  | insert
  deriving DecidableEq

structure Opcode where
  tag : OpcodeTag
  i1 : Nat
  i2 : Nat
  j1 : Nat
  j2 : Nat
  deriving DecidableEq

namespace Opcode

def isChange (op : Opcode) : Bool := op.tag ≠ .equal

/-- The first lines of an equal run. -/
def first (op : Opcode) (context : Nat) : Opcode := ⟨.equal, op.i1, op.i1 + context, op.j1, op.j1 + context⟩

/-- The last lines of an equal run. -/
def last (op : Opcode) (context : Nat) : Opcode := ⟨.equal, op.i2 - context, op.i2, op.j2 - context, op.j2⟩

/-- What the ranges of an opcode are for its tag. -/
def Shaped (op : Opcode) : Prop :=
  match op.tag with
  | .equal => op.i1 < op.i2 ∧ op.j1 < op.j2 ∧ op.i2 - op.i1 = op.j2 - op.j1
  | .replace => op.i1 < op.i2 ∧ op.j1 < op.j2
  | .delete => op.i1 < op.i2 ∧ op.j1 = op.j2
  | .insert => op.i1 = op.i2 ∧ op.j1 < op.j2

end Opcode

/-- The opcodes tile both files from here on, and equal ones stand between
changes. -/
def Tiles (old_len new_len : Nat) : (i j : Nat) → List Opcode → Prop
  | i, j, [] => i = old_len ∧ j = new_len
  | i, j, op :: rest =>
      op.i1 = i ∧ op.j1 = j ∧ op.Shaped
        ∧ (op.isChange = false → ∀ next ∈ rest.head?, next.isChange = true)
        ∧ Tiles old_len new_len op.i2 op.j2 rest

structure OpcodeList (old_len new_len : Nat) where
  ops : List Opcode
  tiles : Tiles old_len new_len 0 0 ops

/-! ## 2. Hunks -/

/-- The variables of the loop of `_build_hunks`. -/
structure Grouping where
  hunks : List (List Opcode) := []
  current : List Opcode := []
  pending_context : Option Opcode := none

/-- One round of the loop. -/
def Grouping.step (context : Nat) (s : Grouping) (op : Opcode) : Grouping :=
  if op.isChange = false ∧ 2 * context < op.i2 - op.i1 then
    { hunks := if s.current = [] then s.hunks else s.hunks ++ [s.current ++ [op.first context]]
      current := []
      pending_context := some (op.last context) }
  else
    { s with current := s.current ++ s.pending_context.toList ++ [op], pending_context := none }

/-- What is left of the loop becomes the last hunk. -/
def Grouping.finish (s : Grouping) : List (List Opcode) :=
  if s.current = [] then s.hunks else s.hunks ++ [s.current]

/-- An equal block that the file begins with. -/
def trimLead (context : Nat) (op : Opcode) : Opcode :=
  if op.isChange = false ∧ context < op.i2 - op.i1 then op.last context else op

/-- An equal block that the file ends with. -/
def trimTrail (context : Nat) (op : Opcode) : Opcode :=
  if op.isChange = false ∧ context < op.i2 - op.i1 then op.first context else op

def trimFirst (context : Nat) : List (List Opcode) → List (List Opcode)
  | (op :: rest) :: hunks => (trimLead context op :: rest) :: hunks
  | [] :: hunks => [] :: hunks
  | [] => []

def trimEnd (context : Nat) : List Opcode → List Opcode
  | [] => []
  | [op] => [trimTrail context op]
  | op :: next :: rest => op :: trimEnd context (next :: rest)

def trimLast (context : Nat) : List (List Opcode) → List (List Opcode)
  | [] => []
  | [hunk] => [trimEnd context hunk]
  | hunk :: next :: rest => hunk :: trimLast context (next :: rest)

/-- `_build_hunks`. -/
def buildHunks (opcodes : List Opcode) (context : Nat) : List (List Opcode) :=
  trimLast context (trimFirst context (opcodes.foldl (Grouping.step context) {}).finish)

/-! ## 3. Rows -/

def DIFF_PREVIEW_LINES : Nat := 6

/-- A changed line, by its index in the old or the new file. -/
inductive ChangeRow where
  | delete (index : Nat)
  | add (index : Nat)
  deriving DecidableEq

inductive Row where
  /-- An unchanged line, by its indices in both files. -/
  | context (old new : Nat)
  | change (row : ChangeRow)
  | omitted (count : Nat)
  /-- Between two hunks. -/
  | gap
  deriving DecidableEq

/-- `_iter_change_rows` and `_iter_change_indices`. -/
def changeRows (changes : List Opcode) : List ChangeRow :=
  changes.flatMap fun op =>
    (List.range' op.i1 (op.i2 - op.i1)).map .delete ++ (List.range' op.j1 (op.j2 - op.j1)).map .add

def totalRows (changes : List Opcode) : Nat :=
  (changes.map fun op => (op.i2 - op.i1) + (op.j2 - op.j1)).sum

/-- `first_rows`. -/
def firstRows (rows : List ChangeRow) : List ChangeRow := rows.take (DIFF_PREVIEW_LINES / 2)

/-- `last_rows`, a deque of that length. -/
def lastRows (rows : List ChangeRow) : List ChangeRow := rows.drop (rows.length - DIFF_PREVIEW_LINES / 2)

/-- `_render_change_block`. -/
def renderChangeBlock (changes : List Opcode) : List Row :=
  let rows := changeRows changes
  if totalRows changes ≤ DIFF_PREVIEW_LINES then rows.map .change
  else
    (firstRows rows).map .change ++ [.omitted (totalRows changes - DIFF_PREVIEW_LINES)]
      ++ (lastRows rows).map .change

/-- The rows of an equal opcode. -/
def contextRows (op : Opcode) : List Row :=
  (List.range (op.i2 - op.i1)).map fun off => .context (op.i1 + off) (op.j1 + off)

/-- The rows of a hunk; adjacent changes are one block. -/
def renderHunk : (change_block : List Opcode) → List Opcode → List Row
  | change_block, [] => renderChangeBlock change_block
  | change_block, op :: rest =>
      if op.isChange then renderHunk (change_block ++ [op]) rest
      else renderChangeBlock change_block ++ contextRows op ++ renderHunk [] rest

def renderHunks : List (List Opcode) → List Row
  | [] => []
  | [hunk] => renderHunk [] hunk
  | hunk :: next :: rest => renderHunk [] hunk ++ .gap :: renderHunks (next :: rest)

/-! ## 4. Highlighting -/

/-- A set comprehension over an iterator: what it takes, and the iterator it
leaves, which has come to its end. -/
def drain (index : ChangeRow → Option Nat) (rows : List ChangeRow) : Finset Nat × List ChangeRow :=
  ((rows.filterMap index).toFinset, [])

def ChangeRow.oldIndex : ChangeRow → Option Nat
  | delete index => some index
  | add _ => none

def ChangeRow.newIndex : ChangeRow → Option Nat
  | delete _ => none
  | add index => some index

/-- `_visible_change_indices`. Both sets are read from one iterator. -/
def visibleChangeIndices (changes : List Opcode) : Finset Nat × Finset Nat :=
  let rows := changeRows changes
  let rows :=
    if DIFF_PREVIEW_LINES < totalRows changes then firstRows rows ++ lastRows rows else rows
  let (old, rows) := drain ChangeRow.oldIndex rows
  let (new, _) := drain ChangeRow.newIndex rows
  (old, new)

def unite (a b : Finset Nat × Finset Nat) : Finset Nat × Finset Nat := (a.1 ∪ b.1, a.2 ∪ b.2)

/-- The indices of an equal opcode. -/
def contextIndices (op : Opcode) : Finset Nat × Finset Nat :=
  ((List.range' op.i1 (op.i2 - op.i1)).toFinset, (List.range' op.j1 (op.j2 - op.j1)).toFinset)

/-- The indices of a hunk that are selected for highlighting. -/
def selectHunk : (pending_changes : List Opcode) → List Opcode → Finset Nat × Finset Nat
  | pending_changes, [] => visibleChangeIndices pending_changes
  | pending_changes, op :: rest =>
      if op.isChange then selectHunk (pending_changes ++ [op]) rest
      else unite (unite (visibleChangeIndices pending_changes) (contextIndices op)) (selectHunk [] rest)

def selectHunks (hunks : List (List Opcode)) : Finset Nat × Finset Nat :=
  hunks.foldr (fun hunk selected => unite (selectHunk [] hunk) selected) (∅, ∅)

/-! ## 5. The preview -/

structure Preview where
  rows : List Row
  old_indices : Finset Nat
  new_indices : Finset Nat

/-- `n_added`. -/
def addedLines (opcodes : List Opcode) : Nat :=
  ((opcodes.filter fun op => op.tag = .insert ∨ op.tag = .replace).map fun op => op.j2 - op.j1).sum

/-- `n_removed`. -/
def removedLines (opcodes : List Opcode) : Nat :=
  ((opcodes.filter fun op => op.tag = .delete ∨ op.tag = .replace).map fun op => op.i2 - op.i1).sum

/-- `render_file_diff`, for the opcodes of two files. -/
def renderFileDiff (old_len new_len : Nat) (opcodes : List Opcode) (context : Nat) : Preview :=
  if addedLines opcodes ≠ 0 ∨ removedLines opcodes ≠ 0 then
    let hunks := buildHunks opcodes context
    { rows := renderHunks hunks
      old_indices := (selectHunks hunks).1
      new_indices := (selectHunks hunks).2 }
  else
    { rows := (List.range old_len).map fun index => .context index index
      old_indices := Finset.range old_len
      new_indices := Finset.range new_len }

end Agenthicc.Tui
