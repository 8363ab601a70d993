/-
Agenthicc.Python.Fnmatch — file name patterns.

`fnmatch` on POSIX: `*` matches everything, `?` one character, `[seq]` one
character in the sequence and `[!seq]` one that is not. A `[` that nothing
closes stands for itself. Inside brackets an empty range such as `b-a` is
dropped, as the language drops it.
-/
import Mathlib.Data.List.Basic
import Mathlib.Tactic.Common

namespace Python

/-- The characters of a bracket: chunks of the text between the brackets, cut
at the hyphens that make ranges. -/
structure CharSet where
  negated : Bool
  chunks : List (List Char)
  deriving DecidableEq, Repr

inductive Glob where
  | star
  | any
  | lit (c : Char)
  | set (s : CharSet)
  deriving DecidableEq, Repr

/-! ## 1. Brackets -/

/-- The text up to the closing bracket, and what follows it. A `]` in first
place, also behind a `!`, closes nothing. -/
def closeBracket (cs : List Char) : Option (List Char × List Char) :=
  let bang := cs.takeWhile (· = '!') |>.take 1
  let afterBang := cs.drop bang.length
  let close := afterBang.takeWhile (· = ']') |>.take 1
  match (afterBang.drop close.length).span (· ≠ ']') with
  | (_, []) => none
  | (body, _ :: rest) => some (bang ++ close ++ body, rest)

/-- Cutting at the hyphens that have `skip` characters in front of them; every
later one needs two. -/
def splitChunks : Nat → Nat → List Char → List (List Char)
  | 0, _, cs => [cs]
  | fuel + 1, skip, cs =>
      match (cs.drop skip).span (· ≠ '-') with
      | (_, []) => [cs]
      | (body, _ :: rest) => (cs.take skip ++ body) :: splitChunks fuel 2 rest

/-- A hyphen at the end stands for itself. -/
def keepLastHyphen : List (List Char) → List (List Char)
  | [c, []] => [c ++ ['-']]
  | c :: rest => c :: keepLastHyphen rest
  | [] => []

/-- Dropping empty ranges, from the last one on. -/
def dropEmptyRanges : List (List Char) → List (List Char)
  | [] => []
  | c :: rest =>
      match dropEmptyRanges rest with
      | [] => [c]
      | d :: ds =>
          match c.getLast?, d.head? with
          | some hi, some lo => if lo < hi then (c.dropLast ++ d.tail) :: ds else c :: d :: ds
          | _, _ => c :: d :: ds

/-- A hyphen behind the negation stands for itself. -/
def keepFirstHyphen : List (List Char) → List (List Char)
  | [] :: d :: ds => ('-' :: d) :: ds
  | chunks => chunks

def charSet (stuff : List Char) : CharSet :=
  let skip := if stuff.head? = some '!' then 2 else 1
  match dropEmptyRanges (keepLastHyphen (splitChunks stuff.length skip stuff)) with
  | ('!' :: c) :: rest => ⟨true, keepFirstHyphen (c :: rest)⟩
  | chunks => ⟨false, chunks⟩

/-- A character between the end of a chunk and the start of the next. -/
def inRanges (x : Char) : List (List Char) → Bool
  | c :: d :: rest =>
      (match c.getLast?, d.head? with
        | some lo, some hi => decide (lo ≤ x) && decide (x ≤ hi)
        | _, _ => false) || inRanges x (d :: rest)
  | _ => false

def CharSet.matches (s : CharSet) (x : Char) : Bool :=
  (s.chunks.any (·.contains x) || inRanges x s.chunks) != s.negated

/-! ## 2. Patterns -/

/-- The pattern read from the left; the number bounds the reading. -/
def translateFrom : Nat → List Char → List Glob
  | 0, _ => []
  | _ + 1, [] => []
  | fuel + 1, c :: cs =>
      if c = '*' then .star :: translateFrom fuel cs
      else if c = '?' then .any :: translateFrom fuel cs
      else if c = '[' then
        match closeBracket cs with
        | none => .lit '[' :: translateFrom fuel cs
        | some (stuff, rest) => .set (charSet stuff) :: translateFrom fuel rest
      else .lit c :: translateFrom fuel cs

def translate (pat : List Char) : List Glob := translateFrom pat.length pat

def globMatch : List Glob → List Char → Bool
  | [], cs => cs.isEmpty
  | .star :: gs, cs => cs.tails.any (globMatch gs)
  | .any :: gs, cs => match cs with
      | [] => false
      | _ :: rest => globMatch gs rest
  | .lit c :: gs, cs => match cs with
      | [] => false
      | x :: rest => x == c && globMatch gs rest
  | .set s :: gs, cs => match cs with
      | [] => false
      | x :: rest => s.matches x && globMatch gs rest

def fnmatch (name pat : String) : Bool := globMatch (translate pat.toList) name.toList

/-- A pattern without `*`, `?` and `[`. -/
def Literal (cs : List Char) : Prop := ∀ c ∈ cs, c ≠ '*' ∧ c ≠ '?' ∧ c ≠ '['

theorem translateFrom_literal : ∀ {fuel : Nat} {cs : List Char}, cs.length ≤ fuel → Literal cs →
    translateFrom fuel cs = cs.map .lit
  | 0, [], _, _ => rfl
  | _ + 1, [], _, _ => rfl
  | fuel + 1, c :: cs, hlen, h => by
      obtain ⟨hstar, hany, hset⟩ := h c List.mem_cons_self
      have hrest := @translateFrom_literal fuel cs (by simpa using hlen)
        fun x hx => h x (List.mem_cons_of_mem _ hx)
      simp only [translateFrom, hstar, hany, hset, if_false, hrest, List.map_cons]

theorem globMatch_literal : ∀ {cs xs : List Char}, globMatch (cs.map .lit) xs = true ↔ xs = cs
  | [], [] => by simp [globMatch]
  | [], _ :: _ => by simp [globMatch]
  | _ :: _, [] => by simp [globMatch]
  | c :: cs, x :: xs => by
      have ih := @globMatch_literal cs xs
      simp [globMatch, ih]

theorem fnmatch_literal {name pat : String} (h : Literal pat.toList) :
    fnmatch name pat = true ↔ name = pat := by
  unfold fnmatch translate
  rw [translateFrom_literal (Nat.le_refl _) h, globMatch_literal, String.toList_inj]

example : (fnmatch "read_file" "read_*", fnmatch "a-c" "a[!0-9]?", fnmatch "x[" "x[") = (true, true, true) := by
  decide

end Python
