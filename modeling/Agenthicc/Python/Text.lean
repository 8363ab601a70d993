/-
Agenthicc.Python.Text — the string methods of the schedule code, on lists of
characters.

`casefold` folds to ASCII what the language folds to ASCII; a letter that
folds to letters beyond it is kept, and nothing here compares with such a
letter. `fixed6` is the format `:.6f`, rounding half to even as it does.
-/
import Agenthicc.Python.JsonLines
import Mathlib.Data.Rat.Floor

namespace Python

def foldChar (c : Char) : List Char :=
  if c = 'ſ' then ['s']
  else if c = 'K' then ['k']
  else if c = 'ß' ∨ c = 'ẞ' then ['s', 's']
  else if c = 'ﬀ' then ['f', 'f']
  else if c = 'ﬁ' then ['f', 'i']
  else if c = 'ﬂ' then ['f', 'l']
  else if c = 'ﬃ' then ['f', 'f', 'i']
  else if c = 'ﬄ' then ['f', 'f', 'l']
  else if c = 'ﬅ' ∨ c = 'ﬆ' then ['s', 't']
  else [c.toLower]

/-- `s.casefold()`. -/
def casefold (s : String) : String := String.ofList (s.toList.flatMap foldChar)

/-- `needle in text`. -/
def contains (needle text : List Char) : Bool := text.tails.any needle.isPrefixOf

/-- `text.partition(sep)`: what stands before, whether `sep` occurs, what
stands behind. -/
def partition (sep : Char) : List Char → List Char × Bool × List Char
  | [] => ([], false, [])
  | c :: rest =>
      if c = sep then ([], true, rest)
      else
        let (head, found, tail) := partition sep rest
        (c :: head, found, tail)

/-- `text.split(sep)`. -/
def splitOn (sep : Char) : List Char → List (List Char)
  | [] => [[]]
  | c :: rest =>
      if c = sep then [] :: splitOn sep rest
      else
        match splitOn sep rest with
        | [] => [[c]]
        | word :: words => (c :: word) :: words

/-- `text.split()`. -/
def splitSpaces (text : List Char) : List (List Char) :=
  ((splitOn ' ' (text.map fun c => if isSpace c then ' ' else c)).filter (· ≠ []))

/-- The nearest integer, of two the even one. -/
def roundHalfEven (q : ℚ) : ℤ :=
  let below := ⌊q⌋
  if q - below < 1 / 2 then below
  else if 1 / 2 < q - below then below + 1
  else if below % 2 = 0 then below else below + 1

/-- `f"{q:.6f}"`. -/
def fixed6 (q : ℚ) : String :=
  let scaled := (roundHalfEven (|q| * 1000000)).toNat
  let digits := (toString (scaled % 1000000)).toList
  (if q < 0 then "-" else "") ++ toString (scaled / 1000000) ++ "."
    ++ String.ofList (List.replicate (6 - digits.length) '0' ++ digits)

end Python
