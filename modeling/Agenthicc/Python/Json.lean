/-
Agenthicc.Python.Json — JSON values and the text that `json.dumps` and
`json.loads` put between them.

The module knows nothing of the program that uses it. `dumps` is the
encoder with its default arguments (`ensure_ascii`, separators `", "` and
`": "`); `loads` is the decoder of the standard library as a recursive
descent over `List Char`.

Three representation choices matter to a reader:

* an object is the list of its pairs in text order, and `Json.get?` answers
  with the LAST pair of a key. A dict built from the same pairs has the same
  answers, and `{**a, **b}` is `a ++ b`;
* a float is named by its `float.__repr__` text, which is injective on
  floats and which `float()` reads back to the same value;
* a string is a Lean `String`, so an unpaired surrogate has no value here
  and `loads` refuses its escape.

The recursion carries a fuel that every nested call lowers by one; `loads`
starts it above the length of the text, and `parseValue_mono` in
`JsonTheorems` shows that more fuel never changes an answer.
-/
import Mathlib.Data.List.Basic
import Mathlib.Data.Char
import Mathlib.Tactic.Common

namespace Python

/-! ## 1. Number tokens -/

/-- Leading decimal digits and what follows them. -/
def spanDigits : List Char → List Char × List Char
  | [] => ([], [])
  | c :: rest =>
      if c.isDigit then ((c :: (spanDigits rest).1), (spanDigits rest).2)
      else ([], c :: rest)

/-- The optional minus sign of a number. -/
def scanSign : List Char → List Char × List Char
  | '-' :: rest => (['-'], rest)
  | s => ([], s)

/-- `0|[1-9][0-9]*`. -/
def scanInt : List Char → Option (List Char × List Char)
  | [] => none
  | c :: rest =>
      if c = '0' then some (['0'], rest)
      else if c.isDigit then some (c :: (spanDigits rest).1, (spanDigits rest).2)
      else none

/-- `(\.[0-9]+)?`: the empty token when the fraction is absent. -/
def scanFrac : List Char → List Char × List Char
  | '.' :: rest =>
      match spanDigits rest with
      | ([], _) => ([], '.' :: rest)
      | (ds, r) => ('.' :: ds, r)
  | s => ([], s)

/-- The optional sign of an exponent. -/
def scanExpSign : List Char → List Char × List Char
  | [] => ([], [])
  | c :: rest => if c = '+' ∨ c = '-' then ([c], rest) else ([], c :: rest)

/-- `([eE][-+]?[0-9]+)?`: the empty token when the exponent is absent. -/
def scanExp : List Char → List Char × List Char
  | [] => ([], [])
  | c :: rest =>
      if c = 'e' ∨ c = 'E' then
        match spanDigits (scanExpSign rest).2 with
        | ([], _) => ([], c :: rest)
        | (ds, r) => (c :: ((scanExpSign rest).1 ++ ds), r)
      else ([], c :: rest)

/-- One number token: its sign, its digits, its fraction with its exponent,
and the text after it. -/
def scanNumber (s : List Char) :
    Option (List Char × List Char × List Char × List Char) :=
  match scanInt (scanSign s).2 with
  | none => none
  | some (ds, r) =>
      some ((scanSign s).1, ds, (scanFrac r).1 ++ (scanExp (scanFrac r).2).1,
        (scanExp (scanFrac r).2).2)

/-- The texts `float.__repr__` writes for the three values without digits. -/
def specialFloats : List (List Char) :=
  ["NaN".toList, "Infinity".toList, "-Infinity".toList]

/-- The text is one whole number token with a fraction or an exponent, or a
special value. -/
def isFloatText (t : List Char) : Bool :=
  specialFloats.contains t ||
    match scanNumber t with
    | some (sg, ds, fe, []) => !fe.isEmpty && (sg ++ ds ++ fe == t)
    | _ => false

/-- A float, named by its repr. -/
structure PyFloat where
  text : List Char
  isFloat : isFloatText text = true
  deriving DecidableEq

/-! ## 2. Values -/

/-- A JSON value as the standard library represents it. -/
inductive Json where
  | null
  | bool (b : Bool)
  | int (n : Int)
  | float (x : PyFloat)
  | str (s : String)
  | arr (xs : List Json)
  | obj (kvs : List (String × Json))

namespace Json

mutual
/-- Equality of values is decided along their structure. -/
def decEq : (a b : Json) → Decidable (a = b)
  | .null, .null => isTrue rfl
  | .bool a, .bool b => decidable_of_iff (a = b) (by simp)
  | .int a, .int b => decidable_of_iff (a = b) (by simp)
  | .float a, .float b => decidable_of_iff (a = b) (by simp)
  | .str a, .str b => decidable_of_iff (a = b) (by simp)
  | .arr a, .arr b => @decidable_of_iff _ (a = b) (by simp) (decEqItems a b)
  | .obj a, .obj b => @decidable_of_iff _ (a = b) (by simp) (decEqPairs a b)
  | .null, .bool _ | .null, .int _ | .null, .float _ | .null, .str _ | .null, .arr _
  | .null, .obj _ | .bool _, .null | .bool _, .int _ | .bool _, .float _ | .bool _, .str _
  | .bool _, .arr _ | .bool _, .obj _ | .int _, .null | .int _, .bool _ | .int _, .float _
  | .int _, .str _ | .int _, .arr _ | .int _, .obj _ | .float _, .null | .float _, .bool _
  | .float _, .int _ | .float _, .str _ | .float _, .arr _ | .float _, .obj _ | .str _, .null
  | .str _, .bool _ | .str _, .int _ | .str _, .float _ | .str _, .arr _ | .str _, .obj _
  | .arr _, .null | .arr _, .bool _ | .arr _, .int _ | .arr _, .float _ | .arr _, .str _
  | .arr _, .obj _ | .obj _, .null | .obj _, .bool _ | .obj _, .int _ | .obj _, .float _
  | .obj _, .str _ | .obj _, .arr _ => isFalse (by simp)
def decEqItems : (a b : List Json) → Decidable (a = b)
  | [], [] => isTrue rfl
  | [], _ :: _ => isFalse (by simp)
  | _ :: _, [] => isFalse (by simp)
  | x :: xs, y :: ys =>
      @decidable_of_iff _ (x = y ∧ xs = ys) (by simp)
        (@instDecidableAnd _ _ (decEq x y) (decEqItems xs ys))
def decEqPairs : (a b : List (String × Json)) → Decidable (a = b)
  | [], [] => isTrue rfl
  | [], _ :: _ => isFalse (by simp)
  | _ :: _, [] => isFalse (by simp)
  | (k, x) :: xs, (l, y) :: ys =>
      @decidable_of_iff _ ((k = l ∧ x = y) ∧ xs = ys) (by simp [Prod.ext_iff])
        (@instDecidableAnd _ _ (@instDecidableAnd _ _ inferInstance (decEq x y))
          (decEqPairs xs ys))
end

instance : DecidableEq Json := decEq

/-- The value a key has in a list of pairs: that of its last pair. -/
def lookup (k : String) : List (String × Json) → Option Json
  | [] => none
  | (k', v) :: rest =>
      match lookup k rest with
      | some w => some w
      | none => if k' = k then some v else none

/-- `d.get(key)` on an object; a value that is no object has no keys. -/
def get? : Json → String → Option Json
  | .obj kvs, k => lookup k kvs
  | _, _ => none

/-- `d.get(key, default)`. -/
def getD (j : Json) (k : String) (dflt : Json) : Json := (j.get? k).getD dflt

/-- `d.get(key)` as Python returns it: `None` for a missing key. -/
def get (j : Json) (k : String) : Json := j.getD k .null

/-- `isinstance(value, dict)`. -/
def isObj : Json → Bool
  | .obj _ => true
  | _ => false

end Json

/-! ## 3. `json.dumps` -/

/-- One hexadecimal digit, lower case. -/
def hexDigit (n : Nat) : Char := Nat.digitChar n

/-- `\uXXXX`. -/
def unicodeEscape (n : Nat) : List Char :=
  ['\\', 'u', hexDigit (n / 4096 % 16), hexDigit (n / 256 % 16), hexDigit (n / 16 % 16),
    hexDigit (n % 16)]

/-- `py_encode_basestring_ascii` on one character: the short escapes, the
printable ASCII range as it is, and `\u` escapes (a surrogate pair above the
basic plane) for everything else. -/
def encodeChar (c : Char) : List Char :=
  if c = '"' then ['\\', '"']
  else if c = '\\' then ['\\', '\\']
  else if c = '\n' then ['\\', 'n']
  else if c = '\r' then ['\\', 'r']
  else if c = '\t' then ['\\', 't']
  else if c = '\x08' then ['\\', 'b']
  else if c = '\x0c' then ['\\', 'f']
  else if 0x20 ≤ c.toNat ∧ c.toNat ≤ 0x7e then [c]
  else if c.toNat < 0x10000 then unicodeEscape c.toNat
  else unicodeEscape (0xd800 + (c.toNat - 0x10000) / 1024)
    ++ unicodeEscape (0xdc00 + (c.toNat - 0x10000) % 1024)

/-- The characters between the quotes, and the closing quote. -/
def encodeBody (cs : List Char) : List Char := cs.flatMap encodeChar ++ ['"']

def encodeString (s : String) : List Char := '"' :: encodeBody s.toList

/-- `int.__repr__`. -/
def intText : Int → List Char
  | .ofNat n => Nat.toDigits 10 n
  | .negSucc n => '-' :: Nat.toDigits 10 (n + 1)

/-- The separator before an element, absent before the first. -/
def separator (first : Bool) : List Char := if first then [] else [',', ' ']

mutual
def dumps : Json → List Char
  | .null => "null".toList
  | .bool b => if b then "true".toList else "false".toList
  | .int n => intText n
  | .float x => x.text
  | .str s => encodeString s
  | .arr xs => '[' :: dumpsItems true xs
  | .obj kvs => '{' :: dumpsPairs true kvs
/-- The elements of an array with their separators, and the bracket. -/
def dumpsItems (first : Bool) : List Json → List Char
  | [] => [']']
  | x :: xs => separator first ++ (dumps x ++ dumpsItems false xs)
/-- The pairs of an object with their separators, and the brace. -/
def dumpsPairs (first : Bool) : List (String × Json) → List Char
  | [] => ['}']
  | (k, v) :: kvs =>
      separator first ++ (encodeString k ++ (':' :: ' ' :: (dumps v ++ dumpsPairs false kvs)))
end

/-- The blank behind a comma or a colon; `separators=(",", ":")` leaves it out. -/
def gap (spaced : Bool) : List Char := if spaced then [' '] else []

def separatorWith (spaced first : Bool) : List Char := if first then [] else ',' :: gap spaced

mutual
/-- `json.dumps(value)` with its default separators, or with compact ones. -/
def dumpsWith (spaced : Bool) : Json → List Char
  | .null => "null".toList
  | .bool b => if b then "true".toList else "false".toList
  | .int n => intText n
  | .float x => x.text
  | .str s => encodeString s
  | .arr xs => '[' :: dumpsItemsWith spaced true xs
  | .obj kvs => '{' :: dumpsPairsWith spaced true kvs
def dumpsItemsWith (spaced first : Bool) : List Json → List Char
  | [] => [']']
  | x :: xs => separatorWith spaced first ++ (dumpsWith spaced x ++ dumpsItemsWith spaced false xs)
def dumpsPairsWith (spaced first : Bool) : List (String × Json) → List Char
  | [] => ['}']
  | (k, v) :: kvs =>
      separatorWith spaced first ++ (encodeString k ++ (':' :: (gap spaced ++
        (dumpsWith spaced v ++ dumpsPairsWith spaced false kvs))))
end

/-- `json.dumps(value, separators=(",", ":"))`. -/
def compactDumps (v : Json) : List Char := dumpsWith false v

/-- One character with `ensure_ascii=False`: only the quote, the backslash and
the control characters are escaped. -/
def rawEncodeChar (c : Char) : List Char :=
  if c = '"' ∨ c = '\\' ∨ c.toNat < 0x20 then encodeChar c else [c]

def rawEncodeString (s : String) : List Char := '"' :: (s.toList.flatMap rawEncodeChar ++ ['"'])

mutual
/-- `json.dumps(value, ensure_ascii=False)`. -/
def rawDumps : Json → List Char
  | .str s => rawEncodeString s
  | .arr xs => '[' :: rawDumpsItems true xs
  | .obj kvs => '{' :: rawDumpsPairs true kvs
  | v => dumps v
def rawDumpsItems (first : Bool) : List Json → List Char
  | [] => [']']
  | x :: xs => separator first ++ (rawDumps x ++ rawDumpsItems false xs)
def rawDumpsPairs (first : Bool) : List (String × Json) → List Char
  | [] => ['}']
  | (k, v) :: kvs =>
      separator first ++ (rawEncodeString k ++ (':' :: ' ' :: (rawDumps v ++ rawDumpsPairs false kvs)))
end

/-! ## 4. `json.loads` -/

/-- The whitespace of the JSON grammar. -/
def isJsonWs (c : Char) : Bool := c == ' ' || c == '\t' || c == '\n' || c == '\r'

def skipWs : List Char → List Char
  | [] => []
  | c :: rest => if isJsonWs c then skipWs rest else c :: rest

/-- The value of a hexadecimal digit, either case. -/
def hexVal (c : Char) : Option Nat :=
  if c.isDigit then some (c.toNat - 48)
  else if 'a' ≤ c ∧ c ≤ 'f' then some (c.toNat - 87)
  else if 'A' ≤ c ∧ c ≤ 'F' then some (c.toNat - 55)
  else none

def hex4 (a b c d : Char) : Option Nat := do
  let a ← hexVal a
  let b ← hexVal b
  let c ← hexVal c
  let d ← hexVal d
  return a * 4096 + b * 256 + c * 16 + d

/-- The escapes of one character after the backslash. -/
def unescape (c : Char) : Option Char :=
  if c = '"' then some '"'
  else if c = '\\' then some '\\'
  else if c = '/' then some '/'
  else if c = 'b' then some '\x08'
  else if c = 'f' then some '\x0c'
  else if c = 'n' then some '\n'
  else if c = 'r' then some '\r'
  else if c = 't' then some '\t'
  else none

/-- The character two surrogates stand for. -/
def joinSurrogates (hi lo : Nat) : Char :=
  Char.ofNat (0x10000 + (hi - 0xd800) * 1024 + (lo - 0xdc00))

/-- `scanstring` in strict mode, from after the opening quote: the decoded
characters and the text after the closing quote. -/
def scanString : List Char → Option (List Char × List Char)
  | [] => none
  | '"' :: rest => some ([], rest)
  | '\\' :: 'u' :: a :: b :: c :: d :: rest =>
      match hex4 a b c d with
      | none => none
      | some n =>
          if 0xd800 ≤ n ∧ n < 0xdc00 then
            -- a high half needs its low half; Python keeps it alone otherwise
            match rest with
            | '\\' :: 'u' :: a' :: b' :: c' :: d' :: rest' =>
                match hex4 a' b' c' d' with
                | none => none
                | some m =>
                    if 0xdc00 ≤ m ∧ m < 0xe000 then
                      (scanString rest').map fun p => (joinSurrogates n m :: p.1, p.2)
                    else none
            | _ => none
          else if 0xdc00 ≤ n ∧ n < 0xe000 then none
          else (scanString rest).map fun p => (Char.ofNat n :: p.1, p.2)
  | '\\' :: e :: rest =>
      match unescape e with
      | none => none
      | some c => (scanString rest).map fun p => (c :: p.1, p.2)
  | c :: rest =>
      if c.toNat < 0x20 ∨ c = '\\' then none
      else (scanString rest).map fun p => (c :: p.1, p.2)

/-- `int(text)` of a scanned token. -/
def intOfToken (sg ds : List Char) : Int :=
  if sg.isEmpty then Int.ofNat (Nat.ofDigitChars 10 ds 0)
  else -Int.ofNat (Nat.ofDigitChars 10 ds 0)

/-- A number: an `int` unless the token has a fraction or an exponent. -/
def parseNumber (s : List Char) : Option (Json × List Char) :=
  match scanNumber s with
  | none => none
  | some (sg, ds, fe, r) =>
      if fe.isEmpty then some (.int (intOfToken sg ds), r)
      else if h : isFloatText (sg ++ ds ++ fe) = true then
        some (.float ⟨sg ++ ds ++ fe, h⟩, r)
      else none

/-- The constants of the scanner, the three special floats among them. -/
def literals : List (List Char × Json) :=
  [("null".toList, .null), ("true".toList, .bool true), ("false".toList, .bool false),
    ("NaN".toList, .float ⟨"NaN".toList, by decide⟩),
    ("Infinity".toList, .float ⟨"Infinity".toList, by decide⟩),
    ("-Infinity".toList, .float ⟨"-Infinity".toList, by decide⟩)]

/-- A constant or a number. -/
def parseAtom (s : List Char) : Option (Json × List Char) :=
  match literals.findSome? fun p => (p.1.isPrefixOf? s).map fun r => (p.2, r) with
  | some r => some r
  | none => parseNumber s

/-- The rest after an expected character. -/
def expect (c : Char) : List Char → Option (List Char)
  | [] => none
  | d :: rest => if d = c then some rest else none

mutual
/-- `scan_once`: one value at the head of the text. -/
def parseValue : Nat → List Char → Option (Json × List Char)
  | 0, _ => none
  | fuel + 1, s =>
      match s with
      | '"' :: rest => (scanString rest).map fun p => (.str (String.ofList p.1), p.2)
      | '{' :: rest =>
          match skipWs rest with
          | '}' :: r => some (.obj [], r)
          | r => (parseMembers fuel r).map fun p => (.obj p.1, p.2)
      | '[' :: rest =>
          match skipWs rest with
          | ']' :: r => some (.arr [], r)
          | r => (parseItems fuel r).map fun p => (.arr p.1, p.2)
      | s => parseAtom s
/-- The members of an object, from the first key to the brace. -/
def parseMembers : Nat → List Char → Option (List (String × Json) × List Char)
  | 0, _ => none
  | fuel + 1, s => do
      let r0 ← expect '"' s
      let (k, r1) ← scanString r0
      let r2 ← expect ':' (skipWs r1)
      let (v, r3) ← parseValue fuel (skipWs r2)
      match skipWs r3 with
      | '}' :: r4 => some ([(String.ofList k, v)], r4)
      | ',' :: r4 =>
          (parseMembers fuel (skipWs r4)).map fun p => ((String.ofList k, v) :: p.1, p.2)
      | _ => none
/-- The elements of an array, from the first one to the bracket. -/
def parseItems : Nat → List Char → Option (List Json × List Char)
  | 0, _ => none
  | fuel + 1, s => do
      let (v, r) ← parseValue fuel s
      match skipWs r with
      | ']' :: r' => some ([v], r')
      | ',' :: r' => (parseItems fuel (skipWs r')).map fun p => (v :: p.1, p.2)
      | _ => none
end

/-- `json.loads`: one value with nothing but whitespace around it. `none` is
`JSONDecodeError`. -/
def loads (s : List Char) : Option Json :=
  match parseValue (s.length + 1) (skipWs s) with
  | some (v, r) => if skipWs r = [] then some v else none
  | none => none

end Python
