/-
Agenthicc.Python.Builtins — the few interpreter functions the modelled code
calls on values, and the exceptions they raise.

`str.__repr__` and `str.upper` depend on the Unicode tables of the
interpreter, `float(int)` and comparing a float on binary rounding, and
`str(value)` and `int(value)` of a value of another type on its formatting. No
statement rests on what they return, so they are the fields of `Interp` and
every theorem holds for each choice.
-/
import Agenthicc.Python.Json

namespace Python

/-- The exceptions the modelled code lets through, with their text. -/
inductive PyError where
  | attributeError (message : String)
  | keyError (key : String)
  | typeError (message : String)
  | valueError (message : String)
  | osError (message : String)
  /-- A class of another package. -/
  | raised (className message : String)
  deriving DecidableEq

/-- A computation that returned, taken apart at its first step. -/
theorem bind_ok {α β : Type} {x : Except PyError α} {f : α → Except PyError β} {b : β}
    (h : x >>= f = .ok b) : ∃ a, x = .ok a ∧ f a = .ok b := by
  cases x with
  | error exc => cases h
  | ok a => exact ⟨a, rfl, h⟩

/-- `type(exc).__name__`. -/
def PyError.className : PyError → String
  | .attributeError _ => "AttributeError"
  | .keyError _ => "KeyError"
  | .typeError _ => "TypeError"
  | .valueError _ => "ValueError"
  | .osError _ => "OSError"
  | .raised className _ => className

/-- `type(value).__name__` of a decoded value. -/
def Json.typeName : Json → String
  | .null => "NoneType"
  | .bool _ => "bool"
  | .int _ => "int"
  | .float _ => "float"
  | .str _ => "str"
  | .arr _ => "list"
  | .obj _ => "dict"

/-! ### Floats by their repr -/

namespace PyFloat

/-- `0.0`. -/
def zero : PyFloat := ⟨['0', '.', '0'], by decide⟩

/-- `not x`: one of the two zeros. -/
def isZero (x : PyFloat) : Bool := x.text == ['0', '.', '0'] || x.text == ['-', '0', '.', '0']

/-- `x != x`. -/
def isNaN (x : PyFloat) : Bool := x.text == ['N', 'a', 'N']

/-- `math.isfinite(x) and x > 0`. -/
def isPositiveFinite (x : PyFloat) : Bool :=
  !specialFloats.contains x.text && x.text.head? != some '-' && !x.isZero

/-- `x == y`. -/
def numEq (x y : PyFloat) : Bool := (x == y && !x.isNaN) || (x.isZero && y.isZero)

/-- `x is y or x == y`, the test of a container on its elements. -/
def same (x y : PyFloat) : Bool := x == y || (x.isZero && y.isZero)

/-- `x or 0.0`. -/
def orZero (x : PyFloat) : PyFloat := if x.isZero then zero else x

@[simp] theorem same_refl (x : PyFloat) : x.same x = true := by simp [same]

theorem same_of_numEq {x y : PyFloat} (h : x.numEq y = true) : x.same y = true := by
  simp only [numEq, same, Bool.or_eq_true, Bool.and_eq_true] at h ⊢
  exact h.imp And.left id

@[simp] theorem isZero_zero : zero.isZero = true := by decide

@[simp] theorem orZero_orZero (x : PyFloat) : x.orZero.orZero = x.orZero := by
  unfold orZero
  split <;> simp_all

end PyFloat

/-- The interpreter functions that are left open. -/
structure Interp where
  /-- `repr(s)` of a string. -/
  strRepr : String → String
  /-- `float(n)`; `none` is `OverflowError`. -/
  floatOfInt : Int → Option PyFloat
  /-- `str(value)` of a value that is no string. -/
  valueStr : Json → String
  /-- `int(value)` of a value that is neither an integer nor a bool. -/
  valueInt : Json → Except PyError Int
  /-- `a == b` of two numbers, one of them a float. -/
  numEq : Json → Json → Bool
  /-- `s.upper()`. -/
  strUpper : String → String

/-- An interpreter for concrete runs: its `repr` is right on plain words and
its `float` on small integers. -/
def plainInterp : Interp where
  strRepr s := "'" ++ s ++ "'"
  floatOfInt n :=
    if h : isFloatText (intText n ++ ['.', '0']) = true then some ⟨_, h⟩ else none
  valueStr v := v.typeName
  valueInt v := .error (.typeError ("int() argument must be a string, a bytes-like object or a "
    ++ "real number, not '" ++ v.typeName ++ "'"))
  numEq a b := a = b
  strUpper := String.toUpper

/-- `s[:n]`. -/
def strTake (n : Nat) (s : String) : String := String.ofList (s.toList.take n)

theorem strTake_eq_self {n : Nat} {s : String} : strTake n s = s ↔ s.length ≤ n := by
  rw [strTake, ← String.toList_inj, String.toList_ofList, ← String.length_toList]
  constructor
  · intro h
    rw [← h, List.length_take]
    omega
  · exact List.take_of_length_le

/-- `sep.join(parts)`. -/
def strJoin (sep : String) (parts : List String) : String := sep.intercalate parts

/-- `None` or a string as a value. -/
def Json.ofOptStr : Option String → Json
  | none => .null
  | some s => .str s

/-- `str(value)`. -/
def pyStr (py : Interp) : Json → String
  | .str s => s
  | v => py.valueStr v

/-- `int(value)`. -/
def pyInt (py : Interp) : Json → Except PyError Int
  | .int n => .ok n
  | .bool b => .ok (if b then 1 else 0)
  | v => py.valueInt v

/-- `value[key]` of a mapping. -/
def pyItem (v : Json) (key : String) : Except PyError Json :=
  match v with
  | .obj kvs =>
      match Json.lookup key kvs with
      | some w => .ok w
      | none => .error (.keyError key)
  | v => .error (.typeError ("'" ++ v.typeName ++ "' object is not subscriptable"))

/-- The value as a key of a dictionary or a member of a set. -/
def pyKey : Json → Except PyError Json
  | .arr _ => .error (.typeError "unhashable type: 'list'")
  | .obj _ => .error (.typeError "unhashable type: 'dict'")
  | v => .ok v

/-- `list(value)`: a mapping gives its keys, a string its characters. -/
def pyList : Json → Except PyError (List Json)
  | .arr items => .ok items
  | .obj kvs => .ok ((kvs.map Prod.fst).eraseDups.map .str)
  | .str s => .ok (s.toList.map fun c => .str (String.ofList [c]))
  | v => .error (.typeError ("'" ++ v.typeName ++ "' object is not iterable"))

/-- `value.get(key, default)` where the value may be no mapping. -/
def pyGet (v : Json) (key : String) (dflt : Json := .null) : Except PyError Json :=
  match v with
  | .obj kvs => .ok ((Json.lookup key kvs).getD dflt)
  | v => .error (.attributeError ("'" ++ v.typeName ++ "' object has no attribute 'get'"))

/-- The integer a value is, `True` and `False` included. -/
def Json.intValue? : Json → Option Int
  | .int n => some n
  | .bool b => some (if b then 1 else 0)
  | _ => none

/-- `isinstance(value, (int, float))`. -/
def Json.isNumber : Json → Bool
  | .int _ | .bool _ | .float _ => true
  | _ => false

/-- `a == b` of two values that are no containers. -/
def scalarEq (py : Interp) (a b : Json) : Bool :=
  match a.intValue?, b.intValue? with
  | some m, some n => m = n
  | _, _ => if a.isNumber && b.isNumber then py.numEq a b else a = b

@[simp] theorem scalarEq_str (py : Interp) (a b : String) : scalarEq py (.str a) (.str b) = decide (a = b) := by
  simp [scalarEq, Json.intValue?, Json.isNumber]

mutual
/-- `a == b`: two dictionaries are compared without their order. -/
def pyEq (py : Interp) : Json → Json → Bool
  | .arr xs, .arr ys => pyEqItems py xs ys
  | .obj kvs, .obj kvs' =>
      pyEqPairs py kvs kvs' && kvs'.all fun p => (Json.lookup p.1 kvs).isSome
  | a, b => scalarEq py a b
def pyEqItems (py : Interp) : List Json → List Json → Bool
  | [], [] => true
  | x :: xs, y :: ys => pyEq py x y && pyEqItems py xs ys
  | _, _ => false
def pyEqPairs (py : Interp) : List (String × Json) → List (String × Json) → Bool
  | [], _ => true
  | (k, v) :: kvs, kvs' =>
      -- a pair with a later pair of its key is none of the dictionary
      ((Json.lookup k kvs).isSome ||
        match Json.lookup k kvs' with
        | some w => pyEq py v w
        | none => false) && pyEqPairs py kvs kvs'
end

/-- `bool(value)`. -/
def pyTruth (py : Interp) : Json → Bool
  | .null => false
  | .bool b => b
  | .int n => n ≠ 0
  | .float x => !py.numEq (.float x) (.int 0)
  | .str s => s ≠ ""
  | .arr items => !items.isEmpty
  | .obj kvs => !kvs.isEmpty

@[simp] theorem pyGet_obj (kvs : List (String × Json)) (key : String) (dflt : Json) :
    pyGet (.obj kvs) key dflt = .ok ((Json.lookup key kvs).getD dflt) := rfl

@[simp] theorem pyStr_str (py : Interp) (s : String) : pyStr py (.str s) = s := rfl

@[simp] theorem pyInt_int (py : Interp) (n : Int) : pyInt py (.int n) = .ok n := rfl

@[simp] theorem pyKey_str (s : String) : pyKey (.str s) = .ok (.str s) := rfl

@[simp] theorem pyList_arr (items : List Json) : pyList (.arr items) = .ok items := rfl

end Python
