/-
Agenthicc.Python.Calendar — `datetime.date` and naive `datetime.datetime`.

A date is its proleptic Gregorian ordinal; the calendar fields are computed
from it as `date.fromordinal` does.
-/
import Mathlib.Data.List.Basic
import Mathlib.Data.List.Lex
import Mathlib.Tactic.Common

namespace Python

/-- `date.toordinal()`: 0001-01-01 is 1. -/
structure Date where
  ordinal : Nat
  deriving DecidableEq

namespace Date

/-- `date.max.toordinal()`. -/
def maxOrdinal : Nat := 3652059

def daysInMonth : List Nat := [0, 31, 28, 31, 30, 31, 30, 31, 31, 30, 31, 30, 31]

def daysBeforeMonth : List Nat := [0, 0, 31, 59, 90, 120, 151, 181, 212, 243, 273, 304, 334]

/-- Month and day of the month. -/
def monthDay (date : Date) : Nat × Nat :=
  let n := date.ordinal - 1
  let n400 := n % 146097
  let n100 := n400 / 36524
  let n := n400 % 36524
  let n4 := n / 1461
  let n := n % 1461
  let n1 := n / 365
  let n := n % 365
  if n1 = 4 ∨ n100 = 4 then (12, 31)
  else
    let leap := if n1 = 3 ∧ (n4 ≠ 24 ∨ n100 = 3) then 1 else 0
    let month := (n + 50) / 32
    let before := daysBeforeMonth.getD month 0 + if month > 2 then leap else 0
    if before > n then
      let length := daysInMonth.getD (month - 1) 0 + if month - 1 = 2 then leap else 0
      (month - 1, n - (before - length) + 1)
    else (month, n - before + 1)

def month (date : Date) : Nat := date.monthDay.1

def day (date : Date) : Nat := date.monthDay.2

/-- Monday is 0. -/
def weekday (date : Date) : Nat := (date.ordinal + 6) % 7

/-- `date + timedelta(days=days)`; `none` is `OverflowError`. -/
def addDays (date : Date) (days : Nat) : Option Date :=
  if date.ordinal + days ≤ maxOrdinal then some ⟨date.ordinal + days⟩ else none

/-- 2024-02-29, a Thursday. -/
example : (⟨738945⟩ : Date).monthDay = (2, 29) ∧ (⟨738945⟩ : Date).weekday = 3 := by decide

end Date

/-- A date and a wall-clock time without a time zone. -/
structure DateTime where
  date : Date
  hour : Nat
  minute : Nat
  second : Nat := 0
  microsecond : Nat := 0
  deriving DecidableEq

/-- `a <= b`. -/
def DateTime.le (a b : DateTime) : Bool :=
  let key (d : DateTime) := [d.date.ordinal, d.hour, d.minute, d.second, d.microsecond]
  decide (key a ≤ key b)

end Python
