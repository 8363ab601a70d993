/-
Agenthicc.Python.Floats — sums and products of floats.

A float stands for a rational number. An operation computes the exact result
and rounds it; all that is used of rounding is that it keeps the order, leaves
floats alone and leaves zero alone.
-/
import Mathlib.Algebra.Order.Field.Rat
import Mathlib.Algebra.Order.Ring.Rat
import Mathlib.Order.Monotone.Defs

namespace Python

/-- Rounding to a float. -/
structure Rounding where
  fl : ℚ → ℚ
  mono : Monotone fl
  idem : ∀ q, fl (fl q) = fl q
  zero : fl 0 = 0

/-- Arithmetic without rounding. -/
def Rounding.exact : Rounding := ⟨id, monotone_id, fun _ => rfl, rfl⟩

/-- A number that is a float. -/
def Rounding.Double (r : Rounding) : Type := {q : ℚ // r.fl q = q}

variable {r : Rounding}

theorem Rounding.nonneg {q : ℚ} (h : 0 ≤ q) : 0 ≤ r.fl q := by
  rw [← r.zero]
  exact r.mono h

theorem Rounding.le_add (now : r.Double) {delay : ℚ} (h : 0 ≤ delay) : now.1 ≤ r.fl (now.1 + delay) := by
  calc now.1 = r.fl now.1 := now.2.symm
    _ ≤ r.fl (now.1 + delay) := r.mono (le_add_of_nonneg_right h)

theorem Rounding.add_le {now delay limit : ℚ} (h : delay ≤ limit) : r.fl (now + delay) ≤ r.fl (now + limit) :=
  r.mono (add_le_add_right h now)

end Python
