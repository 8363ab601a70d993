/-
Agenthicc.Library.Delegation — values that may only shrink from parent to
child.

Every node has a value, or none yet, and at most one parent. `Ordered` says
that no child's value is above its parent's. `ordered_set_iff` says when that
survives giving one node a value and a parent.
-/
import Mathlib.Logic.Function.Basic
import Mathlib.Order.Basic

namespace Delegation

variable {α β : Type} [DecidableEq α] [Preorder β]

/-- No child is above its parent. -/
def Ordered (value : α → Option β) (parent : α → Option α) : Prop :=
  ∀ child node x y, parent child = some node → value child = some x → value node = some y → x ≤ y

/-- What a node and its new value need: nothing above the new parent, and no
child above the value. -/
structure Fits (value : α → Option β) (parent : α → Option α) (node : α) (above : Option α) (x : β) :
    Prop where
  below : ∀ p y, above = some p → p ≠ node → value p = some y → x ≤ y
  children : ∀ child z, child ≠ node → parent child = some node → value child = some z → z ≤ x

theorem ordered_set_iff {value : α → Option β} {parent : α → Option α} {node : α} {above : Option α}
    {x : β} (h : Ordered value parent) :
    Ordered (Function.update value node (some x)) (Function.update parent node above)
      ↔ Fits value parent node above x := by
  constructor
  · intro hset
    refine ⟨fun p y habove hne hp => ?_, fun child z hne hparent hchild => ?_⟩
    · refine hset node p x y ?_ ?_ ?_
      · rw [Function.update_self, habove]
      · rw [Function.update_self]
      · rw [Function.update_of_ne hne, hp]
    · refine hset child node z x ?_ ?_ ?_
      · rw [Function.update_of_ne hne, hparent]
      · rw [Function.update_of_ne hne, hchild]
      · rw [Function.update_self]
  · intro hfits child p a b hparent hchild hp
    by_cases hc : child = node
    · subst hc
      rw [Function.update_self] at hparent hchild
      cases hchild
      by_cases hself : p = child
      · subst hself
        rw [Function.update_self] at hp
        cases hp
        exact le_refl x
      · rw [Function.update_of_ne hself] at hp
        exact hfits.below p b hparent hself hp
    · rw [Function.update_of_ne hc] at hparent hchild
      by_cases hself : p = node
      · subst hself
        rw [Function.update_self] at hp
        cases hp
        exact hfits.children child a hc hparent hchild
      · rw [Function.update_of_ne hself] at hp
        exact h child p a b hparent hchild hp

end Delegation
