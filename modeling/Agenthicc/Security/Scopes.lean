/-
Agenthicc.Security.Scopes — what an agent may call.

A scope is a whitelist of name patterns, or none, and a set of denied
patterns. `restrict` narrows one scope by another. `ScopeManager` keeps the
scope and the spawn depth of every agent it has been told of.
-/
import Agenthicc.Python.Fnmatch
import Agenthicc.Library.Delegation
import Mathlib.Data.Finset.Basic
import Mathlib.Data.Set.Basic
import Mathlib.Order.SetNotation

namespace Agenthicc.Security

open Python

/-! ## 1. Scopes -/

structure AgentCapabilityScope where
  allowedTools : Option (Finset String) := none
  deniedTools : Finset String := ∅
  allowedCommTools : Option (Finset String) := none
  maxToolCallBudget : Int := 100
  maxSpawnDepth : Int := 3
  deriving DecidableEq

namespace AgentCapabilityScope

/-- Some pattern of the set matches the name. -/
def matchesAny (toolName : String) (patterns : Finset String) : Bool :=
  decide (∃ p ∈ patterns, fnmatch toolName p = true)

def isToolAllowed (scope : AgentCapabilityScope) (toolName : String) : Bool :=
  if matchesAny toolName scope.deniedTools then false
  else match scope.allowedTools with
    | some allowed => matchesAny toolName allowed
    | none => true

/-- The intersection of two whitelists; no whitelist restricts nothing. -/
def restrictAllowed : Option (Finset String) → Option (Finset String) → Option (Finset String)
  | some a, some b => some (a ∩ b)
  | some a, none => some a
  | none, some b => some b
  | none, none => none

def restrict (self other : AgentCapabilityScope) : AgentCapabilityScope where
  allowedTools := restrictAllowed self.allowedTools other.allowedTools
  deniedTools := self.deniedTools ∪ other.deniedTools
  allowedCommTools := restrictAllowed self.allowedCommTools other.allowedCommTools
  maxToolCallBudget := min self.maxToolCallBudget other.maxToolCallBudget
  maxSpawnDepth := min self.maxSpawnDepth other.maxSpawnDepth

variable {a b : AgentCapabilityScope} {t : String}

/-! ## 2. The tools of a scope -/

/-- The tools a scope allows. -/
def tools (scope : AgentCapabilityScope) : Set String := {t | scope.isToolAllowed t = true}

theorem matchesAny_iff {patterns : Finset String} :
    matchesAny t patterns = true ↔ ∃ p ∈ patterns, fnmatch t p = true := decide_eq_true_iff

theorem matchesAny_union {s u : Finset String} :
    matchesAny t (s ∪ u) = true ↔ matchesAny t s = true ∨ matchesAny t u = true := by
  simp only [matchesAny_iff, Finset.mem_union, or_and_right, exists_or]

/-- What a whitelist says about a tool. -/
def Listed (t : String) : Option (Finset String) → Prop
  | some allowed => matchesAny t allowed = true
  | none => True

theorem mem_tools : t ∈ a.tools ↔ ¬ matchesAny t a.deniedTools = true ∧ Listed t a.allowedTools := by
  unfold tools isToolAllowed
  rw [Set.mem_setOf_eq]
  by_cases h : matchesAny t a.deniedTools = true
  · simp [h]
  · cases hw : a.allowedTools with
    | none => simp [h, Listed]
    | some allowed => simp [h, Listed]

/-- Where both scopes have a whitelist, one pattern that stands in both
matches the tool. -/
def Shared (t : String) (a b : AgentCapabilityScope) : Prop :=
  ∀ x y, a.allowedTools = some x → b.allowedTools = some y → matchesAny t (x ∩ y) = true

theorem listed_restrictAllowed {x y : Option (Finset String)} :
    Listed t (restrictAllowed x y)
      ↔ Listed t x ∧ Listed t y ∧ ∀ u v, x = some u → y = some v → matchesAny t (u ∩ v) = true := by
  cases x with
  | none => cases y <;> simp [restrictAllowed, Listed]
  | some u =>
      cases y with
      | none => simp [restrictAllowed, Listed]
      | some v =>
          simp only [restrictAllowed, Listed, Option.some.injEq]
          constructor
          · intro h
            obtain ⟨p, hp, hm⟩ := matchesAny_iff.mp h
            rw [Finset.mem_inter] at hp
            refine ⟨matchesAny_iff.mpr ⟨p, hp.1, hm⟩, matchesAny_iff.mpr ⟨p, hp.2, hm⟩, ?_⟩
            rintro _ _ rfl rfl
            exact h
          · exact fun h => h.2.2 u v rfl rfl

/-- What `restrict` allows: the tools both scopes allow, as far as one pattern
of both whitelists matches them. -/
theorem mem_tools_restrict : t ∈ (a.restrict b).tools ↔ t ∈ a.tools ∧ t ∈ b.tools ∧ Shared t a b := by
  have hdenied : matchesAny t (a.restrict b).deniedTools = true
      ↔ matchesAny t a.deniedTools = true ∨ matchesAny t b.deniedTools = true := matchesAny_union
  have hlisted : Listed t (a.restrict b).allowedTools
      ↔ Listed t a.allowedTools ∧ Listed t b.allowedTools ∧ Shared t a b := listed_restrictAllowed
  rw [mem_tools, mem_tools, mem_tools, hdenied, hlisted]
  tauto

theorem restrict_subset_left : (a.restrict b).tools ⊆ a.tools := fun _ h => (mem_tools_restrict.mp h).1

theorem restrict_subset_right : (a.restrict b).tools ⊆ b.tools := fun _ h => (mem_tools_restrict.mp h).2.1

theorem shared_of_none (h : b.allowedTools = none) : Shared t a b := by
  intro x y _ hy
  rw [h] at hy
  cases hy

/-- A whitelist of names only. -/
def NamesOnly (scope : AgentCapabilityScope) : Prop :=
  ∀ allowed, scope.allowedTools = some allowed → ∀ p ∈ allowed, Literal p.toList

/-- Between whitelists of names `restrict` is the intersection. -/
theorem tools_restrict_of_names (ha : a.NamesOnly) (hb : b.NamesOnly) :
    (a.restrict b).tools = a.tools ∩ b.tools := by
  ext t
  rw [mem_tools_restrict, Set.mem_inter_iff]
  refine ⟨fun h => ⟨h.1, h.2.1⟩, fun h => ⟨h.1, h.2, fun x y hx hy => ?_⟩⟩
  have hta := (mem_tools.mp h.1).2
  have htb := (mem_tools.mp h.2).2
  rw [hx] at hta
  rw [hy] at htb
  obtain ⟨p, hp, hmp⟩ := matchesAny_iff.mp hta
  obtain ⟨q, hq, hmq⟩ := matchesAny_iff.mp htb
  have htp := (fnmatch_literal (ha x hx p hp)).mp hmp
  have htq := (fnmatch_literal (hb y hy q hq)).mp hmq
  subst htp
  subst htq
  exact matchesAny_iff.mpr ⟨_, Finset.mem_inter.mpr ⟨hp, hq⟩, hmp⟩

end AgentCapabilityScope

/-! ## 3. The scopes of the agents -/

structure ScopeManager where
  scopes : String → Option AgentCapabilityScope
  depths : String → Option Int

namespace ScopeManager

def init : ScopeManager := ⟨fun _ => none, fun _ => none⟩

/-- An id that is not given, or empty, names no parent. -/
def named : Option String → Option String
  | some "" => none
  | parentId => parentId

/-- The scope of a parent that is named and registered. -/
def parentScope (m : ScopeManager) (parentId : Option String) : Option AgentCapabilityScope :=
  (named parentId).bind m.scopes

def registered (m : ScopeManager) (scope : Option AgentCapabilityScope) (parentId : Option String) :
    AgentCapabilityScope :=
  match scope, m.parentScope parentId with
  | none, some parent => parent
  | none, none => {}
  | some scope, some parent => parent.restrict scope
  | some scope, none => scope

def register (m : ScopeManager) (agentId : String) (scope : Option AgentCapabilityScope)
    (parentId : Option String) : ScopeManager :=
  let parentDepth := ((named parentId).bind m.depths).getD 0
  { scopes := Function.update m.scopes agentId (some (m.registered scope parentId))
    depths := Function.update m.depths agentId (some (parentDepth + 1)) }

def getScope (m : ScopeManager) (agentId : String) : Option AgentCapabilityScope := m.scopes agentId

def getDepth (m : ScopeManager) (agentId : String) : Int := (m.depths agentId).getD 0

def updated (m : ScopeManager) (agentId : String) (newScope : AgentCapabilityScope) :
    AgentCapabilityScope :=
  match m.scopes agentId with
  | some existing => existing.restrict newScope
  | none => newScope

def updateScope (m : ScopeManager) (agentId : String) (newScope : AgentCapabilityScope) : ScopeManager :=
  { m with scopes := Function.update m.scopes agentId (some (m.updated agentId newScope)) }

def canSpawn (m : ScopeManager) (parentId : String) : Bool :=
  let maxDepth := match m.scopes parentId with
    | some scope => scope.maxSpawnDepth
    | none => 3
  decide (m.getDepth parentId < maxDepth)

end ScopeManager

end Agenthicc.Security
