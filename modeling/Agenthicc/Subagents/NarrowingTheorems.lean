/-
Agenthicc.Subagents.NarrowingTheorems — a delegated policy only narrows.

Two runs are followed. In a chain of `restrictBy` steps the policy at the end
is compared with the one at the start and with every scope declared on the
way. In a run of the scope manager every child is compared with its parent.
Both comparisons are of sets of tools, `AgentCapabilityScope.tools`; a step
that keeps them is one that loses no tool to two whitelists with different
patterns for it, and one that takes no tool from an agent whose children have
it.
-/
import Agenthicc.Subagents.ExecutionPolicy
import Agenthicc.Library.Runs
import Mathlib.Order.CompletePartialOrder

namespace Agenthicc.Subagents

open Python Security AgentCapabilityScope Runs Delegation

/-! ## 1. Chains of policies -/

/-- One delegation: what the type of the child declares. -/
structure DelegationStep where
  declared : Option SubagentExecutionPolicy := none
  permissions : Option SubagentPermissionConstraints := none
  typeName : String := ""
  workspaceScopeIdentity : Option String := none

/-- The scopes a step declares. -/
def DelegationStep.scopes (step : DelegationStep) : List AgentCapabilityScope :=
  step.declared.toList.map SubagentExecutionPolicy.capabilityScope
    ++ step.permissions.toList.map denyScope

/-- A policy, the one the chain began with and the scopes declared since. -/
structure PolicyChain where
  root : SubagentExecutionPolicy
  policy : SubagentExecutionPolicy
  declaredScopes : List AgentCapabilityScope

namespace PolicyChain

def start (root : SubagentExecutionPolicy) : PolicyChain := ⟨root, root, []⟩

def delegate (digest : Json → String) (chain : PolicyChain) (step : DelegationStep) : PolicyChain where
  root := chain.root
  policy := chain.policy.restrictBy digest step.declared step.permissions step.typeName
    step.workspaceScopeIdentity
  declaredScopes := chain.declaredScopes ++ step.scopes

/-- The tools that the root and every declared scope allow. -/
def commonTools (chain : PolicyChain) : Set String :=
  {t | t ∈ chain.root.capabilityScope.tools ∧ ∀ scope ∈ chain.declaredScopes, t ∈ scope.tools}

structure Narrowed (chain : PolicyChain) : Prop where
  blocked : chain.root.blockedCapabilities ⊆ chain.policy.blockedCapabilities
  approval : chain.root.approvalRequired
    ⊆ chain.policy.blockedCapabilities ∪ chain.policy.approvalRequired
  mode : chain.policy.mode = chain.root.mode
  scope : chain.policy.capabilityScope.tools = chain.commonTools

/-- A tool that the inherited scope, the declared scope and the permissions
all allow is matched by a pattern of both whitelists, where there are two. -/
def LosesNoTool (chain : PolicyChain) (step : DelegationStep) : Prop :=
  ∀ d, step.declared = some d → ∀ t ∈ chain.policy.capabilityScope.tools,
    (∀ scope ∈ step.scopes, t ∈ scope.tools) → Shared t chain.policy.capabilityScope d.capabilityScope

variable {digest : Json → String} {chain : PolicyChain} {step : DelegationStep}

theorem blocked_subset {self : SubagentExecutionPolicy} {declared : Option SubagentExecutionPolicy}
    {permissions : Option SubagentPermissionConstraints} :
    self.blockedCapabilities ⊆ self.restrictedBlocked declared permissions := by
  intro c hc
  unfold SubagentExecutionPolicy.restrictedBlocked
  cases permissions with
  | none => exact Finset.mem_union_left _ hc
  | some p => exact Finset.mem_union_left _ (Finset.mem_union_left _ hc)

theorem approval_subset {self : SubagentExecutionPolicy} {declared : Option SubagentExecutionPolicy}
    {permissions : Option SubagentPermissionConstraints} :
    self.approvalRequired
      ⊆ self.restrictedBlocked declared permissions ∪ self.restrictedApproval declared permissions := by
  intro c hc
  unfold SubagentExecutionPolicy.restrictedBlocked SubagentExecutionPolicy.restrictedApproval
  cases permissions with
  | none =>
      simp only [Finset.mem_union, Finset.mem_sdiff]
      tauto
  | some p =>
      simp only [Finset.mem_union, Finset.mem_sdiff]
      tauto

theorem mem_restrictedScope {self : SubagentExecutionPolicy} {t : String} :
    t ∈ (self.restrictedScope step.declared step.permissions).tools
      ↔ t ∈ self.capabilityScope.tools ∧ (∀ scope ∈ step.scopes, t ∈ scope.tools)
        ∧ ∀ d, step.declared = some d → Shared t self.capabilityScope d.capabilityScope := by
  have hdeny : ∀ (scope : AgentCapabilityScope) (p : SubagentPermissionConstraints),
      t ∈ (scope.restrict (denyScope p)).tools ↔ t ∈ scope.tools ∧ t ∈ (denyScope p).tools := by
    intro scope p
    rw [mem_tools_restrict]
    exact ⟨fun h => ⟨h.1, h.2.1⟩, fun h => ⟨h.1, h.2, shared_of_none rfl⟩⟩
  unfold SubagentExecutionPolicy.restrictedScope DelegationStep.scopes
  cases hd : step.declared with
  | none => cases step.permissions <;> simp [hdeny]
  | some d =>
      cases step.permissions with
      | none => simp [mem_tools_restrict]
      | some p =>
          simp only [hdeny, mem_tools_restrict, Option.toList_some, List.map_cons, List.map_nil,
            List.cons_append, List.nil_append, List.forall_mem_cons, List.not_mem_nil, false_imp_iff,
            implies_true, and_true, Option.some.injEq, forall_eq']
          tauto

/-- A step keeps the chain narrowed exactly when it loses no tool. -/
theorem narrowed_delegate (h : chain.Narrowed) :
    (chain.delegate digest step).Narrowed ↔ chain.LosesNoTool step := by
  have hscope : (chain.delegate digest step).policy.capabilityScope
      = chain.policy.restrictedScope step.declared step.permissions :=
    SubagentExecutionPolicy.restrictBy_scope
  have hcommon : ∀ t, t ∈ (chain.delegate digest step).commonTools
      ↔ t ∈ chain.policy.capabilityScope.tools ∧ ∀ scope ∈ step.scopes, t ∈ scope.tools := by
    intro t
    rw [h.scope]
    simp only [commonTools, delegate, List.mem_append, or_imp, forall_and, Set.mem_setOf_eq, and_assoc]
  constructor
  · intro hnew d hd t ht hall
    have hmem : t ∈ (chain.delegate digest step).policy.capabilityScope.tools := by
      rw [hnew.scope, hcommon]
      exact ⟨ht, hall⟩
    rw [hscope, mem_restrictedScope] at hmem
    exact hmem.2.2 d hd
  · intro hok
    refine ⟨?_, ?_, ?_, ?_⟩
    · exact h.blocked.trans (by
        simp only [delegate, SubagentExecutionPolicy.restrictBy_blocked]
        exact blocked_subset)
    · intro c hc
      simp only [delegate, SubagentExecutionPolicy.restrictBy_blocked,
        SubagentExecutionPolicy.restrictBy_approval]
      rcases Finset.mem_union.mp (h.approval hc) with hb | ha
      · exact Finset.mem_union_left _ (blocked_subset hb)
      · exact approval_subset ha
    · exact SubagentExecutionPolicy.restrictBy_mode.trans h.mode
    · ext t
      rw [hscope, mem_restrictedScope, hcommon]
      exact ⟨fun hm => ⟨hm.1, hm.2.1⟩, fun hm => ⟨hm.1, hm.2, fun d hd => hok d hd t hm.1 hm.2⟩⟩

theorem narrowed_start (root : SubagentExecutionPolicy) : (start root).Narrowed where
  blocked := subset_rfl
  approval := Finset.subset_union_right
  mode := rfl
  scope := by
    ext t
    simp [start, commonTools]

end PolicyChain

/-! ## 2. Runs of the scope manager -/

inductive ScopeCall where
  | register (agentId : String) (scope : Option AgentCapabilityScope) (parentId : Option String)
  | updateScope (agentId : String) (newScope : AgentCapabilityScope)

/-- The manager, and the parent each agent was last registered with. -/
structure ManagedScopes where
  manager : ScopeManager
  parents : String → Option String

namespace ScopeCall

def agent : ScopeCall → String
  | register agentId _ _ => agentId
  | updateScope agentId _ => agentId

/-- The call leaves its agent the tool. -/
def Leaves (m : ScopeManager) (t : String) : ScopeCall → Prop
  | register _ scope parentId =>
      (∀ p, m.parentScope parentId = some p → t ∈ p.tools) ∧ (∀ s, scope = some s → t ∈ s.tools)
        ∧ ∀ p s, m.parentScope parentId = some p → scope = some s → Shared t p s
  | updateScope agentId newScope =>
      t ∈ newScope.tools ∧ ∀ e, m.scopes agentId = some e → t ∈ e.tools ∧ Shared t e newScope

end ScopeCall

namespace ManagedScopes

def init : ManagedScopes := ⟨.init, fun _ => none⟩

def call (r : ManagedScopes) : ScopeCall → ManagedScopes
  | .register agentId scope parentId =>
      { manager := r.manager.register agentId scope parentId
        parents := Function.update r.parents agentId (ScopeManager.named parentId) }
  | .updateScope agentId newScope => { r with manager := r.manager.updateScope agentId newScope }

/-- A child never allows a tool that its parent's current scope denies. -/
def NeverExceeds (r : ManagedScopes) : Prop :=
  ∀ child parent cs ps, r.parents child = some parent → r.manager.getScope child = some cs →
    r.manager.getScope parent = some ps → ∀ t, ps.isToolAllowed t = false → cs.isToolAllowed t = false

/-- No other agent that was registered under the agent of the call has a tool
that the call does not leave it. -/
def TakesNothing (r : ManagedScopes) (c : ScopeCall) : Prop :=
  ∀ child s, child ≠ c.agent → r.parents child = some c.agent → r.manager.getScope child = some s →
    ∀ t ∈ s.tools, c.Leaves r.manager t

/-- The tools of every registered agent. -/
def toolsOf (m : ScopeManager) (agentId : String) : Option (Set String) := (m.scopes agentId).map tools

variable {r : ManagedScopes} {c : ScopeCall} {m : ScopeManager} {t : String}

theorem neverExceeds_iff : r.NeverExceeds ↔ Ordered (toolsOf r.manager) r.parents := by
  have hset : ∀ a b : AgentCapabilityScope, (∀ t, b.isToolAllowed t = false → a.isToolAllowed t = false)
      ↔ a.tools ≤ b.tools := by
    intro a b
    refine ⟨fun h t ht => ?_, fun h t hb => ?_⟩
    · by_contra hb
      have ha := h t (Bool.eq_false_of_not_eq_true hb)
      exact Bool.false_ne_true (ha.symm.trans ht)
    · by_contra ha
      have hin := h (show t ∈ a.tools from Bool.eq_true_of_not_eq_false ha)
      exact Bool.false_ne_true (hb.symm.trans hin)
  constructor
  · intro h child node x y hparent hx hy
    obtain ⟨cs, hcs, rfl⟩ := Option.map_eq_some_iff.mp hx
    obtain ⟨ps, hps, rfl⟩ := Option.map_eq_some_iff.mp hy
    exact (hset cs ps).mp (h child node cs ps hparent hcs hps)
  · intro h child parent cs ps hparent hcs hps
    refine (hset cs ps).mpr (h child parent _ _ hparent ?_ ?_)
    · exact congrArg (Option.map tools) hcs
    · exact congrArg (Option.map tools) hps

theorem mem_tools_default : t ∈ ({} : AgentCapabilityScope).tools := by
  rw [mem_tools]
  exact ⟨by simp [matchesAny], trivial⟩

theorem mem_registered {scope : Option AgentCapabilityScope} {parentId : Option String} (agentId : String) :
    t ∈ (m.registered scope parentId).tools ↔ (ScopeCall.register agentId scope parentId).Leaves m t := by
  unfold ScopeManager.registered ScopeCall.Leaves
  cases scope with
  | none => cases hp : m.parentScope parentId <;> simp [hp, mem_tools_default]
  | some s => cases hp : m.parentScope parentId <;> simp [hp, mem_tools_restrict]

theorem mem_updated {agentId : String} {newScope : AgentCapabilityScope} :
    t ∈ (m.updated agentId newScope).tools ↔ (ScopeCall.updateScope agentId newScope).Leaves m t := by
  unfold ScopeManager.updated ScopeCall.Leaves
  cases he : m.scopes agentId with
  | none => simp [he]
  | some e =>
      simp only [he, mem_tools_restrict, Option.some.injEq, forall_eq']
      tauto

theorem call_tools (r : ManagedScopes) (c : ScopeCall) :
    toolsOf (r.call c).manager
      = Function.update (toolsOf r.manager) c.agent (some {t | c.Leaves r.manager t}) := by
  funext a
  cases c with
  | register agentId scope parentId =>
      have hset : (r.manager.registered scope parentId).tools
          = {t | (ScopeCall.register agentId scope parentId).Leaves r.manager t} := by
        ext t
        exact mem_registered agentId
      by_cases ha : a = agentId
      · subst ha
        simp [toolsOf, call, ScopeManager.register, ScopeCall.agent, ← hset]
      · simp [toolsOf, call, ScopeManager.register, ScopeCall.agent, Function.update_of_ne ha]
  | updateScope agentId newScope =>
      have hset : (r.manager.updated agentId newScope).tools
          = {t | (ScopeCall.updateScope agentId newScope).Leaves r.manager t} := by
        ext t
        exact mem_updated
      by_cases ha : a = agentId
      · subst ha
        simp [toolsOf, call, ScopeManager.updateScope, ScopeCall.agent, ← hset]
      · simp [toolsOf, call, ScopeManager.updateScope, ScopeCall.agent, Function.update_of_ne ha]

/-- The parent of the agent after the call. -/
def parentAfter (r : ManagedScopes) : ScopeCall → Option String
  | .register _ _ parentId => ScopeManager.named parentId
  | .updateScope agentId _ => r.parents agentId

theorem call_parents (r : ManagedScopes) (c : ScopeCall) :
    (r.call c).parents = Function.update r.parents c.agent (r.parentAfter c) := by
  cases c with
  | register agentId scope parentId => rfl
  | updateScope agentId newScope => exact (Function.update_eq_self agentId r.parents).symm

/-- An agent with a parent has a scope. -/
def ChildrenRegistered (r : ManagedScopes) : Prop := ∀ a, r.parents a ≠ none → r.manager.scopes a ≠ none

theorem childrenRegistered_call (h : r.ChildrenRegistered) : (r.call c).ChildrenRegistered := by
  intro a
  cases c with
  | register agentId scope parentId =>
      by_cases ha : a = agentId
      · subst ha
        simp [call, ScopeManager.register]
      · simpa [call, ScopeManager.register, Function.update_of_ne ha] using h a
  | updateScope agentId newScope =>
      by_cases ha : a = agentId
      · subst ha
        simp [call, ScopeManager.updateScope]
      · simpa [call, ScopeManager.updateScope, Function.update_of_ne ha] using h a

/-- The agent of a call gets nothing that its parent has not. -/
theorem leaves_below (hreg : r.ChildrenRegistered) (h : Ordered (toolsOf r.manager) r.parents)
    {p : String} {y : Set String} (hparent : r.parentAfter c = some p) (hp : toolsOf r.manager p = some y) :
    {t | c.Leaves r.manager t} ≤ y := by
  intro t ht
  obtain ⟨ps, hps, rfl⟩ := Option.map_eq_some_iff.mp hp
  cases c with
  | register agentId scope parentId =>
      have hnamed : ScopeManager.named parentId = some p := hparent
      refine ht.1 ps ?_
      rw [ScopeManager.parentScope, hnamed, Option.bind_some, hps]
  | updateScope agentId newScope =>
      have hpar : r.parents agentId = some p := hparent
      obtain ⟨e, he⟩ := Option.ne_none_iff_exists'.mp (hreg agentId (by rw [hpar]; simp))
      have hle := h agentId p e.tools ps.tools hpar (congrArg (Option.map tools) he) hp
      exact hle (ht.2 e he).1

/-- A call keeps every child below its parent exactly when it takes nothing
that a child has. -/
theorem neverExceeds_call (hreg : r.ChildrenRegistered) (h : r.NeverExceeds) :
    (r.call c).NeverExceeds ↔ r.TakesNothing c := by
  have hord := neverExceeds_iff.mp h
  rw [neverExceeds_iff, call_tools, call_parents, ordered_set_iff hord]
  constructor
  · intro hfits child s hne hparent hs t ht
    exact hfits.children child s.tools hne hparent (congrArg (Option.map tools) hs) ht
  · intro htakes
    refine ⟨fun p y habove _ hp => leaves_below hreg hord habove hp, fun child z hne hparent hz => ?_⟩
    obtain ⟨s, hs, rfl⟩ := Option.map_eq_some_iff.mp hz
    exact fun t ht => htakes child s hne hparent hs t ht

end ManagedScopes

/-! ## 3. Delegation -/

/-- **Delegation narrows exactly as far as patterns are shared and parents are
not narrowed under their children.** -/
theorem delegation_narrows (digest : Json → String) :
    (∀ (root : SubagentExecutionPolicy) (steps : List DelegationStep),
      (∀ k, ((steps.take k).foldl (PolicyChain.delegate digest) (.start root)).Narrowed)
        ↔ RunOk (PolicyChain.delegate digest) PolicyChain.LosesNoTool (.start root) steps)
    ∧ ∀ calls : List ScopeCall,
      (∀ k, ((calls.take k).foldl ManagedScopes.call .init).NeverExceeds)
        ↔ RunOk ManagedScopes.call ManagedScopes.TakesNothing .init calls := by
  refine ⟨fun root steps => ?_, fun calls => ?_⟩
  · have htrue : ∀ (c : PolicyChain) (step : DelegationStep), True → True := fun _ _ h => h
    exact forall_states_iff htrue (fun _ _ _ h => PolicyChain.narrowed_delegate h) trivial
      (PolicyChain.narrowed_start root)
  · have hreg : ∀ (m : ManagedScopes) (call : ScopeCall), m.ChildrenRegistered → (m.call call).ChildrenRegistered :=
      fun _ _ h => ManagedScopes.childrenRegistered_call h
    refine forall_states_iff hreg (fun _ _ hreg h => ManagedScopes.neverExceeds_call hreg h) ?_ ?_
    · exact fun _ h => absurd rfl h
    · intro child parent cs ps hparent
      cases hparent

/-- A parent that may call `read_*`. -/
def readingParent : SubagentExecutionPolicy where
  modeName := "auto"
  badge := ""
  color := ""
  description := ""
  systemPromptSuffix := ""
  blockedCapabilities := ∅
  approvalRequired := ∅
  visibleToolNames := ∅
  capabilityScope := { allowedTools := some {"read_*"} }

/-- A type that may call `read_file`. -/
def readFileType : SubagentExecutionPolicy :=
  { readingParent with capabilityScope := { allowedTools := some {"read_file"} } }

/-- `read_*` and `read_file` have no pattern in common; and a parent that loses
`bash` after its child was registered leaves it to the child. -/
theorem not_narrowed_patterns_and_late :
    ¬ (PolicyChain.delegate (fun _ => "") (.start readingParent) { declared := some readFileType }).Narrowed
    ∧ ¬ ([ScopeCall.register "parent" none none, .register "child" none (some "parent"),
        .updateScope "parent" { deniedTools := {"bash"} }].foldl ManagedScopes.call .init).NeverExceeds := by
  refine ⟨fun h => ?_, fun h => ?_⟩
  · have hok := (PolicyChain.narrowed_delegate (PolicyChain.narrowed_start readingParent)).mp h
    have hparent : readingParent.capabilityScope.isToolAllowed "read_file" = true := by decide
    have hdeclared : readFileType.capabilityScope.isToolAllowed "read_file" = true := by decide
    have hshared := hok readFileType rfl "read_file" hparent (by
      intro scope hscope
      rw [List.mem_singleton.mp hscope]
      exact hdeclared)
    exact absurd (hshared {"read_*"} {"read_file"} rfl rfl) (by decide)
  · have hchild := h "child" "parent" {} _ rfl rfl rfl "bash" (by decide)
    exact absurd hchild (by decide)

end Agenthicc.Subagents
