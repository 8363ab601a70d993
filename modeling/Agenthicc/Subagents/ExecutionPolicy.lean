/-
Agenthicc.Subagents.ExecutionPolicy — the policy a worker runs under.

`restrictBy` applies the policy a subagent type declares, and the permissions
of the type, to the policy the worker inherits. `digest` stands for the hash
of a JSON value that names policy revisions and permissions.
-/
import Agenthicc.Security.Scopes
import Agenthicc.Python.Json
import Mathlib.Data.Finset.Sort
import Mathlib.Data.String.Basic

namespace Agenthicc.Subagents

open Python Security

/-! ## 1. Policies -/

structure SubagentPermissionConstraints where
  denyTools : Finset String := ∅
  denyCapabilities : Finset String := ∅
  requireApproval : Finset String := ∅
  workspacePaths : Option (List String) := none
  deriving DecidableEq

structure SubagentExecutionPolicy where
  modeName : String
  badge : String
  color : String
  description : String
  systemPromptSuffix : String
  blockedCapabilities : Finset String
  approvalRequired : Finset String
  visibleToolNames : Finset String
  workspaceScopeIdentity : String := ""
  effectiveWorkflow : String := ""
  effectivePhase : String := ""
  policyRevision : String := ""
  capabilityScope : AgentCapabilityScope := {}
  typeName : String := ""
  typeDeniedCapabilities : Finset String := ∅
  typeRequiredApproval : Finset String := ∅
  typeWorkspacePaths : Option (List String) := none
  typePermissionsFingerprint : String := ""
  deriving DecidableEq

/-! ## 2. Narrowing a policy -/

def sortedStrings (s : Finset String) : Json := .arr ((s.sort (· ≤ ·)).map .str)

def stringTuple : Option (List String) → Json
  | some items => .arr (items.map .str)
  | none => .null

/-- The first occurrence of every item. -/
def fromKeys (items : List String) : List String :=
  items.foldl (fun seen item => if item ∈ seen then seen else seen ++ [item]) []

def nonEmpty (items : List String) : List String := items.filter (· ≠ "")

def permissionData (p : SubagentPermissionConstraints) : Json :=
  .obj [("deny_tools", sortedStrings p.denyTools),
    ("deny_capabilities", sortedStrings p.denyCapabilities),
    ("require_approval", sortedStrings p.requireApproval),
    ("workspace_paths", stringTuple (p.workspacePaths.map fun paths => paths.mergeSort (· ≤ ·)))]

/-- The scope that the denied tools of some permissions make. -/
def denyScope (p : SubagentPermissionConstraints) : AgentCapabilityScope := { deniedTools := p.denyTools }

namespace SubagentExecutionPolicy

section Parts

variable (self : SubagentExecutionPolicy) (declared : Option SubagentExecutionPolicy)
  (permissions : Option SubagentPermissionConstraints)

/-- A set of the declared policy; a policy that is not declared has none. -/
def declaredSet (f : SubagentExecutionPolicy → Finset String) : Finset String :=
  match declared with
  | some d => f d
  | none => ∅

def permissionSet (f : SubagentPermissionConstraints → Finset String) : Finset String :=
  match permissions with
  | some p => f p
  | none => ∅

def restrictedScope : AgentCapabilityScope :=
  let scope := match declared with
    | some d => self.capabilityScope.restrict d.capabilityScope
    | none => self.capabilityScope
  match permissions with
  | some p => scope.restrict (denyScope p)
  | none => scope

def restrictedBlocked : Finset String :=
  let blocked := self.blockedCapabilities ∪ declaredSet declared blockedCapabilities
  match permissions with
  | some p => blocked ∪ p.denyCapabilities
  | none => blocked

/-- What is blocked needs no approval. -/
def restrictedApproval : Finset String :=
  let blocked := self.blockedCapabilities ∪ declaredSet declared blockedCapabilities
  let approval := (self.approvalRequired ∪ declaredSet declared approvalRequired) \ blocked
  match permissions with
  | some p => (approval ∪ p.requireApproval) \ (blocked ∪ p.denyCapabilities)
  | none => approval

def restrictedSuffix : String :=
  let suffixes := match declared with
    | some d =>
        if d.systemPromptSuffix ∈ [self.systemPromptSuffix] then [self.systemPromptSuffix]
        else [self.systemPromptSuffix, d.systemPromptSuffix]
    | none => [self.systemPromptSuffix]
  "\n\n".intercalate (nonEmpty suffixes)

def restrictedVisible : Finset String :=
  let scope := self.restrictedScope declared permissions
  match scope.allowedTools, declared with
  | some allowed, _ => allowed
  | none, some d => if self.visibleToolNames = ∅ then d.visibleToolNames else self.visibleToolNames
  | none, none => self.visibleToolNames

def restrictedIdentity (workspaceScopeIdentity : Option String) : String :=
  match workspaceScopeIdentity, declared with
  | some identity, _ => identity
  | none, some d =>
      if d.workspaceScopeIdentity ≠ "" then d.workspaceScopeIdentity else self.workspaceScopeIdentity
  | none, none => self.workspaceScopeIdentity

def combinedTypeName (typeName : String) : String :=
  let declaredName := match declared with
    | some d => d.typeName
    | none => ""
  let permissionIsDeclared := permissions.isSome || (match declared with
    | some d => d.typePermissionsFingerprint != ""
    | none => false)
  " → ".intercalate (fromKeys (nonEmpty [self.typeName, if permissionIsDeclared then typeName else "",
    if permissionIsDeclared then declaredName else ""]))

def restrictedPaths : Option (List String) :=
  let paths := match declared.bind typeWorkspacePaths with
    | some paths => some paths
    | none => self.typeWorkspacePaths
  match permissions.bind SubagentPermissionConstraints.workspacePaths with
  | some paths => some paths
  | none => paths

def restrictedFingerprint (digest : Json → String) : String :=
  let declaredFingerprint := match declared with
    | some d => d.typePermissionsFingerprint
    | none => ""
  let fingerprint := "|".intercalate
    (fromKeys (nonEmpty [self.typePermissionsFingerprint, declaredFingerprint]))
  match permissions with
  | some p => fingerprint ++ digest (permissionData p)
  | none => fingerprint

end Parts

/-- The policy with every part narrowed, and the revision of the result. -/
def narrowed (digest : Json → String) (self : SubagentExecutionPolicy)
    (declared : Option SubagentExecutionPolicy) (permissions : Option SubagentPermissionConstraints)
    (typeName : String) (workspaceScopeIdentity : Option String) : SubagentExecutionPolicy :=
  let blocked := self.restrictedBlocked declared permissions
  let approval := self.restrictedApproval declared permissions
  let scope := self.restrictedScope declared permissions
  let visibleNames := self.restrictedVisible declared permissions
  let workspaceIdentity := self.restrictedIdentity declared workspaceScopeIdentity
  let workspacePaths := self.restrictedPaths declared permissions
  let fingerprint := self.restrictedFingerprint declared permissions digest
  let declaredRevision := match declared with
    | some d => d.policyRevision
    | none => ""
  let revision := digest (.obj [("inherited_revision", .str self.policyRevision),
    ("declared_revision", .str declaredRevision),
    ("blocked_capabilities", sortedStrings blocked),
    ("approval_required", sortedStrings approval),
    ("visible_tool_names", sortedStrings visibleNames),
    ("denied_tools", sortedStrings scope.deniedTools),
    ("workspace_scope_identity", .str workspaceIdentity),
    ("type_workspace_paths", stringTuple workspacePaths),
    ("type_permissions_fingerprint", .str fingerprint)])
  { self with
    systemPromptSuffix := self.restrictedSuffix declared
    blockedCapabilities := blocked
    approvalRequired := approval
    visibleToolNames := visibleNames
    workspaceScopeIdentity := workspaceIdentity
    policyRevision := revision
    capabilityScope := scope
    typeName := self.combinedTypeName declared permissions typeName
    typeDeniedCapabilities := self.typeDeniedCapabilities ∪ declaredSet declared typeDeniedCapabilities
      ∪ permissionSet permissions SubagentPermissionConstraints.denyCapabilities
    typeRequiredApproval := self.typeRequiredApproval ∪ declaredSet declared typeRequiredApproval
      ∪ permissionSet permissions SubagentPermissionConstraints.requireApproval
    typeWorkspacePaths := workspacePaths
    typePermissionsFingerprint := fingerprint }

/-- No part of the policy that is compared has changed; the visible names are
not compared. -/
def Unchanged (self new : SubagentExecutionPolicy) : Prop :=
  new.blockedCapabilities = self.blockedCapabilities
    ∧ new.approvalRequired = self.approvalRequired
    ∧ new.capabilityScope = self.capabilityScope
    ∧ new.systemPromptSuffix = self.systemPromptSuffix
    ∧ new.workspaceScopeIdentity = self.workspaceScopeIdentity
    ∧ new.typeName = self.typeName
    ∧ new.typeDeniedCapabilities = self.typeDeniedCapabilities
    ∧ new.typeRequiredApproval = self.typeRequiredApproval
    ∧ new.typeWorkspacePaths = self.typeWorkspacePaths
    ∧ new.typePermissionsFingerprint = self.typePermissionsFingerprint

instance (self new : SubagentExecutionPolicy) : Decidable (Unchanged self new) :=
  inferInstanceAs (Decidable (_ ∧ _))

/-- Apply a definition policy and optional permissions as a narrowing delta. -/
def restrictBy (digest : Json → String) (self : SubagentExecutionPolicy)
    (declared : Option SubagentExecutionPolicy) (permissions : Option SubagentPermissionConstraints)
    (typeName : String) (workspaceScopeIdentity : Option String) : SubagentExecutionPolicy :=
  let new := narrowed digest self declared permissions typeName workspaceScopeIdentity
  if Unchanged self new then self else new

variable {digest : Json → String} {self : SubagentExecutionPolicy}
  {declared : Option SubagentExecutionPolicy} {permissions : Option SubagentPermissionConstraints}
  {typeName : String} {identity : Option String}

/-! ## 3. What a step does to the parts of a policy

A policy that comes back as it was has the narrowed parts too, as far as they
are compared. -/

/-- A part of the policy that an unchanged policy shares with the narrowed one
is the narrowed one. -/
theorem restrictBy_part {α : Type} (f : SubagentExecutionPolicy → α)
    (h : ∀ new, Unchanged self new → f new = f self) :
    f (self.restrictBy digest declared permissions typeName identity)
      = f (self.narrowed digest declared permissions typeName identity) := by
  unfold restrictBy
  simp only
  split
  · rename_i hsame
    exact (h _ hsame).symm
  · rfl

theorem restrictBy_blocked :
    (self.restrictBy digest declared permissions typeName identity).blockedCapabilities
      = self.restrictedBlocked declared permissions :=
  restrictBy_part blockedCapabilities fun _ h => h.1

theorem restrictBy_approval :
    (self.restrictBy digest declared permissions typeName identity).approvalRequired
      = self.restrictedApproval declared permissions :=
  restrictBy_part approvalRequired fun _ h => h.2.1

theorem restrictBy_scope :
    (self.restrictBy digest declared permissions typeName identity).capabilityScope
      = self.restrictedScope declared permissions :=
  restrictBy_part capabilityScope fun _ h => h.2.2.1

/-- The mode of a policy. -/
def mode (p : SubagentExecutionPolicy) : String × String × String × String :=
  (p.modeName, p.badge, p.color, p.description)

theorem restrictBy_mode :
    (self.restrictBy digest declared permissions typeName identity).mode = self.mode := by
  unfold restrictBy
  simp only
  split <;> rfl

end SubagentExecutionPolicy

/-! ## 4. The scope of a worker -/

/-- What a worker is built with: the policy it inherits, the names of its
tools, the tools its type and its depth tier declare, the tools its
permissions deny, and its depth. -/
structure WorkerInputs where
  policy : Option SubagentExecutionPolicy
  toolNames : Finset String
  declaredAllowed : Finset String
  tierAllowed : Option (Finset String)
  denyTools : Finset String
  depth : Int
  maxDepth : Int

namespace WorkerInputs

def inheritedScope (w : WorkerInputs) : AgentCapabilityScope :=
  match w.policy with
  | some policy => policy.capabilityScope
  | none =>
      { allowedTools := some (if w.depth < w.maxDepth ∧ "spawn_subagents" ∈ w.declaredAllowed then
          w.toolNames ∪ {"spawn_subagents"} else w.toolNames) }

def nestedSpawnAllowed (w : WorkerInputs) : Bool :=
  decide (w.depth < w.maxDepth) && decide ("spawn_subagents" ∈ w.declaredAllowed)
    && w.inheritedScope.isToolAllowed "spawn_subagents"

def visibleNames (w : WorkerInputs) : Finset String :=
  w.toolNames ∪ (if w.nestedSpawnAllowed then {"spawn_subagents"} else ∅)

def declaredScope (w : WorkerInputs) : AgentCapabilityScope where
  allowedTools := some (match w.tierAllowed with
    | some tier => w.declaredAllowed ∩ tier
    | none => w.declaredAllowed)
  deniedTools := w.denyTools

def capabilityScope (w : WorkerInputs) : AgentCapabilityScope :=
  let visible := w.inheritedScope.restrict { allowedTools := some w.visibleNames }
  let inherited := match w.policy with
    | some policy =>
        if policy.visibleToolNames = ∅ then visible
        else visible.restrict { allowedTools := some policy.visibleToolNames }
    | none => visible
  inherited.restrict w.declaredScope

/-- A worker has no tool that its inherited scope or its declared one denies. -/
theorem capabilityScope_subset (w : WorkerInputs) :
    w.capabilityScope.tools ⊆ w.inheritedScope.tools ∩ w.declaredScope.tools := by
  refine Set.subset_inter ?_ AgentCapabilityScope.restrict_subset_right
  refine AgentCapabilityScope.restrict_subset_left.trans ?_
  cases w.policy with
  | none => exact AgentCapabilityScope.restrict_subset_left
  | some policy =>
      simp only
      split
      · exact AgentCapabilityScope.restrict_subset_left
      · exact AgentCapabilityScope.restrict_subset_left.trans AgentCapabilityScope.restrict_subset_left

end WorkerInputs

end Agenthicc.Subagents
