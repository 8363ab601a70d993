/-
Agenthicc.Worktrees.Manager — the operations of the worktree manager, as
programs of git commands.

An object id is the number of its commit.
-/
import Agenthicc.Python.Text
import Agenthicc.Worktrees.Model
import Agenthicc.Worktrees.Repository

namespace Agenthicc.Worktrees.Git

open Python Tasks

/-! ## 1. Names -/

/-- A character of `[A-Za-z0-9._-]`. -/
def isSafe (c : Char) : Bool := (c.isAlphanum && c.toNat < 128) || c == '.' || c == '_' || c == '-'

/-- `_SAFE_PART.sub("-", value)`; `inside` says that a run of other characters
has begun. -/
def safePart (inside : Bool) : List Char → List Char
  | [] => []
  | c :: rest =>
      if isSafe c then c :: safePart false rest
      else if inside then safePart true rest
      else '-' :: safePart true rest

/-- `text.strip("-.")`. -/
def stripDashes (text : List Char) : List Char :=
  let drop := List.dropWhile fun c => c == '-' || c == '.'
  (drop (drop text).reverse).reverse

def slug (value fallback : String) : String :=
  let cleaned := stripDashes (safePart false (strip value.toList))
  String.ofList ((if cleaned ≠ [] then cleaned else fallback.toList).take 48)

/-- `[A-Za-z0-9._-]{1,64}`. -/
def isWorktreeId (s : String) : Bool := s.toList.all isSafe && 1 ≤ s.length && s.length ≤ 64

def defaultBranch (parent_session_id task_id stable_id : String) : String :=
  "agenthicc/" ++ slug parent_session_id "session" ++ "/" ++ slug task_id "task" ++ "-" ++ strTake 8 stable_id

/-! ## 2. Create -/

structure Record where
  worktree_id : String
  path : String
  branch : String
  base_commit : Option Nat
  owner_session_id : String
  task_id : String
  status : WorktreeStatus := .creating
  head_commit : Option Nat := none
  dirty : Bool := false

structure CreateArgs where
  parent_session_id : String
  task_id : String
  base_commit : Option Nat := none
  worktree_id : String := ""
  branch_name : String := ""

/-- Going on where no exception was raised. -/
def andThen {α β : Type} (t : Prog (Except PyError α)) (f : α → Prog (Except PyError β)) :
    Prog (Except PyError β) :=
  t >>= fun
    | .ok a => f a
    | .error exc => pure (.error exc)

def raise {α : Type} (message : String) : Prog (Except PyError α) := pure (.error (worktreeError message))

/-- The exceptions of a command under another message. -/
def rename {α : Type} (message : String) (t : Prog (Except PyError α)) : Prog (Except PyError α) :=
  t >>= fun
    | .ok a => pure (.ok a)
    | .error _ => raise message

def ensureClean (cwd : Option String) : Prog (Except PyError Unit) :=
  andThen (Task.ask (Op.isClean cwd)) fun clean =>
    if clean = false then pure (.error (.raised "WorktreeDirtyError" "Git worktree is dirty")) else pure (.ok ())

/-- `validate_base(base_commit or self.head())`. -/
def baseOf (base_commit : Option Nat) : Prog (Except PyError Nat) :=
  match base_commit with
  | some commit => Task.ask (Op.resolve commit)
  | none => andThen (Task.ask (Op.headOf none)) fun head => Task.ask (Op.resolve head)

def stableId (worktree_id : String) : Prog String :=
  if worktree_id ≠ "" then pure worktree_id else Task.ask Op.newId

/-- What a `create` has settled before it looks at the path. -/
structure Planned where
  record : Record
  base : Nat

def plannedRecord (root : String) (args : CreateArgs) (base : Nat) (stable_id : String) : Record where
  worktree_id := stable_id
  path := root ++ "/" ++ stable_id
  branch := if args.branch_name ≠ "" then args.branch_name
    else defaultBranch args.parent_session_id args.task_id stable_id
  base_commit := some base
  owner_session_id := args.parent_session_id
  task_id := args.task_id

def plan (root : String) (args : CreateArgs) : Prog (Except PyError Planned) :=
  andThen (baseOf args.base_commit) fun base => do
    let stable_id ← stableId args.worktree_id
    let record := plannedRecord root args base stable_id
    if isWorktreeId stable_id = false then raise "worktree_id contains unsupported characters"
    else
      andThen (rename "unable to validate Git branch name" (Task.ask (Op.checkRefFormat record.branch))) fun valid =>
        if valid = false then raise "branch_name is not a valid Git branch"
        else pure (.ok ⟨record, base⟩)

/-- The branch of an existing worktree, at exactly the path. -/
def identity (path : String) : Prog (Except PyError (String × String)) :=
  andThen (Task.ask (Op.topLevel path)) fun root =>
    andThen (Task.ask (Op.branchOf (some path))) fun branch => pure (.ok (root, branch))

def handOut (record : Record) : Prog (Except PyError Record) := do
  Task.ask (Op.hand record.branch)
  pure (.ok record)

/-- A worktree that is there already is adopted when path and branch match. -/
def readopt (p : Planned) : Prog (Except PyError Record) :=
  andThen (rename ("existing worktree path is not recoverable: " ++ p.record.path) (identity p.record.path))
    fun actual =>
      if actual.1 ≠ p.record.path ∨ actual.2 ≠ p.record.branch then
        raise ("existing worktree does not match its recovery identity: " ++ p.record.path)
      else
        andThen (Task.ask (Op.headOf (some p.record.path))) fun head =>
          andThen (Task.ask (Op.isClean (some p.record.path))) fun clean =>
            handOut { p.record with status := .active, head_commit := some head, dirty := !clean }

/-- The body of the `try`. -/
def addWorktree (p : Planned) : Prog (Except PyError Nat) :=
  andThen (ensureClean none) fun _ =>
    andThen (rename "unable to inspect worker branch" (Task.ask (Op.showRef p.record.branch))) fun branch_exists =>
      andThen
        (if branch_exists then
          andThen (Task.ask (Op.branchHead p.record.branch)) fun branch_head =>
            if branch_head ≠ p.base then raise "recovery branch exists at a different commit"
            else Task.ask (Op.add p.record.path p.record.branch)
        else Task.ask (Op.addBranch p.record.path p.record.branch p.base))
        fun _ => Task.ask (Op.headOf (some p.record.path))

/-- A return code that is not looked at. -/
def ignoring (t : Prog (Except PyError Bool)) : Prog (Except PyError Unit) :=
  andThen t fun _ => pure (.ok ())

/-- "Only remove the exact path and branch allocated by this call." -/
def removeAllocated (p : Planned) : Prog (Except PyError Unit) := do
  let there ← Task.ask (Op.pathExists p.record.path)
  andThen (if there then ignoring (Task.ask (Op.removeWorktree p.record.path true)) else pure (.ok ())) fun _ =>
    ignoring (Task.ask (Op.deleteBranch p.record.branch))

def createNew (p : Planned) : Prog (Except PyError Record) := do
  match ← addWorktree p with
  | .ok head => handOut { p.record with status := .active, head_commit := some head, dirty := false }
  | .error exc => andThen (removeAllocated p) fun _ => pure (.error exc)

def create (root : String) (args : CreateArgs) : Prog (Except PyError Record) :=
  andThen (plan root args) fun p => do
    let there ← Task.ask (Op.pathExists p.record.path)
    if there then readopt p else createNew p

/-! ## 3. Integrate, rebase, remove and recover -/

structure IntegrationResult where
  ok : Bool
  branch : String
  head_commit : Option Nat := none
  conflict_paths : List String := []
  message : String := ""

def lines (text : String) : List String :=
  ((splitOn '\n' text.toList).map String.ofList).filter (· ≠ "")

/-- The conflicts are read and what was begun is given up. -/
def abandon (branch : String) (cwd : Option String) (abort : Prog (Except PyError Bool)) :
    Prog (Except PyError IntegrationResult) :=
  andThen (Task.ask (Op.output cwd ["diff", "--name-only", "--diff-filter=U"] false)) fun conflicts =>
    andThen abort fun _ => pure (.ok { ok := false, branch := branch, conflict_paths := lines conflicts })

def integrate (record : Record) (expected_branch : Option String) : Prog (Except PyError IntegrationResult) :=
  andThen (ensureClean none) fun _ => do
    let isDir ← Task.ask (Op.isDir record.path)
    if isDir = false then pure (.error (.raised "WorktreeNotFound" record.worktree_id))
    else
      andThen (Task.ask (Op.branchOf none)) fun current_branch =>
        if expected_branch ≠ none ∧ some current_branch ≠ expected_branch then
          raise ("coordinator branch changed: expected " ++ expected_branch.getD "" ++ ", found " ++ current_branch)
        else
          andThen (Task.ask (Op.merge record.branch)) fun ok =>
            if ok then
              andThen (Task.ask (Op.headOf none)) fun head =>
                pure (.ok { ok := true, branch := record.branch, head_commit := some head })
            else abandon record.branch none (Task.ask Op.mergeAbort)

def rebaseTarget (onto : String) : Prog (Except PyError String) :=
  if onto ≠ "" then pure (.ok onto) else Task.ask (Op.branchOf none)

def rebase (record : Record) (onto : String) : Prog (Except PyError IntegrationResult) :=
  andThen (ensureClean (some record.path)) fun _ =>
    andThen (rebaseTarget onto) fun target =>
      andThen (Task.ask (Op.rebase record.path target)) fun ok =>
        if ok then
          andThen (Task.ask (Op.headOf (some record.path))) fun head =>
            pure (.ok { ok := true, branch := record.branch, head_commit := some head })
        else abandon record.branch (some record.path) (Task.ask (Op.rebaseAbort record.path))

/-- `inspect`, of which a removal uses whether the worktree is clean. -/
def inspectClean (record : Record) : Prog (Except PyError Bool) := do
  let isDir ← Task.ask (Op.isDir record.path)
  if isDir = false then pure (.error (.raised "WorktreeNotFound" record.worktree_id))
  else
    andThen (Task.ask (Op.headOf (some record.path))) fun _ =>
      andThen (Task.ask (Op.isClean (some record.path))) fun clean =>
        andThen (Task.ask (Op.output (some record.path) ["log", "--format=%H"] true)) fun _ =>
          andThen (Task.ask (Op.output (some record.path) ["diff", "--name-only"] true)) fun _ =>
            andThen (Task.ask (Op.output (some record.path) ["diff", "--no-ext-diff"] true)) fun _ =>
              pure (.ok clean)

/-- What a removal without force insists on. -/
def removable (record : Record) (force : Bool) : Prog (Except PyError Unit) :=
  if force then pure (.ok ())
  else
    andThen (inspectClean record) fun clean =>
      if clean = false then
        pure (.error (.raised "WorktreeDirtyError" ("refusing to remove dirty worker " ++ record.worktree_id)))
      else if record.status ≠ .integrated ∧ record.status ≠ .removed then
        raise "worker may be removed only after successful integration"
      else pure (.ok ())

def removePath (record : Record) (force : Bool) : Prog (Except PyError Unit) := do
  let there ← Task.ask (Op.pathExists record.path)
  if there then
    andThen (Task.ask (Op.removeWorktree record.path force)) fun ok =>
      if ok then pure (.ok ()) else raise "git worktree remove failed"
  else pure (.ok ())

def remove (record : Record) (force : Bool) : Prog (Except PyError Record) :=
  andThen (removable record force) fun _ =>
    andThen (removePath record force) fun _ =>
      andThen (ignoring (Task.ask (Op.deleteBranch record.branch))) fun _ =>
        pure (.ok { record with status := .removed, dirty := false })

/-- The records of the worktrees that git lists. -/
def recoverEach (repository : String) : List Listed → Prog (Except PyError (List Record))
  | [] => pure (.ok [])
  | k :: rest =>
      if k.path = repository then recoverEach repository rest
      else
        andThen (Task.ask (Op.isClean (some k.path))) fun clean =>
          andThen (recoverEach repository rest) fun records => pure (.ok
            ({ worktree_id := String.ofList (k.path.toList.reverse.takeWhile (· ≠ '/')).reverse
               path := k.path
               branch := k.branch
               base_commit := none
               owner_session_id := ""
               task_id := ""
               status := .orphaned
               head_commit := k.head
               dirty := !clean } :: records))

def recover (repository : String) : Prog (Except PyError (List Record)) :=
  andThen (Task.ask Op.worktreeList) fun listed => recoverEach repository listed

/-! ## 4. The world -/

/-- A call of the manager; a removal is without force, as `cleanup_task` asks
for it. -/
inductive Call where
  | create (args : CreateArgs)
  | integrate (record : Record) (expected_branch : Option String)
  | rebase (record : Record) (onto : String)
  | remove (record : Record)
  | recover

structure Config where
  repository : String
  root : String

def Call.prog (cfg : Config) : Call → Prog Unit
  | .create args => (Git.create cfg.root args).forget
  | .integrate record expected => (Git.integrate record expected).forget
  | .rebase record onto => (Git.rebase record onto).forget
  | .remove record => (Git.remove record false).forget
  | .recover => (Git.recover cfg.repository).forget

def Call.isCreate : Call → Bool
  | .create _ => true
  | _ => false

/-- A call that is under way, with the repository that it found. -/
structure Running where
  creating : Bool
  before : Repo
  task : Prog Unit

structure World where
  site : Site
  running : Option Running := none

/-- The calls come one after another; between any two git commands of one,
workers commit and edit. -/
inductive Action where
  | call (c : Call)
  | git
  | commit (path : String) (dirty : Bool)
  | edit (path : String)

/-- While a worktree is being made no worker is in it. -/
def World.occupied (w : World) (path : String) : Bool :=
  match w.running with
  | some r => !r.creating || r.before.isCheckout path
  | none => true

def World.step (cfg : Config) (outcomes : Nat → Outcome) (w : World) : Action → World
  | .call c =>
      match w.running with
      | none => { w with running := some ⟨c.isCreate, w.site.repo, c.prog cfg⟩ }
      | some _ => w
  | .git =>
      match w.running with
      | some ⟨creating, before, .call op next⟩ =>
          let result := perform outcomes w.site op
          { site := result.1, running := some ⟨creating, before, next result.2⟩ }
      | some ⟨_, _, .done _⟩ => { w with running := none }
      | none => w
  | .commit path dirty => if w.occupied path then { w with site := Git.commit w.site path dirty } else w
  | .edit path => if w.occupied path then { w with site := Git.edit w.site path } else w

/-- A repository in which the named branches are worker branches. -/
def World.start (repo : Repo) (names : List String) : World where
  site := {
    repo := repo
    workers := names.filter fun b => (repo.head b).isSome
    heads := names.filterMap repo.head }

end Agenthicc.Worktrees.Git
