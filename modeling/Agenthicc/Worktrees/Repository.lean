/-
Agenthicc.Worktrees.Repository — a git repository, and the commands that the
worktree manager runs in it.

Commits are numbered in the order in which they are made and never go away;
what can be lost is the branch that leads to one. `Outcome` says how a
command ends: it may fail at any point, with or without its effect. A rebase
replays a chain of commits; here the chain is one commit, a copy of the old
head.

`workers` and `heads` are observed, not stored: the branches of the worktrees
that have been handed out, and every commit that was the head of one.
-/
import Agenthicc.Library.Tasks
import Agenthicc.Python.Builtins

namespace Agenthicc.Worktrees.Git

open Python Tasks

/-! ## 1. Commits -/

structure Commit where
  parents : List Nat
  copies : List Nat := []

/-- `a` leads to `c`, or to a rebased copy of it. -/
inductive Carries (commits : List Commit) : Nat → Nat → Prop where
  | refl (a : Nat) : Carries commits a a
  | parent {a p c : Nat} {k : Commit} (h : commits[a]? = some k) (hp : p ∈ k.parents) (hc : Carries commits p c) :
      Carries commits a c
  | copy {a o c : Nat} {k : Commit} (h : commits[a]? = some k) (ho : o ∈ k.copies) (hc : Carries commits o c) :
      Carries commits a c

/-- `git merge-base --is-ancestor c a`, by paths of at most the given length. -/
def reaches (commits : List Commit) : Nat → Nat → Nat → Bool
  | 0, a, c => a == c
  | fuel + 1, a, c => a == c || match commits[a]? with
      | some k => k.parents.any fun p => reaches commits fuel p c
      | none => false

/-! ## 2. Repositories -/

/-- A linked worktree; in the middle of a rebase its HEAD is a commit. -/
structure Checkout where
  path : String
  branch : String
  detached : Option Nat := none
  dirty : Bool := false
  deriving DecidableEq

/-- `main` is the branch of the coordinator, `mainDirty` what `git status`
says of its worktree outside of the manager's own directory. -/
structure Repo where
  commits : List Commit
  head : String → Option Nat
  main : String
  mainDirty : Bool := false
  checkouts : List Checkout := []

namespace Repo

variable (r : Repo)

def isCheckout (path : String) : Bool := r.checkouts.any (·.path == path)

def checkout? (path : String) : Option Checkout := r.checkouts.find? (·.path == path)

def isDirty (path : String) : Bool := r.checkouts.any fun k => k.path == path && k.dirty

/-- Some worktree has the branch checked out. -/
def checkedOut (branch : String) : Bool := branch == r.main || r.checkouts.any (·.branch == branch)

def reaches (a c : Nat) : Bool := Git.reaches r.commits r.commits.length a c

def setHead (branch : String) (c : Option Nat) : Repo := { r with head := Function.update r.head branch c }

def addCommit (k : Commit) : Repo := { r with commits := r.commits ++ [k] }

def addCheckout (path branch : String) : Repo :=
  { r with checkouts := r.checkouts ++ [{ path := path, branch := branch }] }

def removeCheckout (path : String) : Repo :=
  { r with checkouts := r.checkouts.filter (·.path != path) }

/-- A change of the worktree at a path. -/
def modify (path : String) (f : Checkout → Checkout) : Repo :=
  { r with checkouts := r.checkouts.map fun k => if k.path = path then { f k with path := k.path } else k }

end Repo

structure Site where
  repo : Repo
  calls : Nat := 0
  workers : List String := []
  heads : List Nat := []

namespace Site

variable (s : Site)

def setRepo (r : Repo) : Site := { s with repo := r }

/-- The branch moves, in a repository that may have new commits. -/
def move (r : Repo) (branch : String) (c : Nat) : Site :=
  { s with
    repo := r.setHead branch (some c)
    heads := if branch ∈ s.workers then c :: s.heads else s.heads }

/-- A new commit, and a branch moves to it. -/
def moveNew (branch : String) (k : Commit) : Site :=
  s.move (s.repo.addCommit k) branch s.repo.commits.length

end Site

/-! ## 3. Commands -/

/-- A worktree as `git worktree list` has it. -/
structure Listed where
  path : String
  head : Option Nat
  branch : String

inductive Op where
  | resolve (commit : Nat)
  | checkRefFormat (branch : String)
  | newId
  | pathExists (path : String)
  | isDir (path : String)
  | topLevel (path : String)
  | branchOf (cwd : Option String)
  | headOf (cwd : Option String)
  | isClean (cwd : Option String)
  | showRef (branch : String)
  | branchHead (branch : String)
  | addBranch (path branch : String) (base : Nat)
  | add (path branch : String)
  | removeWorktree (path : String) (force : Bool)
  | deleteBranch (branch : String)
  | merge (branch : String)
  | mergeAbort
  | rebase (path onto : String)
  | rebaseAbort (path : String)
  | worktreeList
  /-- A command of which only the text is used. -/
  | output (cwd : Option String) (args : List String) (check : Bool)
  /-- No command: `create` returns a worktree with the branch to its caller. -/
  | hand (branch : String)

/-- How a command ends. -/
structure Outcome where
  fails : Bool := false
  /-- It does not start, or it is stopped: an exception, no return code. -/
  raises : Bool := false
  /-- It has its effect although it fails or raises. -/
  done : Bool := false
  /-- It leaves something behind: a worktree, changed files, a file in the way. -/
  leaves : Bool := false
  text : String := ""

def Outcome.succeeds (o : Outcome) : Bool := !o.fails && !o.raises

/-- The command has its effect where git does not refuse it. -/
def Outcome.takes (o : Outcome) : Bool := o.succeeds || o.done

abbrev Op.Reply : Op → Type
  | .resolve _ | .headOf _ | .branchHead _ => Except PyError Nat
  | .checkRefFormat _ | .showRef _ | .isClean _ | .removeWorktree .. | .deleteBranch _ | .merge _ | .mergeAbort
  | .rebase .. | .rebaseAbort _ => Except PyError Bool
  | .newId => String
  | .pathExists _ | .isDir _ => Bool
  | .topLevel _ | .branchOf _ | .output .. => Except PyError String
  | .addBranch .. | .add .. => Except PyError Unit
  | .worktreeList => Except PyError (List Listed)
  | .hand _ => Unit

abbrev Prog (α : Type) := Task Op Op.Reply α

def worktreeError (message : String) : PyError := .raised "WorktreeError" message

/-- `_run` with `check=True`, where git does not refuse. -/
def checked {α : Type} (o : Outcome) (value : Option α) : Except PyError α :=
  match value with
  | some a => if o.succeeds then .ok a else .error (worktreeError o.text)
  | none => .error (worktreeError o.text)

/-- A return code of zero, where git does not refuse. -/
def returned (o : Outcome) (accepted : Bool) : Except PyError Bool :=
  if o.raises then .error (.raised "TimeoutExpired" o.text) else .ok (accepted && !o.fails)

section Effects

variable (o : Outcome) (s : Site)

/-- `git merge` of a branch with head `h` into the coordinator branch with
head `m`. -/
def merged (m h : Nat) : Site :=
  if s.repo.reaches m h then s
  else if s.repo.reaches h m then s.move s.repo s.repo.main h
  else s.moveNew s.repo.main { parents := [m, h] }

/-- `git rebase` of a branch with head `h` onto `t`. -/
def rebased (branch : String) (h t : Nat) : Site :=
  if s.repo.reaches h t then s
  else if s.repo.reaches t h then s.move s.repo branch t
  else s.moveNew branch { parents := [t], copies := [h] }

/-- `git worktree add -b`: the branch is made first. -/
def branchAdded (path branch : String) (base : Nat) : Site :=
  let repo := s.repo.setHead branch (some base)
  s.setRepo (if o.succeeds || o.leaves then repo.addCheckout path branch else repo)

/-- git refuses to delete a branch that it does not have or that some
worktree is on. -/
def Repo.deletable (r : Repo) (branch : String) : Bool := (r.head branch).isSome && !r.checkedOut branch

def branchDeleted (branch : String) : Site :=
  { s with repo := s.repo.setHead branch none, workers := s.workers.filter (· != branch) }

/-- The heads of the coordinator branch and of the branch. -/
def Repo.mergeable (r : Repo) (branch : String) : Option (Nat × Nat) :=
  match r.head r.main, r.head branch with
  | some m, some h => some (m, h)
  | _, _ => none

/-- A merge that is not finished leaves the conflicts in the worktree. -/
def mergeEffect (branch : String) : Site :=
  match s.repo.mergeable branch with
  | some (m, h) =>
      if o.takes then merged s m h else s.setRepo { s.repo with mainDirty := s.repo.mainDirty || o.leaves }
  | none => s

/-- The branch of a worktree, its head and the new base. git refuses a rebase
in a worktree with changes, or in the middle of one. -/
def Repo.rebaseable (r : Repo) (path onto : String) : Option (String × Nat × Nat) :=
  match r.checkout? path with
  | some k =>
      match r.head k.branch, r.head onto with
      | some h, some t => if k.dirty || k.detached.isSome then none else some (k.branch, h, t)
      | _, _ => none
  | none => none

/-- A rebase that is not finished leaves the worktree in the middle of it. -/
def rebaseEffect (path onto : String) : Site :=
  match s.repo.rebaseable path onto with
  | some (branch, h, t) =>
      if o.takes then rebased s branch h t
      else if o.leaves then s.setRepo (s.repo.modify path fun k => { k with detached := some t, dirty := true })
      else s
  | none => s

def handed (branch : String) : Site :=
  match s.repo.head branch with
  | some h => { s with workers := branch :: s.workers, heads := h :: s.heads }
  | none => s

/-- What a command does to the repository. -/
def effect : Op → Site
  | .addBranch path branch base =>
      if (s.repo.head branch).isSome || s.repo.isCheckout path then s
      else if o.takes then branchAdded o s path branch base
      else s
  | .add path branch =>
      if (s.repo.head branch).isNone || s.repo.checkedOut branch || s.repo.isCheckout path then s
      else if o.takes then s.setRepo (s.repo.addCheckout path branch)
      else s
  | .removeWorktree path force =>
      if s.repo.isDirty path && !force then s
      else if o.takes then s.setRepo (s.repo.removeCheckout path)
      else s
  | .deleteBranch branch => if s.repo.deletable branch && o.takes then branchDeleted s branch else s
  | .merge branch => mergeEffect o s branch
  | .mergeAbort => if o.takes then s.setRepo { s.repo with mainDirty := false } else s
  | .rebase path onto => rebaseEffect o s path onto
  | .rebaseAbort path =>
      if o.takes then s.setRepo (s.repo.modify path fun k => { k with detached := none, dirty := false }) else s
  | .hand branch => handed s branch
  | _ => s

/-- HEAD of a worktree, or of the coordinator's. -/
def Repo.headOf (r : Repo) : Option String → Option Nat
  | none => r.head r.main
  | some path =>
      match r.checkout? path with
      | some k => k.detached.or (r.head k.branch)
      | none => none

def Repo.branchOf (r : Repo) : Option String → Option String
  | none => some r.main
  | some path =>
      match r.checkout? path with
      | some k => if k.detached.isSome then none else some k.branch
      | none => none

def Repo.isClean (r : Repo) : Option String → Option Bool
  | none => some !r.mainDirty
  | some path => if r.isCheckout path then some !(r.isDirty path) else none

def accepted (ok : Bool) : Option Unit := if ok then some () else none

/-- What a command returns. -/
def reply (r : Repo) : (op : Op) → op.Reply
  | .resolve commit => checked o (if commit < r.commits.length then some commit else none)
  | .checkRefFormat _ => returned o true
  | .newId => o.text
  | .pathExists path | .isDir path => r.isCheckout path || o.leaves
  | .topLevel path => checked o (if r.isCheckout path then some path else some o.text)
  | .branchOf cwd => checked o (r.branchOf cwd)
  | .headOf cwd => checked o (r.headOf cwd)
  | .isClean cwd => checked o (r.isClean cwd)
  | .showRef branch => returned o (r.head branch).isSome
  | .branchHead branch => checked o (r.head branch)
  | .addBranch path branch _ => checked o (accepted (!((r.head branch).isSome || r.isCheckout path)))
  | .add path branch =>
      checked o (accepted (!((r.head branch).isNone || r.checkedOut branch || r.isCheckout path)))
  | .removeWorktree path force => returned o (r.isCheckout path && !(r.isDirty path && !force))
  | .deleteBranch branch => returned o (r.deletable branch)
  | .merge branch => returned o (r.mergeable branch).isSome
  | .rebase path onto => returned o (r.rebaseable path onto).isSome
  | .mergeAbort | .rebaseAbort _ => returned o true
  | .worktreeList =>
      checked o (some (r.checkouts.map fun k => ⟨k.path, k.detached.or (r.head k.branch), k.branch⟩))
  | .output _ _ check =>
      if o.raises || (check && o.fails) then .error (worktreeError o.text) else .ok o.text
  | .hand _ => ()

end Effects

def perform (outcomes : Nat → Outcome) (s : Site) (op : Op) : Site × op.Reply :=
  let o := outcomes (s.calls + 1)
  (effect o { s with calls := s.calls + 1 } op, reply o s.repo op)

/-! ## 4. Workers -/

/-- A worker commits in its worktree; `dirty` says what is left. -/
def commit (s : Site) (path : String) (dirty : Bool) : Site :=
  match s.repo.checkout? path with
  | some k =>
      match k.detached with
      | none =>
          let s := s.moveNew k.branch { parents := (s.repo.head k.branch).toList }
          s.setRepo (s.repo.modify path fun k => { k with dirty := dirty })
      | some c =>
          let repo := s.repo.addCommit { parents := [c] }
          s.setRepo (repo.modify path fun k => { k with detached := some s.repo.commits.length, dirty := dirty })
  | none => s

def edit (s : Site) (path : String) : Site :=
  s.setRepo (s.repo.modify path fun k => { k with dirty := true })

end Agenthicc.Worktrees.Git
