/-
Agenthicc.Worktrees.Coordinator — the operations of the parallel coordinator
on one orchestration.

An operation is a program over `Op`: reading and saving the manifest, and the
calls of the worktree manager, the project environment and the supervisor,
whose answers are an argument of the model. A `save` carries, besides the
manifest, what the operation acts on and the manifest that the saved one was
evolved from; the store looks at neither.

`dispatch` compares the task of its first read with the ready ones of its
second; the time of the last update, which the source compares too, is not
part of a task here.
-/
import Agenthicc.Library.Tasks
import Agenthicc.Python.Builtins
import Agenthicc.Python.JsonLines
import Agenthicc.Worktrees.Model

namespace Agenthicc.Worktrees

open Python Tasks

/-! ## 1. Calls -/

/-- What an operation acts on: a task that it adds, a task and its worktree
record, or all records. -/
inductive Acts where
  | add (task_id : String)
  | task (task_id worktree_id : String)
  | records
  deriving DecidableEq

/-- The reviewed environment manifest of a project. -/
structure EnvironmentManifest where
  digest : String
  setup : Bool

structure EnvironmentRunReceipt where
  json : String
  result : String
  /-- `error` and `stderr` of each command. -/
  commands : List (String × String) := []

/-- What the manager reports of a worktree that it made or adopted. -/
structure CreatedWorktree where
  path : String
  branch : String
  base_commit : String
  head_commit : String
  dirty : Bool := false

structure IntegrationResult where
  ok : Bool
  head_commit : String := ""
  conflict_paths : List String := []
  message : String := ""

/-- A background session: `dispatch_state == "pending"`, its status and its
error. -/
structure WorkerSession where
  pending : Bool
  status : String
  error : String := ""

inductive Op where
  | get
  | save (acts : Acts) (base m : ParallelManifest)
  | head
  | branch
  | loadEnvironment (path : String)
  | requireTrust (digest : String) (approved : Bool) (workspace_root : String)
  | create (task_id base_commit worktree_id : String)
  | isDir (path : String)
  | newSessionId
  | runSetup (path : String) (approved : Bool) (digest : String)
  | submit (task_id session_id : String) (record : WorktreeRecord) (receipts : List String)
  | session (session_id : String)
  | complete (record : WorktreeRecord) (session_id : String)
  | integrate (task_id : String) (record : WorktreeRecord) (expected_branch : String)
  | rebase (record : WorktreeRecord) (onto : String)
  | remove (record : WorktreeRecord)
  | recover

abbrev Op.Reply : Op → Type
  | .get => ParallelManifest
  | .save .. => Unit
  | .head | .branch => Except PyError String
  | .loadEnvironment _ => Except PyError (Option EnvironmentManifest)
  | .requireTrust .. => Except PyError Unit
  | .create .. => Except PyError CreatedWorktree
  | .isDir _ => Bool
  | .newSessionId => String
  | .runSetup .. => Except PyError (Option EnvironmentRunReceipt)
  | .submit .. => Except PyError (String × Bool)
  | .session _ => Option WorkerSession
  | .complete .. => Except PyError WorkerResult
  | .integrate .. | .rebase .. => Except PyError IntegrationResult
  | .remove _ => Except PyError Unit
  | .recover => Except PyError (List WorktreeRecord)

abbrev Prog (α : Type) := Task Op Op.Reply α

/-- What a coordinator is built with, `uuid.uuid5(…).hex[:16]`, the path below
the worktree root, and `f"{type(exc).__name__}: {exc}"`. -/
structure Config where
  repository : String
  parent_session_id : String
  has_supervisor : Bool := true
  /-- `isinstance(self.supervisor, BackgroundSupervisor)`. -/
  background : Bool := true
  uuid5 : String → String
  pathOf : String → String
  describe : PyError → String

variable (cfg : Config)

def coordinatorError (message : String) : PyError := .raised "CoordinatorError" message

/-- Going on where no exception was raised. -/
def andThen {α β : Type} (t : Prog (Except PyError α)) (f : α → Prog (Except PyError β)) :
    Prog (Except PyError β) :=
  t >>= fun
    | .ok a => f a
    | .error exc => pure (.error exc)

/-- The exception of a missing key. -/
def found {α : Type} (key : String) : Option α → Except PyError α
  | some a => .ok a
  | none => .error (.keyError key)

def strStrip (s : String) : String := String.ofList (strip s.toList)

/-! ## 2. Tasks -/

structure Walk where
  visiting : List String := []
  visited : List String := []

/-- `any(visit(node) for node in nodes)`. -/
def visitAny (visit : String → Walk → Bool × Walk) : List String → Walk → Bool × Walk
  | [], walk => (false, walk)
  | node :: rest, walk =>
      match visit node walk with
      | (true, walk) => (true, walk)
      | (false, walk) => visitAny visit rest walk

/-- `visit` of `_has_cycle`; the number bounds the depth. -/
def visit (dependencies : String → List String) : Nat → String → Walk → Bool × Walk
  | 0, _, walk => (false, walk)
  | fuel + 1, node, walk =>
      if node ∈ walk.visiting then (true, walk)
      else if node ∈ walk.visited then (false, walk)
      else
        match visitAny (visit dependencies fuel) (dependencies node)
            { walk with visiting := node :: walk.visiting } with
        | (true, walk) => (true, walk)
        | (false, walk) =>
            (false, { visiting := walk.visiting.erase node, visited := node :: walk.visited })

def hasCycle (m : ParallelManifest) : Bool :=
  let dependencies := fun node => match m.task? node with
    | some task => task.dependencies
    | none => []
  (visitAny (visit dependencies (m.tasks.length + 2)) (m.tasks.map (·.task_id)) {}).1

def newTask (task_id description : String) (dependencies : List String) : ParallelTask where
  task_id := strStrip task_id
  description := strStrip description
  dependencies := dependencies

def ParallelManifest.addedTask (manifest : ParallelManifest) (task : ParallelTask) : ParallelManifest :=
  { manifest with tasks := manifest.tasks ++ [task], status := .planning }

/-- Why a task is not added. -/
def addRefusal (manifest : ParallelManifest) (task : ParallelTask) : Option String :=
  let known := manifest.tasks.map (·.task_id)
  let unknown := task.dependencies.filter (· ∉ known)
  if task.task_id = "" ∨ task.description = "" then some "task_id and description must not be empty"
  else if task.task_id ∈ known then some ("task already exists: " ++ task.task_id)
  else if unknown ≠ [] then some ("unknown task dependencies: " ++ strJoin ", " unknown)
  else if task.task_id ∈ task.dependencies then some "a task cannot depend on itself"
  else if hasCycle (manifest.addedTask task) then some "task dependency graph contains a cycle"
  else none

def saveAdded (manifest : ParallelManifest) (task : ParallelTask) : Prog (Except PyError Unit) := do
  Task.ask (Op.save (.add task.task_id) manifest (manifest.addedTask task))
  pure (.ok ())

def addTask (task_id description : String) (dependencies : List String) : Prog (Except PyError Unit) := do
  let manifest ← Task.ask Op.get
  match addRefusal manifest (newTask task_id description dependencies) with
  | some message => pure (.error (coordinatorError message))
  | none => saveAdded manifest (newTask task_id description dependencies)

/-- The tasks that count as done for `ready_tasks`. -/
def completedIds (m : ParallelManifest) : List String :=
  (m.tasks.filter fun t => t.status = .completed ∨ t.status = .integrated).map (·.task_id)

def readyTasks (m : ParallelManifest) : List ParallelTask :=
  m.tasks.filter fun t => t.status = .pending ∧ ∀ d ∈ t.dependencies, d ∈ completedIds m

/-! ## 3. Dispatch -/

section Dispatch

variable (approved : Bool)

/-- The worktree that the task has, or a new one. -/
def allocate (manifest : ParallelManifest) (task : ParallelTask) (planned : String) :
    Prog (Except PyError WorktreeRecord) :=
  if task.worktree_id ≠ "" then pure (found task.worktree_id (manifest.worktree? task.worktree_id))
  else
    andThen (Task.ask (Op.create task.task_id manifest.base_commit planned)) fun created => pure (.ok
      { worktree_id := planned
        repository := cfg.repository
        path := created.path
        branch := created.branch
        base_commit := created.base_commit
        owner_session_id := cfg.parent_session_id
        task_id := task.task_id
        status := .active
        head_commit := created.head_commit
        dirty := created.dirty })

/-- The setup needs trust or approval before anything is allocated. -/
def requireTrust (project : Option EnvironmentManifest) (workspace_root : String) :
    Prog (Except PyError Unit) :=
  match project with
  | some environment =>
      if environment.setup then Task.ask (Op.requireTrust environment.digest approved workspace_root)
      else pure (.ok ())
  | none => pure (.ok ())

/-- The path of the worktree, for the preview. -/
def plannedPath (manifest : ParallelManifest) (task : ParallelTask) (planned : String) :
    Except PyError String :=
  if task.worktree_id ≠ "" then
    (found task.worktree_id (manifest.worktree? task.worktree_id)).map (·.path)
  else .ok (cfg.pathOf planned)

def plannedId (manifest : ParallelManifest) (task : ParallelTask) : String :=
  if task.worktree_id ≠ "" then task.worktree_id
  else cfg.uuid5 ("agenthicc:" ++ manifest.orchestration_id ++ ":" ++ task.task_id)

/-- What a dispatch has before it writes anything. -/
structure Selected where
  manifest : ParallelManifest
  task : ParallelTask
  record : WorktreeRecord
  project : Option EnvironmentManifest

def checkPath (selected : Selected) : Prog (Except PyError Selected) := do
  let isDir ← Task.ask (Op.isDir selected.record.path)
  if isDir = false then
    pure (.error (coordinatorError ("worker worktree is missing: " ++ selected.record.path)))
  else pure (.ok selected)

def selectWorktree (manifest : ParallelManifest) (task : ParallelTask) : Prog (Except PyError Selected) :=
  let planned := plannedId cfg manifest task
  andThen (Task.ask (Op.loadEnvironment cfg.repository)) fun project =>
    andThen (pure (plannedPath cfg manifest task planned)) fun root =>
      andThen (requireTrust approved project root) fun _ =>
        andThen (allocate cfg manifest task planned) fun record =>
          checkPath ⟨manifest, task, record, project⟩

/-- The checks in front of a dispatch, and its worktree. -/
def select (task_id : String) : Prog (Except PyError Selected) := do
  let manifest ← Task.ask Op.get
  andThen (pure (found task_id (manifest.task? task_id))) fun task =>
    if task.status ≠ .pending then
      pure (.error (coordinatorError ("task " ++ task_id ++ " is not pending")))
    else do
      let again ← Task.ask Op.get
      if task ∉ readyTasks again then
        pure (.error (coordinatorError ("task dependencies are not complete: " ++ task_id)))
      else
        andThen (Task.ask Op.head) fun head =>
          if manifest.base_commit ≠ head then
            pure (.error (coordinatorError "coordinator HEAD changed after the orchestration was created"))
          else selectWorktree cfg approved manifest task

/-- The task with its worktree and a fresh session id. -/
def Selected.marked (selected : Selected) (session_id : String) : ParallelTask :=
  { selected.task with
    status := .dispatching
    worker_session_id := session_id
    worktree_id := selected.record.worktree_id }

def Selected.markedManifest (selected : Selected) (task : ParallelTask) : ParallelManifest :=
  { selected.manifest with
    status := .running
    tasks := selected.manifest.replaceTask task
    worktrees := selected.record :: selected.manifest.worktrees }

/-- The mark: the marked task is in the manifest. -/
def mark (selected : Selected) : Prog ParallelTask := do
  let session_id ← Task.ask Op.newSessionId
  let task := selected.marked session_id
  Task.ask (Op.save (.task task.task_id selected.record.worktree_id) selected.manifest
    (selected.markedManifest task))
  pure task

/-- The manifest with a task whose setup failed, and its record with the error. -/
def retryable (m : ParallelManifest) (task : ParallelTask) (record : WorktreeRecord) (error : String) :
    ParallelManifest :=
  { m with
    tasks := m.replaceTask { task with status := .pending, worker_session_id := "", error := error }
    worktrees := m.replaceWorktree { record with last_error := error } }

/-- A launched worker: the manifest it is to go into, the id of its session and
whether the dispatch of that is pending. -/
structure Launched where
  m : ParallelManifest
  session_id : String
  queued : Bool

def saveRetryable (m : ParallelManifest) (task : ParallelTask) (record : WorktreeRecord) (error : String) :
    Prog (Except PyError Launched) := do
  Task.ask (Op.save (.task task.task_id record.worktree_id) m (retryable m task record error))
  pure (.error (coordinatorError error))

/-- The session of the worker. -/
def submitWorker (task : ParallelTask) (record : WorktreeRecord) (receipts : List String) :
    Prog (Except PyError (String × Bool)) :=
  if cfg.has_supervisor then Task.ask (Op.submit task.task_id task.worker_session_id record receipts)
  else pure (.ok (task.worker_session_id, false))

def saveFailed (m : ParallelManifest) (task : ParallelTask) (record : WorktreeRecord) (error : String) :
    Prog (Except PyError Launched) := do
  Task.ask (Op.save (.task task.task_id record.worktree_id) m { m with
    tasks := m.replaceTask { task with status := .failed, error := error } })
  pure (.error (coordinatorError error))

def launch (m : ParallelManifest) (task : ParallelTask) (record : WorktreeRecord) (receipts : List String) :
    Prog (Except PyError Launched) := do
  match ← submitWorker cfg task record receipts with
  | .error exc => saveFailed m task record (cfg.describe exc)
  | .ok session => pure (.ok ⟨m, session.1, session.2⟩)

def lastN64 (receipts : List String) : List String := receipts.drop (receipts.length - 64)

/-- The first error or error output of a setup. -/
def commandDetail (commands : List (String × String)) : String :=
  ((commands.map fun c => if c.1 ≠ "" then c.1 else strStrip c.2).find? (· ≠ "")).getD ""

def setupError (receipt : EnvironmentRunReceipt) : String :=
  let detail := commandDetail receipt.commands
  "environment setup did not complete: " ++ receipt.result
    ++ (if detail ≠ "" then " · " ++ strTake 500 detail else "")

/-- The receipt of the setup goes into the record. -/
def WorktreeRecord.withReceipt (record : WorktreeRecord) (receipt : EnvironmentRunReceipt) : WorktreeRecord :=
  { record with environment_receipts := lastN64 (record.environment_receipts ++ [receipt.json]) }

def afterSetup (m : ParallelManifest) (task : ParallelTask) (record : WorktreeRecord)
    (receipt : EnvironmentRunReceipt) : Prog (Except PyError Launched) := do
  let record := record.withReceipt receipt
  let m' := { m with worktrees := m.replaceWorktree record }
  Task.ask (Op.save (.task task.task_id record.worktree_id) m m')
  if receipt.result ≠ "succeeded" then saveRetryable m' task record (setupError receipt)
  else launch cfg m' task record [receipt.json]

def digestOf : Option EnvironmentManifest → String
  | some environment => environment.digest
  | none => ""

/-- The project and the worker have the same environment manifest. -/
def sameEnvironment (project worker : Option EnvironmentManifest) : Bool :=
  match project, worker with
  | none, none => true
  | some p, some w => p.digest == w.digest
  | _, _ => false

/-- The body of the `try`: the receipt of the setup, if there was one. -/
def runSetup (project : Option EnvironmentManifest) (record : WorktreeRecord) :
    Prog (Except PyError (Option EnvironmentRunReceipt)) :=
  andThen (Task.ask (Op.loadEnvironment record.path)) fun worker =>
    if sameEnvironment project worker = false then
      pure (.error (coordinatorError ("worker worktree environment manifest differs from the reviewed "
        ++ "repository manifest; commit the manifest and retry dispatch")))
    else Task.ask (Op.runSetup record.path approved (digestOf project))

/-- From the mark to the session of the worker, or to the save that gives up. -/
def setUp (m : ParallelManifest) (task : ParallelTask) (record : WorktreeRecord)
    (project : Option EnvironmentManifest) : Prog (Except PyError Launched) := do
  match ← runSetup approved project record with
  | .error exc => saveRetryable m task record (cfg.describe exc)
  | .ok none => launch cfg m task record []
  | .ok (some receipt) => afterSetup cfg m task record receipt

/-- The post-launch identity is persisted. -/
def saveLaunched (task : ParallelTask) (record : WorktreeRecord) (launched : Launched) :
    Prog (Except PyError ParallelTask) := do
  let running := { task with
    status := if launched.queued then .queued else .running
    worker_session_id := launched.session_id
    worktree_id := record.worktree_id }
  Task.ask (Op.save (.task task.task_id record.worktree_id) launched.m { launched.m with
    tasks := launched.m.replaceTask running })
  pure (.ok running)

def dispatch (task_id : String) : Prog (Except PyError ParallelTask) :=
  andThen (select cfg approved task_id) fun selected => do
    let task ← mark selected
    andThen (setUp cfg approved (selected.markedManifest task) task selected.record selected.project)
      fun launched => saveLaunched task selected.record launched

end Dispatch

/-! ## 4. Inspection -/

def activeStatuses : List String :=
  ["starting", "running", "waiting_approval", "waiting_input", "retrying", "cancelling"]

/-- The session of a worker, where there is one to look up. -/
def workerSession (task : ParallelTask) : Prog (Option WorkerSession) :=
  if task.worker_session_id ≠ "" ∧ cfg.background then Task.ask (Op.session task.worker_session_id)
  else pure none

/-- The result of a worker that has not ended. -/
def unfinished (task : ParallelTask) (record : WorktreeRecord) (status : String) : WorkerResult where
  task_id := task.task_id
  worker_session_id := task.worker_session_id
  worktree_id := record.worktree_id
  base_commit := record.base_commit
  head_commit := record.base_commit
  status := status

def orElse (text dflt : String) : String := if text ≠ "" then text else dflt

/-- The status of the task and the result, from the evidence and the session. -/
def inspected (task : ParallelTask) (result : WorkerResult) (session : Option WorkerSession) :
    TaskStatus × WorkerResult :=
  let status := match session with
    | some s => s.status
    | none => ""
  let error := match session with
    | some s => s.error
    | none => ""
  if result.status = "complete" then (.completed, result)
  else if status ∈ ["failed", "orphaned"] then
    (.failed, { result with status := "worker_failed", error := orElse error "Worker session failed" })
  else if status = "cancelled" then
    (.cancelled, { result with status := "worker_cancelled", error := orElse error "Worker was cancelled" })
  else if status = "completed" then
    (.failed, { result with
      status := "incomplete"
      error := "Worker completed without a clean committed result" })
  else (task.status, result)

/-- What an inspection has before it writes: `settled` when the worktree was
looked at, and its record changes too. -/
structure Examined where
  manifest : ParallelManifest
  task : ParallelTask
  record : WorktreeRecord
  status : TaskStatus
  result : WorkerResult
  settled : Bool

/-- The evidence of the worktree. -/
def examineWorktree (m : ParallelManifest) (task : ParallelTask) (record : WorktreeRecord)
    (session : Option WorkerSession) : Prog (Except PyError Examined) :=
  andThen (Task.ask (Op.complete record task.worker_session_id)) fun result =>
    let outcome := inspected task result session
    pure (.ok ⟨m, task, record, outcome.1, outcome.2, true⟩)

def examineSession (m : ParallelManifest) (task : ParallelTask) (record : WorktreeRecord)
    (session : Option WorkerSession) : Prog (Except PyError Examined) :=
  match session with
  | some s =>
      if s.pending then pure (.ok ⟨m, task, record, .queued, unfinished task record "queued", false⟩)
      else if s.status ∈ activeStatuses then
        pure (.ok ⟨m, task, record, .running, unfinished task record "running", false⟩)
      else examineWorktree m task record session
  | none => examineWorktree m task record none

/-- The task and its worktree record. -/
def taskAndRecord (m : ParallelManifest) (task_id : String) : Except PyError (ParallelTask × WorktreeRecord) := do
  let task ← found task_id (m.task? task_id)
  let record ← found task.worktree_id (m.worktree? task.worktree_id)
  pure (task, record)

def examine (task_id : String) : Prog (Except PyError Examined) := do
  let manifest ← Task.ask Op.get
  andThen (pure (found task_id (manifest.task? task_id))) fun task =>
    if task.worktree_id = "" then pure (.error (coordinatorError ("task has no worktree: " ++ task_id)))
    else
      andThen (pure (found task.worktree_id (manifest.worktree? task.worktree_id))) fun record => do
        let session ← workerSession cfg task
        examineSession manifest task record session

/-- The manifest with the outcome of an inspection. -/
def Examined.saved (e : Examined) : ParallelManifest :=
  { e.manifest with
    tasks := e.manifest.replaceTask { e.task with status := e.status, result := some e.result }
    worktrees := if e.settled then e.manifest.replaceWorktree { e.record with
        status := if e.status = .completed then .completed else .active
        head_commit := e.result.head_commit
        dirty := !e.result.clean }
      else e.manifest.worktrees }

def inspectTask (task_id : String) : Prog (Except PyError WorkerResult) :=
  andThen (examine cfg task_id) fun e => do
    Task.ask (Op.save (.task e.task.task_id e.record.worktree_id) e.manifest e.saved)
    pure (.ok e.result)

/-! ## 5. Integration, rebase, cleanup and recovery -/

/-- The outcome of a merge goes into the manifest as it is by then. -/
def saveIntegration (refreshed : ParallelManifest) (task : ParallelTask) (record : WorktreeRecord)
    (result : IntegrationResult) : Prog (Except PyError IntegrationResult) := do
  Task.ask (Op.save (.task task.task_id record.worktree_id) refreshed (if result.ok then { refreshed with
      status := .running
      tasks := refreshed.replaceTask { task with status := .integrated }
      worktrees := refreshed.replaceWorktree { record with
        status := .integrated
        head_commit := result.head_commit } }
    else { refreshed with
      status := .reviewing
      last_error := result.message
      tasks := refreshed.replaceTask { task with status := .conflict, error := result.message }
      worktrees := refreshed.replaceWorktree { record with
        status := .conflict
        conflict_paths := result.conflict_paths
        last_error := result.message } }))
  pure (.ok result)

/-- A task of a manifest and its worktree record. -/
structure Chosen where
  manifest : ParallelManifest
  task : ParallelTask
  record : WorktreeRecord

/-- The task when its status is fit for the operation, and its record. -/
def choose (task_id : String) (fit : TaskStatus → Bool) (message : String) :
    Prog (Except PyError Chosen) := do
  let manifest ← Task.ask Op.get
  andThen (pure (found task_id (manifest.task? task_id))) fun task =>
    if fit task.status = false then pure (.error (coordinatorError message))
    else
      andThen (pure (found task.worktree_id (manifest.worktree? task.worktree_id))) fun record =>
        pure (.ok ⟨manifest, task, record⟩)

def checkBranch (c : Chosen) : Prog (Except PyError Chosen) :=
  andThen (Task.ask Op.branch) fun branch =>
    if branch ≠ c.manifest.parent_branch then
      pure (.error (coordinatorError
        "coordinator is not on the manifest parent branch; refusing integration"))
    else pure (.ok c)

/-- The checks in front of an integration. -/
def integrable (task_id : String) : Prog (Except PyError Chosen) :=
  andThen (choose task_id (fun status => status = .completed ∨ status = .conflict)
    ("task must have completion evidence before integration: " ++ task_id)) checkBranch

/-- The manifest with the task and its record marked as being integrated. -/
def Chosen.integrating (c : Chosen) : ParallelManifest :=
  { c.manifest with
    status := .integrating
    tasks := c.manifest.replaceTask { c.task with status := .integrating }
    worktrees := c.manifest.replaceWorktree { c.record with status := .integrating } }

/-- The merge, and what becomes of it. -/
def merge (c : Chosen) : Prog (Except PyError IntegrationResult) :=
  andThen (Task.ask (Op.integrate c.task.task_id c.record c.manifest.parent_branch)) fun result => do
    let refreshed ← Task.ask Op.get
    saveIntegration refreshed c.task c.record result

def integrateTask (task_id : String) : Prog (Except PyError IntegrationResult) :=
  andThen (integrable task_id) fun c => do
    Task.ask (Op.save (.task c.task.task_id c.record.worktree_id) c.manifest c.integrating)
    merge c

/-- A rebase of the worker branch, before anything is written. -/
structure Rebased where
  manifest : ParallelManifest
  task : ParallelTask
  record : WorktreeRecord
  result : IntegrationResult

def rebaseBranch (task_id : String) : Prog (Except PyError Rebased) := do
  let manifest ← Task.ask Op.get
  andThen (pure (taskAndRecord manifest task_id)) fun pair =>
    andThen (Task.ask (Op.rebase pair.2 manifest.parent_branch)) fun result =>
      pure (.ok ⟨manifest, pair.1, pair.2, result⟩)

def Rebased.saved (r : Rebased) : ParallelManifest :=
  { r.manifest with
    tasks := r.manifest.replaceTask { r.task with status := .completed, error := "" }
    worktrees := r.manifest.replaceWorktree { r.record with
      status := .completed
      head_commit := r.result.head_commit
      conflict_paths := [] } }

def rebaseTask (task_id : String) : Prog (Except PyError IntegrationResult) :=
  andThen (rebaseBranch task_id) fun r =>
    if r.result.ok then do
      Task.ask (Op.save (.task r.task.task_id r.record.worktree_id) r.manifest r.saved)
      pure (.ok r.result)
    else pure (.ok r.result)

/-- The checks in front of a cleanup, and the removal of the worktree. -/
def cleanable (task_id : String) : Prog (Except PyError Chosen) :=
  andThen (choose task_id (fun status => status = .integrated) "only integrated workers may be cleaned up")
    fun c => andThen (Task.ask (Op.remove c.record)) fun _ => pure (.ok c)

def Chosen.cleaned (c : Chosen) : ParallelManifest :=
  { c.manifest with
    tasks := c.manifest.replaceTask { c.task with status := .cleaned }
    worktrees := c.manifest.replaceWorktree { c.record with status := .removed, dirty := false } }

def cleanupTask (task_id : String) : Prog (Except PyError ParallelTask) :=
  andThen (cleanable task_id) fun c => do
    Task.ask (Op.save (.task c.task.task_id c.record.worktree_id) c.manifest c.cleaned)
    pure (.ok { c.task with status := .cleaned })

/-- The records with the ones whose path is gone marked. -/
def surviving : List WorktreeRecord → Prog (List WorktreeRecord)
  | [] => pure []
  | record :: rest => do
      let isDir ← Task.ask (Op.isDir record.path)
      let rest ← surviving rest
      pure ((if isDir then record
        else { record with status := .orphaned, last_error := "worktree path is missing" }) :: rest)

/-- The records by path, the last one of a path in the place of the first. -/
def byPath (records : List WorktreeRecord) : List WorktreeRecord :=
  records.foldl (fun seen record =>
    if record.path ∈ seen.map (·.path) then
      seen.map fun r => if r.path = record.path then record else r
    else seen ++ [record]) []

/-- The worktrees that no record knows, behind the records. -/
def adopted (worktrees actual : List WorktreeRecord) : List WorktreeRecord :=
  actual.foldl (fun worktrees record =>
    if record.path ∈ worktrees.map (·.path) then worktrees else worktrees ++ [record]) worktrees

/-- What a recovery saves: the records, and the worktrees that git knows. -/
structure Recovered where
  manifest : ParallelManifest
  worktrees : List WorktreeRecord
  actual : List WorktreeRecord

def survey : Prog (Except PyError Recovered) := do
  let manifest ← Task.ask Op.get
  andThen (Task.ask Op.recover) fun actual => do
    let worktrees ← surviving manifest.worktrees
    pure (.ok ⟨manifest, worktrees, byPath actual⟩)

def Recovered.saved (r : Recovered) : ParallelManifest :=
  { r.manifest with status := .recovering, worktrees := adopted r.worktrees r.actual }

def recoverAll : Prog (Except PyError ParallelManifest) :=
  andThen survey fun r => do
    Task.ask (Op.save .records r.manifest r.saved)
    pure (.ok r.saved)

/-- An operation, by its arguments. -/
inductive Operation where
  | addTask (task_id description : String) (dependencies : List String)
  | dispatch (task_id : String) (environment_approved : Bool)
  | inspectTask (task_id : String)
  | integrateTask (task_id : String)
  | rebaseTask (task_id : String)
  | cleanupTask (task_id : String)
  | recover

def Operation.prog : Operation → Prog Unit
  | .addTask task_id description dependencies => (Worktrees.addTask task_id description dependencies).forget
  | .dispatch task_id approved => (Worktrees.dispatch cfg approved task_id).forget
  | .inspectTask task_id => (Worktrees.inspectTask cfg task_id).forget
  | .integrateTask task_id => (Worktrees.integrateTask task_id).forget
  | .rebaseTask task_id => (Worktrees.rebaseTask task_id).forget
  | .cleanupTask task_id => (Worktrees.cleanupTask task_id).forget
  | .recover => recoverAll.forget

/-! ## 6. The store and the world around it -/

/-- The manifest file, the answers of everything else by their number, and
what has been observed: the saves, the merges that succeeded and the sessions
that the supervisor registered. -/
structure Site where
  stored : ParallelManifest
  calls : Nat := 0
  saves : List (Acts × ParallelManifest) := []
  merged : List String := []
  sessions : List String := []

/-- What the manager, the environment and the supervisor answer to the call
with the number. -/
abbrev Answers := Nat → (o : Op) → o.Reply

def perform (answers : Answers) (s : Site) (o : Op) : Site × o.Reply :=
  let s := { s with calls := s.calls + 1 }
  match o with
  | .get => (s, s.stored)
  | .save acts _ m => ({ s with stored := m, saves := s.saves ++ [(acts, m)] }, ())
  | .integrate task_id record branch =>
      let reply := answers s.calls (.integrate task_id record branch)
      match reply with
      | .ok result => ({ s with merged := if result.ok then s.merged ++ [task_id] else s.merged }, reply)
      | .error _ => (s, reply)
  | .submit task_id session_id record receipts =>
      let reply := answers s.calls (.submit task_id session_id record receipts)
      match reply with
      | .ok (session, _) => ({ s with sessions := s.sessions ++ [session] }, reply)
      | .error _ => (s, reply)
  | o => (s, answers s.calls o)

/-- Threads and processes, each with operations to run. -/
def system (answers : Answers) : System Op Op.Reply Site Operation where
  perform _ := perform answers
  job := Operation.prog cfg
  died _ s := s

end Agenthicc.Worktrees
