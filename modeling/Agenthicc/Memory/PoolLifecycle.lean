/-
Agenthicc.Memory.PoolLifecycle — the records of subagent pools, the fold of
their lifecycle and the writers that close a pool.

The journal keeps the subagent records in memory once they were asked for;
what it keeps is what a pass over the file gives, so `subagentRecords` is that
pass. `clock n` is the reading of `time.time()` at the write of record `n`.
-/
import Agenthicc.Memory.Journal

namespace Agenthicc.Memory

open Python

/-! ## 1. The fold -/

/-- `_subagent_view`. -/
def ConversationJournal.subagentRecords (j : ConversationJournal) : List Json :=
  (journalEntries j.text).filter fun v => v.isObj && projected (kindText v)

/-- `_subagent_kind`. -/
def ConversationJournal.subagentKind (j : ConversationJournal) (kind : String) : List Json :=
  j.subagentRecords.filter fun v => v.get "kind" = .str kind

/-- The kinds of the lifecycle fold; it iterates them as a set. -/
def LIFECYCLE_KINDS : List String :=
  ["subagent_pool_started", "subagent_pool_backgrounded", "subagent_pool_finished",
    "subagent_pool_interrupted", "subagent_pool_cancelled", "subagent_pool_stopped"]

/-- The sort key of a record. -/
def recordSequence (v : Json) : Int :=
  match v.get "seq" with
  | .int n => n
  | _ => -1

/-- The status a terminal kind gives. -/
def terminalStatus (kind : String) : Option String :=
  [("subagent_pool_finished", "completed"), ("subagent_pool_interrupted", "interrupted"),
    ("subagent_pool_cancelled", "cancelled"), ("subagent_pool_stopped", "stopped")].lookup kind

/-- A pool in the fold: the fields of its records, `status` and
`backgrounded`. -/
abbrev Lifecycle := Dict String Json

/-- The fields of a record that was read. -/
def recordFields : Json → List (String × Json)
  | .obj kvs => kvs
  | _ => []

/-- The entry of a pool after a later record of it. -/
def Lifecycle.advance (value : Lifecycle) (record : Json) : Lifecycle :=
  let value := value.update (recordFields record)
  if record.get "kind" = .str "subagent_pool_backgrounded" then
    (value.set "status" (.str "backgrounded")).set "backgrounded" (.bool true)
  else
    match terminalStatus (kindText record) with
    | some status => value.set "status" (.str status)
    | none => value

/-- One record of the lifecycle fold. -/
def lifecycleEntry (latest : Dict String Lifecycle) (record : Json) : Dict String Lifecycle :=
  match record.get "pool_id" with
  | .str poolId =>
      if poolId = "" then latest
      else if record.get "kind" = .str "subagent_pool_started" then
        latest.set poolId
          (((Dict.empty.update (recordFields record)).set "status" (.str "running")).set
            "backgrounded" (.bool false))
      else
        match latest.get? poolId with
        | none => latest
        | some value => latest.set poolId (value.advance record)
  | _ => latest

namespace ConversationJournal

/-- The lifecycle records in the order of their numbers. -/
def lifecycleRecords (j : ConversationJournal) : List Json :=
  (LIFECYCLE_KINDS.flatMap j.subagentKind).mergeSort fun a b =>
    recordSequence a ≤ recordSequence b

/-- The pools by ID. -/
def pools (j : ConversationJournal) : Dict String Lifecycle :=
  j.lifecycleRecords.foldl lifecycleEntry .empty

def foldSubagentPoolLifecycle (j : ConversationJournal) : List Lifecycle := j.pools.values

end ConversationJournal

/-- `lifecycle.get(key)`. -/
def Lifecycle.field (value : Lifecycle) (key : String) : Json := (value.get? key).getD .null

/-- `lifecycle.get("status") in {"running", "backgrounded"}`. -/
def Lifecycle.active (value : Lifecycle) : Bool :=
  value.field "status" = .str "running" || value.field "status" = .str "backgrounded"

/-! ## 2. The records -/

/-- `dict(mapping)`. -/
def objectOf (fields : List (String × Json)) : Json := .obj fields

/-- `[dict(value) for value in values]` when there are values. -/
def valuesField (values : Option (List (List (String × Json)))) : List (String × Json) :=
  match values with
  | none => []
  | some values => [("values", .arr (values.map objectOf))]

theorem valuesField_own (values : Option (List (List (String × Json)))) :
    ∀ p ∈ valuesField values, p.1 ≠ "seq" ∧ p.1 ≠ "kind" := by
  cases values <;> simp [valuesField]

/-- The head all pool records share. -/
def poolHead (now : PyFloat) (poolId : String) : List (String × Json) :=
  [("at", .float now), ("schema_version", .int 1), ("pool_id", .str poolId)]

def poolStartedEntry (now : PyFloat) (poolId fingerprint parentRunId : String)
    (tasks : List (List (String × String))) : Entry where
  kind := "subagent_pool_started"
  fields := poolHead now (strTake 128 poolId) ++
    [("fingerprint", .str (strTake 128 fingerprint)),
      ("parent_run_id", .str (strTake 128 parentRunId)),
      ("tasks", .arr (tasks.map fun task => objectOf (task.map fun p => (p.1, .str p.2))))]
  own := by simp [poolHead]

def poolBackgroundedEntry (now : PyFloat) (poolId : String) (toolResult : List (String × Json)) :
    Entry where
  kind := "subagent_pool_backgrounded"
  fields := poolHead now (strTake 128 poolId) ++ [("tool_result", objectOf toolResult)]
  own := by simp [poolHead]

/-- The counts and the text of a pool that ended. -/
structure PoolResult where
  total : Int
  succeeded : Int
  failed : Int
  text : String
  values : Option (List (List (String × Json))) := none

def poolFinishedEntry (now : PyFloat) (poolId : String) (result : PoolResult) : Entry where
  kind := "subagent_pool_finished"
  fields := poolHead now (strTake 128 poolId) ++
    [("total", .int (max 0 result.total)), ("succeeded", .int (max 0 result.succeeded)),
      ("failed", .int (max 0 result.failed)), ("text", .str result.text)]
    ++ valuesField result.values
  own := by
    have := valuesField_own result.values
    simp only [List.mem_append, poolHead]
    rintro p (hp | hp)
    · simp at hp; rcases hp with (rfl | rfl | rfl) | rfl | rfl | rfl | rfl <;> simp
    · exact this p hp

def poolStoppedEntry (now : PyFloat) (poolId : String) (result : PoolResult) (reason : String) :
    Entry where
  kind := "subagent_pool_stopped"
  fields := poolHead now (strTake 128 poolId) ++
    [("total", .int (max 0 result.total)), ("succeeded", .int (max 0 result.succeeded)),
      ("failed", .int (max 0 result.failed)), ("text", .str result.text),
      ("reason", .str (strTake 256 reason))]
    ++ valuesField result.values
  own := by
    have := valuesField_own result.values
    simp only [List.mem_append, poolHead]
    rintro p (hp | hp)
    · simp at hp; rcases hp with (rfl | rfl | rfl) | rfl | rfl | rfl | rfl | rfl <;> simp
    · exact this p hp

/-- The counts and the text `_record_unfinished_subagent_workers` returns. -/
structure Aggregate where
  total : Nat
  succeeded : Nat
  text : String

def poolCancelledEntry (now : PyFloat) (poolId reason : String) (a : Aggregate) : Entry where
  kind := "subagent_pool_cancelled"
  fields := poolHead now (strTake 128 poolId) ++
    [("reason", .str (strTake 256 reason)), ("total", .int a.total),
      ("succeeded", .int a.succeeded), ("failed", .int (max 0 ((a.total : Int) - a.succeeded))),
      ("text", .str a.text)]
  own := by simp [poolHead]

def poolInterruptedEntry (now : PyFloat) (poolId : String) (a : Aggregate) : Entry where
  kind := "subagent_pool_interrupted"
  fields := poolHead now poolId ++
    [("total", .int a.total), ("succeeded", .int a.succeeded),
      ("failed", .int (max 0 ((a.total : Int) - a.succeeded))), ("text", .str a.text)]
  own := by simp [poolHead]

def unfinishedStatus (reason : String) : String :=
  if "cancelled:".toList.isPrefixOf reason.toList then "cancelled" else "interrupted"

def unfinishedWorkerLabel (agentType : String) (index : Nat) : String :=
  agentType ++ " #" ++ toString index

/-- The result of a worker that never reported. -/
def unfinishedWorkerEntry (now zero : PyFloat) (poolId fingerprint taskId agentType : String)
    (index : Nat) (reason : String) : Entry where
  kind := "subagent_worker_result"
  fields := poolHead now poolId ++
    [("fingerprint", .str fingerprint), ("task_id", .str taskId),
      ("agent_type", .str agentType), ("label", .str (unfinishedWorkerLabel agentType index)),
      ("status", .str (unfinishedStatus reason)), ("ok", .bool false), ("text", .str ""),
      ("error", .str reason), ("duration_ms", .float zero), ("tool_calls", .arr []),
      ("changed_paths", .arr [])]
  own := by simp [poolHead]

/-! ## 3. Unfinished workers -/

/-- `0.0`. -/
def zeroFloat : PyFloat := .zero

/-- The latest result of each worker of a pool. -/
def ConversationJournal.latestWorkers (j : ConversationJournal) (poolId : String) :
    Dict String Json :=
  (j.subagentKind "subagent_worker_result").foldl (fun latest record =>
    match record.get "task_id" with
    | .str taskId => if record.get "pool_id" = .str poolId then latest.set taskId record else latest
    | _ => latest) .empty

/-- The variables of the loop over the declared tasks. -/
structure Unfinished where
  journal : ConversationJournal
  latest : Dict String Json
  indices : Dict String Nat := .empty

/-- One declared task: a result is recorded when there is none. -/
def Unfinished.task (clock : Nat → PyFloat) (poolId fingerprint reason : String) (u : Unfinished)
    (task : Json) : Unfinished :=
  match task.get "task_id", task.get "agent_type" with
  | .str taskId, .str agentType =>
      if taskId = "" then u
      else
        let index := (u.indices.get? agentType).getD 0 + 1
        let u := { u with indices := u.indices.set agentType index }
        match u.latest.get? taskId with
        | some _ => u
        | none =>
            let entry := unfinishedWorkerEntry (clock u.journal.seq) zeroFloat poolId fingerprint
              taskId agentType index reason
            { u with
              journal := (u.journal.write entry {}).1
              latest := u.latest.set taskId (entry.record u.journal.seq) }
  | _, _ => u

/-- The section of one task in the aggregate text. -/
def taskSection (py : Interp) (latest : Dict String Json) (reason : String) (task : Json) :
    Option String :=
  match task.get "task_id" with
  | .str taskId =>
      (latest.get? taskId).map fun worker =>
        let label := pyStr py (worker.getD "label" (.str taskId))
        let status :=
          if worker.get "ok" = .bool true then "✓"
          else "✗ " ++ pyStr py (worker.getD "error" (.str reason))
        let text := pyStr py (worker.getD "text" (.str ""))
        String.ofList (("=== " ++ label ++ " (" ++ status ++ ") ===\n" ++ text).toList.rdropWhile
          isSpace)
  | _ => none

/-- The tasks a pool declared. -/
def Lifecycle.tasks (value : Lifecycle) : List Json :=
  match value.field "tasks" with
  | .arr tasks => tasks
  | _ => []

/-- The workers whose latest result is a success. -/
def succeededWorkers (latest : Dict String Json) : Nat :=
  latest.values.countP fun record => record.get "ok" = .bool true

/-- `_record_unfinished_subagent_workers`. -/
def recordUnfinishedSubagentWorkers (py : Interp) (clock : Nat → PyFloat)
    (j : ConversationJournal) (lifecycle : Lifecycle) (reason : String) :
    ConversationJournal × Aggregate :=
  let poolId := pyStr py ((lifecycle.get? "pool_id").getD (.str ""))
  let fingerprint := pyStr py ((lifecycle.get? "fingerprint").getD (.str ""))
  let u := lifecycle.tasks.foldl (Unfinished.task clock poolId fingerprint reason)
    { journal := j, latest := j.latestWorkers poolId }
  (u.journal,
    { total := lifecycle.tasks.length
      succeeded := succeededWorkers u.latest
      text := strJoin "\n\n" (lifecycle.tasks.filterMap (taskSection py u.latest reason)) })

/-! ## 4. The writers -/

namespace ConversationJournal

/-- The pool with this ID, as the fold reports it. -/
def findLifecycle (j : ConversationJournal) (poolId : String) : Option Lifecycle :=
  j.foldSubagentPoolLifecycle.find? fun value => value.field "pool_id" = .str poolId

def subagentPoolStarted (clock : Nat → PyFloat) (j : ConversationJournal)
    (poolId fingerprint parentRunId : String) (tasks : List (List (String × String))) :
    ConversationJournal :=
  (j.write (poolStartedEntry (clock j.seq) poolId fingerprint parentRunId tasks) {}).1

def subagentPoolBackgrounded (clock : Nat → PyFloat) (j : ConversationJournal) (poolId : String)
    (toolResult : List (String × Json)) : ConversationJournal :=
  (j.write (poolBackgroundedEntry (clock j.seq) poolId toolResult) {}).1

def subagentPoolFinished (clock : Nat → PyFloat) (j : ConversationJournal) (poolId : String)
    (result : PoolResult) : ConversationJournal :=
  (j.write (poolFinishedEntry (clock j.seq) poolId result) {}).1

def subagentPoolStopped (py : Interp) (clock : Nat → PyFloat) (j : ConversationJournal)
    (poolId : String) (result : PoolResult) (reason : String) : ConversationJournal :=
  match j.findLifecycle poolId with
  | none => j
  | some lifecycle =>
      if lifecycle.active then
        let (j, _) := recordUnfinishedSubagentWorkers py clock j lifecycle
          ("cancelled: stopped by pool budget (" ++ reason ++ ")")
        (j.write (poolStoppedEntry (clock j.seq) poolId result reason) {}).1
      else j

def subagentPoolCancelled (py : Interp) (clock : Nat → PyFloat) (j : ConversationJournal)
    (poolId : String) (reason : String := "session closed") : ConversationJournal :=
  match j.findLifecycle poolId with
  | none => j
  | some lifecycle =>
      if lifecycle.active then
        let (j, a) := recordUnfinishedSubagentWorkers py clock j lifecycle ("cancelled: " ++ reason)
        (j.write (poolCancelledEntry (clock j.seq) poolId reason a) {}).1
      else j

/-- One round of `recover_interrupted_subagent_pools`. -/
def recoverPool (py : Interp) (clock : Nat → PyFloat) (r : ConversationJournal × List String)
    (lifecycle : Lifecycle) : ConversationJournal × List String :=
  if lifecycle.active then
    match lifecycle.field "pool_id" with
    | .str poolId =>
        if poolId = "" then r
        else
          let (j, a) := recordUnfinishedSubagentWorkers py clock r.1 lifecycle
            "interrupted by process restart"
          ((j.write (poolInterruptedEntry (clock j.seq) poolId a) {}).1, r.2 ++ [poolId])
    | _ => r
  else r

/-- `recover_interrupted_subagent_pools`: the journal and the recovered
pools. -/
def recoverInterruptedSubagentPools (py : Interp) (clock : Nat → PyFloat)
    (j : ConversationJournal) : ConversationJournal × List String :=
  j.foldSubagentPoolLifecycle.foldl (recoverPool py clock) (j, [])

/-- The calls on the pools of a journal. -/
inductive PoolOp where
  | started (poolId fingerprint parentRunId : String) (tasks : List (List (String × String)))
  | backgrounded (poolId : String) (toolResult : List (String × Json))
  /-- `retry` marks the finish of an explicit `retry_worker` attempt. -/
  | finished (poolId : String) (result : PoolResult) (retry : Bool)
  | stopped (poolId : String) (result : PoolResult) (reason : String)
  | cancelled (poolId reason : String)
  | recover
  /-- Any other record, worker results among them. -/
  | record (e : Entry) (unrelated : e.kind ∉ LIFECYCLE_KINDS)
  | writerBatch
  /-- The process restarts on the same file; what is still queued is gone. -/
  | restart

def poolStep (py : Interp) (clock : Nat → PyFloat) (j : ConversationJournal) :
    PoolOp → ConversationJournal
  | .started poolId fingerprint parentRunId tasks =>
      subagentPoolStarted clock j poolId fingerprint parentRunId tasks
  | .backgrounded poolId toolResult => subagentPoolBackgrounded clock j poolId toolResult
  | .finished poolId result _ => subagentPoolFinished clock j poolId result
  | .stopped poolId result reason => subagentPoolStopped py clock j poolId result reason
  | .cancelled poolId reason => subagentPoolCancelled py clock j poolId reason
  | .recover => (recoverInterruptedSubagentPools py clock j).1
  | .record e _ => (j.write e {}).1
  | .writerBatch => (j.drain none).1
  | .restart => opened j.file

end ConversationJournal

/-! ## 5. Notifications -/

def notificationDeliveredEntry (now : PyFloat) (poolId messageId : String) : Entry where
  kind := "subagent_pool_notification_delivered"
  fields := poolHead now (strTake 128 poolId) ++ [("message_id", .str (strTake 160 messageId))]
  own := by simp [poolHead]

namespace ConversationJournal

def subagentPoolNotificationDelivered (clock : Nat → PyFloat) (j : ConversationJournal) (poolId messageId : String) :
    ConversationJournal × Except PyError Unit :=
  j.write (notificationDeliveredEntry (clock j.seq) poolId messageId) {}

/-- The pool a record names. -/
def poolIdOf (record : Json) : Option String :=
  match record.get "pool_id" with
  | .str poolId => if poolId = "" then none else some poolId
  | _ => none

/-- `delivered_subagent_pool_notifications`. -/
def deliveredSubagentPoolNotifications (j : ConversationJournal) : List String :=
  (j.subagentKind "subagent_pool_notification_delivered").filterMap poolIdOf

def undelivered (delivered : List String) (value : Lifecycle) : Bool :=
  match value.field "pool_id" with
  | .str poolId => poolId ∉ delivered
  | _ => true

/-- `completed_background_subagent_pools`. -/
def completedBackgroundSubagentPools (j : ConversationJournal) : List Lifecycle :=
  let delivered := j.deliveredSubagentPoolNotifications
  j.foldSubagentPoolLifecycle.filter fun value =>
    undelivered delivered value && value.field "backgrounded" = .bool true &&
      ["completed", "stopped", "interrupted", "cancelled"].any fun status => value.field "status" = .str status

end ConversationJournal

end Agenthicc.Memory
