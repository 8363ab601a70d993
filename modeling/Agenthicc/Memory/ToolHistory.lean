/-
Agenthicc.Memory.ToolHistory — `repair_non_adjacent_tool_history`: late tool
results are moved behind the calls they answer.

A result is met in three shapes: a message of type `tool_result`, a message of
role `tool`, and a block in the content list of any other message. The
validator belongs to the base class: `ToolHistoryMemory` lists what is used of
it, next to the base class of the journaled memory.
-/
import Agenthicc.Memory.Journaled
import Agenthicc.Python.Dict
import Mathlib.Data.List.Sort

namespace Agenthicc.Memory

open Python

/-! ## 1. The results of a message -/

/-- `a or b`. -/
def pyOr (py : Interp) (a b : Json) : Json := if pyTruth py a then a else b

/-- `_result_id`. -/
def resultId (py : Interp) (block : Json) : String :=
  match pyOr py (pyOr py (block.get "tool_use_id") (block.get "tool_call_id")) (block.get "id") with
  | .str value => value
  | _ => ""

/-- The block a message of role `tool` stands for. -/
def toolMessageBlock (py : Interp) (message : Json) : Json :=
  .obj ([("type", .str "tool_result"),
      ("tool_use_id", pyOr py (pyOr py (message.get "tool_call_id") (message.get "tool_use_id"))
        (.str "")),
      ("content", message.getD "content" (.str ""))]
    ++ match message.get? "is_error" with
      | some flag => [("is_error", flag)]
      | none => [])

/-- `cleaned = dict(message); cleaned["content"] = content`. -/
def withContent (content : List Json) : Json → Json
  | .obj kvs => .obj (kvs.map fun kv => if kv.1 = "content" then (kv.1, .arr content) else kv)
  | message => message

def isResultBlock (block : Json) : Bool :=
  block.isObj && block.get "type" = .str "tool_result"

/-- `_matching_result_blocks`. -/
def matchingResultBlocks (py : Interp) (message : Json) (wanted : List String) :
    List Json × Option Json × Bool :=
  if !message.isObj then ([], some message, false)
  else if message.get "type" = .str "tool_result" then
    if resultId py message ∈ wanted then ([message], none, true) else ([], some message, false)
  else if message.get "role" = .str "tool" then
    let block := toolMessageBlock py message
    if resultId py block ∈ wanted then ([block], none, true) else ([], some message, false)
  else
    match message.get "content" with
    | .arr content =>
        let hit (block : Json) : Bool := isResultBlock block && resultId py block ∈ wanted
        let remaining := content.filter fun block => !hit block
        if content.filter hit = [] then ([], some message, false)
        else
          (content.filter hit,
            if remaining = [] then none else some (withContent remaining message), true)
    | _ => ([], some message, false)

/-! ## 2. One batch -/

/-- `found`: the results by their ids. -/
abbrev Found := Dict String Json

/-- The matches of one message join the others; `none` is a duplicate. -/
def addMatches (py : Interp) : Found → List Json → Option Found
  | found, [] => some found
  | found, block :: rest =>
      let id := resultId py block
      if id = "" then addMatches py found rest
      else if (found.get? id).isSome then none
      else addMatches py (found.set id block) rest

/-- The messages behind the calls, the last one first: what they hold of the
wanted results, and what is left of them. The message right behind the calls is
cleaned like the others here; the source keeps it until the results are built,
which read nothing of it. -/
def scan (py : Interp) (wanted : List String) : List Json → Option (Found × List Json)
  | [] => some (Dict.empty, [])
  | message :: later => do
      let (found, kept) ← scan py wanted later
      let (blocks, cleaned, removed) := matchingResultBlocks py message wanted
      if !removed then return (found, message :: kept)
      else
        let found ← addMatches py found blocks
        return (found, cleaned.toList ++ kept)

/-- The result that says that there is none. -/
def interruptedResult (id : String) : Json :=
  .obj [("type", .str "tool_result"), ("tool_use_id", .str id),
    ("content",
      .str "[Tool execution was interrupted before an adjacent result was available.]"),
    ("is_error", .bool true)]

/-- Whether a missing result may be replaced. -/
def allowedMissing (sha256 : String → String) (allowed : Option (List String)) (id : String) :
    Bool :=
  match allowed with
  | none => true
  | some hashes => hashes.contains (strTake 12 (sha256 id))

/-- The results in call order. -/
def resultBlocks (sha256 : String → String) (allowed : Option (List String)) (found : Found)
    (expectedIds : List String) : Option (List Json) :=
  expectedIds.mapM fun id =>
    match found.get? id with
    | some block => some block
    | none => if allowedMissing sha256 allowed id then some (interruptedResult id) else none

def resultMessage (blocks : List Json) : Json :=
  .obj [("role", .str "user"), ("content", .arr blocks)]

structure ToolHistoryIssue where
  code : String
  assistant_index : Option Int
  expected_ids : List String
  expected_count : Int := 0
  observed_count : Int := 0
  deriving DecidableEq

/-- One issue; `none` is `return False`, and the flag is `changed`. -/
def repairIssue (py : Interp) (sha256 : String → String) (allowed : Option (List String))
    (s : List Json × Bool) (issue : ToolHistoryIssue) : Option (List Json × Bool) :=
  match issue.assistant_index with
  | none => some s
  | some index =>
      if issue.expected_ids = [] ∨ index < 0 ∨ s.1.length ≤ index then some s
      else do
        let behind := index.toNat + 1
        let (found, kept) ← scan py issue.expected_ids (s.1.drop behind)
        let blocks ← resultBlocks sha256 allowed found issue.expected_ids
        return (s.1.take behind ++ resultMessage blocks :: kept, true)

/-! ## 3. The repair -/

structure ToolHistoryReport where
  ok : Bool
  issues : List ToolHistoryIssue
  first_issue : Option ToolHistoryIssue

def nonAdjacentIssues (report : ToolHistoryReport) : List ToolHistoryIssue :=
  report.issues.filter fun issue => issue.code = "non_adjacent_results"

/-- `int(assistant_index or -1)`: index 0 sorts like -1. -/
def ToolHistoryIssue.sortKey (issue : ToolHistoryIssue) : Int :=
  match issue.assistant_index with
  | none => -1
  | some index => if index = 0 then -1 else index

/-- `sorted(issues, key=…, reverse=True)`, which is stable. -/
def laterFirst (issues : List ToolHistoryIssue) : List ToolHistoryIssue :=
  issues.insertionSort fun a b => b.sortKey ≤ a.sortKey

/-- The candidate, and whether it differs; `none` is `return False`. -/
def repairIssues (py : Interp) (sha256 : String → String) (allowed : Option (List String))
    (messages : List Json) (issues : List ToolHistoryIssue) : Option (List Json × Bool) :=
  (laterFirst issues).foldlM (repairIssue py sha256 allowed) (messages, false)

/-- `_integrity_error`. -/
def integrityError (report : ToolHistoryReport) : PyError :=
  match report.first_issue with
  | none =>
      .raised "ToolHistoryRecoveryRequired"
        ("Conversation tool history is preserved but not provider-ready "
          ++ "(issues: validation_failed); run /history repair before resuming.")
  | some issue =>
      .raised "ToolConversationIntegrityError"
        ("Tool conversation repair candidate remains invalid (code=" ++ strTake 64 issue.code
          ++ ", expected=" ++ toString issue.expected_count ++ ", observed="
          ++ toString issue.observed_count ++ ")")

/-- A memory of the base class, or a journaled one. -/
inductive ToolMemory where
  | plain (messages : List Json) (summary : Json)
  | journaled (m : JournaledShortTermMemory)

namespace ToolMemory

def messages : ToolMemory → List Json
  | plain messages _ => messages
  | journaled m => m.messages

/-- The assignment to `_messages`. -/
def withMessages (messages : List Json) : ToolMemory → ToolMemory
  | plain _ summary => plain messages summary
  | journaled m => journaled { m with messages }

end ToolMemory

/-- The base class with its validator. -/
structure ToolHistoryMemory where
  py : Interp
  base : ShortTermMemory
  /-- `validate_tool_history()`. -/
  validate : ToolMemory → Except PyError ToolHistoryReport

/-- The writes of a commit that fail. -/
structure CommitFails where
  uuid : String := ""
  replace : JournaledShortTermMemory.ReplaceFails := {}
  receipt : Bool := false

namespace ToolHistoryMemory

/-- `memory.commit_repaired_tool_history(repaired, summary)`, or
`memory.restore({"messages": repaired, "summary": summary})`. -/
def publish (t : ToolHistoryMemory) (mem : ToolMemory) (repaired : List Json) (w : CommitFails) :
    ToolMemory × Except PyError Bool :=
  match mem with
  | .journaled m =>
      let (m, result) := m.commitRepairedToolHistory t.base w.uuid (repaired, m.summary) w.replace
        w.receipt
      (.journaled m, result.map fun _ => true)
  | .plain _ summary =>
      match t.base.restore (.obj [("messages", .arr repaired), ("summary", summary)]) with
      | .error exc => (mem, .error exc)
      | .ok ((messages, summary), _) => (.plain messages summary, .ok true)

/-- `repair_non_adjacent_tool_history`. -/
def repairNonAdjacentToolHistory (t : ToolHistoryMemory) (mem : ToolMemory) (commit : Bool)
    (allowed : Option (List String)) (w : CommitFails) : ToolMemory × Except PyError Bool :=
  match t.validate mem with
  | .error _ => (mem, .ok false)
  | .ok report =>
      match repairIssues t.py t.base.sha256 allowed mem.messages (nonAdjacentIssues report) with
      | none | some (_, false) => (mem, .ok false)
      | some (repaired, true) =>
          if !commit then (mem.withMessages repaired, .ok true)
          else
            match t.validate (mem.withMessages repaired) with
            | .error exc => (mem, .error exc)
            | .ok final =>
                if !final.ok then (mem, .error (integrityError final))
                else t.publish mem repaired w

end ToolHistoryMemory

end Agenthicc.Memory
