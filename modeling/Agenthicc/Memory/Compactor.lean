/-
Agenthicc.Memory.Compactor — the outcome of a compaction, the memory it works
on, and the commit both kinds of compaction end in.

`_replace_state` is a compare-and-swap: it validates the candidate, compares
the live conversation with the snapshot the candidate was made from, and
publishes, without an `await` in between. What the base class of the memory
computes is the `Compactor`; both of its functions depend on the conversation
they are given and may raise.
-/
import Agenthicc.Memory.Journaled

namespace Agenthicc.Memory

open Python

/-! ## 1. Outcomes -/

namespace CompactionOutcome

inductive Status where
  | compacted_summary
  | compacted_local_fallback
  | skipped_summary_unavailable
  | skipped_concurrent_update
  | blocked_durability_error
  | blocked_irreducible_context
  deriving DecidableEq

inductive SummaryResult where
  | summarized
  | empty_final
  | reasoning_only
  | tool_call_only
  | unrecognized_content
  | transport_error
  | cancelled
  | not_attempted
  deriving DecidableEq

inductive FallbackResult where
  | not_needed
  | compacted_whole_exchanges
  | compacted_tool_output
  | irreducible_latest_exchange
  | no_safe_boundary
  | durability_error
  deriving DecidableEq

/-- No reason is the empty string. -/
inductive RecoveryReason where
  | latest_exchange_too_large
  | current_input_exceeds_budget
  | no_protocol_safe_boundary
  | summary_not_reducing_context
  | invalid_tool_history
  | invalid_tool_history_candidate
  | compaction_commit_failed
  | exact_count_over_budget
  | concurrent_update
  deriving DecidableEq

end CompactionOutcome

structure CompactionOutcome where
  status : CompactionOutcome.Status
  before_tokens : Int
  after_tokens : Int
  durable : Bool
  error_type : String := ""
  summary_result : CompactionOutcome.SummaryResult := .not_attempted
  summary_attempts : Nat := 0
  summary_error_type : String := ""
  fallback_result : CompactionOutcome.FallbackResult := .not_needed
  recovery_reason : Option CompactionOutcome.RecoveryReason := none
  deriving DecidableEq

def CompactionOutcome.applied (o : CompactionOutcome) : Bool :=
  o.status = .compacted_summary || o.status = .compacted_local_fallback

/-- `type(exc).__name__[:96]`. -/
def errorType (exc : PyError) : String := strTake 96 exc.className

/-! ## 2. The memory -/

/-- What the base class computes, and the settings of one compaction. -/
structure Compactor where
  py : Interp
  /-- `token_estimate` of a memory that holds these messages. -/
  tokenEstimate : List Json → Except PyError Json
  /-- `validate_tool_history()` of a memory with this projection and this
  capacity: the code of its first issue, if there is one. -/
  firstIssue : Projection → Int → Except PyError (Option String)
  /-- The attribute `max_tokens` of the memory. -/
  maxTokens : Json := .int 40000
  max_input_tokens : Int
  max_completion_tokens : Json := .null

/-- The shapes `_replace_state` tells apart: a memory with the transaction
`replace_state`, one that only knows `journal_reset`, and any other. -/
inductive LiveMemory where
  | journaled (m : JournaledShortTermMemory)
  | journalReset (p : Projection)
  | plain (p : Projection)

namespace LiveMemory

/-- `_messages`, and `_memory_summary(memory)`. -/
def projection : LiveMemory → Projection
  | .journaled m => (m.messages, m.summary)
  | .journalReset p => p
  | .plain p => p

/-- What the live conversation does to its memory. -/
inductive Op where
  | journaled (op : JournaledShortTermMemory.Op)
  /-- Messages were appended, restored or replaced. -/
  | assign (p : Projection)

def perform (base : ShortTermMemory) : LiveMemory → Op → LiveMemory
  | .journaled m, .journaled op => .journaled (m.step base op)
  | .journalReset _, .assign p => .journalReset p
  | .plain _, .assign p => .plain p
  | memory, _ => memory

end LiveMemory

namespace Compactor

/-- `_memory_max_tokens`. -/
def memoryMaxTokens (c : Compactor) : Int :=
  match c.maxTokens with
  | .int n => max 1 n
  | _ => 40000

/-- `_memory_tokens` of a memory with this projection. -/
def memoryTokens (c : Compactor) (p : Projection) : Except PyError Int := do
  let value ← c.tokenEstimate p.1
  let estimate :=
    match value.intValue? with
    | some n => max 0 n
    | none => 0
  match p.2 with
  | .str summary =>
      return if summary = "" then estimate else estimate + max 1 ((summary.length + 2) / 3 : Nat)
  | _ => return estimate

/-- `_tool_history_issue_code`; no issue is the empty string. -/
def toolHistoryIssueCode (c : Compactor) (p : Projection) : Except PyError String := do
  match ← c.firstIssue p (max 1 c.memoryMaxTokens) with
  | none => return ""
  | some code => return strTake 64 code

/-- What `_replace_state` raises. -/
inductive ReplaceError where
  | concurrentUpdate
  | invalidCandidate (issueCode : String)
  | other (exc : PyError)

/-- `_InvalidCompactionCandidate.issue_code`. -/
def issueCode (code : String) : String :=
  if strTake 64 code = "" then "validation_failed" else strTake 64 code

/-- `list(current) == list(expected) and current_summary == expected_summary`. -/
def sameConversation (c : Compactor) (current expected : Projection) : Bool :=
  pyEq c.py (.arr current.1) (.arr expected.1) && pyEq c.py current.2 expected.2

/-- The inputs of a commit that no code decides: the fresh transaction ID and
what the disk does. -/
structure Disk where
  uuid : String := ""
  fails : JournaledShortTermMemory.ReplaceFails := {}

/-- `_replace_state` behind its comparison. -/
def publish (memory : LiveMemory) (p : Projection) (disk : Disk) :
    LiveMemory × Except ReplaceError Unit :=
  match memory with
  | .journaled m =>
      match m.replaceState disk.uuid p disk.fails with
      | (m, .ok ()) => (.journaled m, .ok ())
      | (m, .error exc) => (.journaled m, .error (.other exc))
  | .journalReset q =>
      (.journalReset q, .error (.other (.raised "RuntimeError"
        "journaled memory does not implement transactional replace_state")))
  | .plain _ => (.plain p, .ok ())

/-- `_replace_state`. -/
def replaceState (c : Compactor) (memory : LiveMemory) (p expected : Projection) (disk : Disk) :
    LiveMemory × Except ReplaceError Unit :=
  match c.firstIssue p c.memoryMaxTokens with
  | .error exc => (memory, .error (.other exc))
  | .ok (some code) => (memory, .error (.invalidCandidate (issueCode code)))
  | .ok none =>
      if c.sameConversation memory.projection expected then publish memory p disk
      else (memory, .error .concurrentUpdate)

end Compactor

end Agenthicc.Memory
