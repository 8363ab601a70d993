/-
Agenthicc.Memory.Compaction — `compact_memory_with_result` on the event loop.

A `Compaction` is the memory and the place the coroutine is at. Between two
awaits it runs alone; while it waits, the live conversation may do anything to
the memory (`Event.live`). The spinner, the status events and the usage ledger
are left out: an exception of the ledger is `Event.escaped`.
-/
import Agenthicc.Memory.LocalFallback
import Agenthicc.Memory.Summarizer

namespace Agenthicc.Memory

open Python

/-- `_ACK`. -/
def SUMMARY_ACK : String := "Understood. Continuing from the summary."

def textMessage (role content : String) : Json :=
  .obj [("role", .str role), ("content", .str content)]

/-- The two messages a summary becomes. -/
def summaryCandidate (summary : String) : List Json :=
  [textMessage "user" ("[COMPACT SUMMARY]\n" ++ summary), textMessage "assistant" SUMMARY_ACK]

inductive Phase where
  /-- At `asyncio.sleep(0)`. -/
  | sleeping (before : Int)
  /-- At a call of the summariser, with the snapshot its text was made from. -/
  | summarising (before : Int) (snapshot : Projection) (hadTranscript : Bool) (s : Summarising)
  | returned (outcome : CompactionOutcome)
  | raised (exc : PyError)
  | cancelled

structure Compaction where
  memory : LiveMemory
  phase : Phase

inductive Event where
  | live (op : LiveMemory.Op)
  /-- The sleep is over. -/
  | wake
  /-- The call in flight is answered. -/
  | reply (r : Reply) (disk : Compactor.Disk)
  /-- An exception leaves `_summarize_text`. -/
  | escaped (exc : PyError)
  /-- The task is cancelled at its await. -/
  | cancel

/-- The outcome of the last `except`. -/
def summaryFailed (before : Int) (exc : PyError) : CompactionOutcome where
  status := .skipped_summary_unavailable
  before_tokens := before
  after_tokens := before
  durable := false
  error_type := errorType exc
  summary_result := .transport_error
  summary_error_type := errorType exc

/-- The outcome without a summary. -/
def summaryMissing (before : Int) (hadTranscript : Bool) (r : SummaryResult) :
    CompactionOutcome where
  status := if hadTranscript then .skipped_summary_unavailable else .blocked_irreducible_context
  before_tokens := before
  after_tokens := before
  durable := false
  error_type := r.error_type
  summary_result := if hadTranscript then r.result else .not_attempted
  summary_attempts := if hadTranscript then r.attempts else 0
  summary_error_type := if hadTranscript then r.error_type else ""
  fallback_result := if hadTranscript then .not_needed else .no_safe_boundary
  recovery_reason := if hadTranscript then none else some .no_protocol_safe_boundary

namespace Compaction

variable (c : Compactor)

/-- Everything behind the summary, up to the `return`. -/
def commit (memory : LiveMemory) (before : Int) (snapshot : Projection) (hadTranscript : Bool)
    (r : SummaryResult) (disk : Compactor.Disk) :
    LiveMemory × Except PyError CompactionOutcome :=
  if r.text = "" then (memory, .ok (summaryMissing before hadTranscript r))
  else
    let candidate := summaryCandidate r.text
    match c.memoryTokens (candidate, .null) with
    | .error exc => (memory, .error exc)
    | .ok candidateTokens =>
        if candidateTokens ≥ before then
          (memory, .ok {
            status := .blocked_irreducible_context
            before_tokens := before
            after_tokens := before
            durable := false
            summary_result := .summarized
            summary_attempts := r.attempts
            fallback_result := .irreducible_latest_exchange
            recovery_reason := some .summary_not_reducing_context })
        else
          match c.replaceState memory (candidate, .null) snapshot disk with
          | (memory, .ok ()) =>
              (memory, do
                let after ← c.memoryTokens memory.projection
                return {
                  status := .compacted_summary
                  before_tokens := before
                  after_tokens := after
                  durable := true
                  summary_result := .summarized
                  summary_attempts := r.attempts })
          | (memory, .error .concurrentUpdate) =>
              (memory, do
                let after ← c.memoryTokens memory.projection
                return {
                  status := .skipped_concurrent_update
                  before_tokens := before
                  after_tokens := after
                  durable := false
                  summary_result := .summarized
                  summary_attempts := r.attempts
                  recovery_reason := some .concurrent_update })
          | (memory, .error (.invalidCandidate code)) =>
              (memory, .ok {
                status := .blocked_irreducible_context
                before_tokens := before
                after_tokens := before
                durable := false
                fallback_result := .no_safe_boundary
                recovery_reason := some .invalid_tool_history_candidate
                error_type := code })
          | (memory, .error (.other exc)) =>
              (memory, .ok {
                status := .blocked_durability_error
                before_tokens := before
                after_tokens := before
                durable := false
                error_type := errorType exc
                summary_result := .summarized
                summary_attempts := r.attempts
                summary_error_type := r.error_type
                fallback_result := .durability_error
                recovery_reason := some .compaction_commit_failed })

/-- The `try` block ended: an exception becomes an outcome. -/
def ended (before : Int) (result : LiveMemory × Except PyError CompactionOutcome) : Compaction :=
  match result with
  | (memory, .ok outcome) => ⟨memory, .returned outcome⟩
  | (memory, .error exc) => ⟨memory, .returned (summaryFailed before exc)⟩

/-- `compact_memory_with_result` up to its first await. -/
def start (memory : LiveMemory) : Compaction :=
  match c.memoryTokens memory.projection, c.toolHistoryIssueCode memory.projection with
  | .error exc, _ => ⟨memory, .raised exc⟩
  | _, .error exc => ⟨memory, .raised exc⟩
  | .ok before, .ok sourceIssue =>
      if sourceIssue = "" then ⟨memory, .sleeping before⟩
      else ⟨memory, .returned {
        status := .blocked_irreducible_context
        before_tokens := before
        after_tokens := before
        durable := false
        fallback_result := .no_safe_boundary
        recovery_reason := some .invalid_tool_history
        error_type := sourceIssue }⟩

/-- The snapshot is taken and the first call is made. -/
def wakeUp (memory : LiveMemory) (before : Int) : Compaction :=
  let snapshot := memory.projection
  match summaryInput c.py snapshot with
  | .error exc => ended before (memory, .error exc)
  | .ok transcript =>
      ⟨memory, .summarising before snapshot (stripText transcript ≠ "")
        (Summarising.start c.maxInputChars transcript)⟩

def step (base : ShortTermMemory) (s : Compaction) : Event → Compaction
  | .live op => { s with memory := s.memory.perform base op }
  | .wake =>
      match s.phase with
      | .sleeping before => wakeUp c s.memory before
      | _ => s
  | .reply r disk =>
      match s.phase with
      | .summarising before snapshot hadTranscript calls =>
          match calls.reply c.maxInputChars r with
          | .inl calls => { s with phase := .summarising before snapshot hadTranscript calls }
          | .inr result => ended before (commit c s.memory before snapshot hadTranscript result disk)
      | _ => s
  | .escaped exc =>
      match s.phase with
      | .summarising before _ _ _ => ended before (s.memory, .error exc)
      | _ => s
  | .cancel =>
      match s.phase with
      | .sleeping _ | .summarising _ _ _ _ => { s with phase := .cancelled }
      | _ => s

/-- A run from the call of `compact_memory_with_result`. -/
def run (base : ShortTermMemory) (memory : LiveMemory) (events : List Event) : Compaction :=
  events.foldl (step c base) (start c memory)

/-- The coroutine has not come to its end. -/
def running (s : Compaction) : Bool :=
  match s.phase with
  | .sleeping _ | .summarising _ _ _ _ => true
  | _ => false

end Compaction

end Agenthicc.Memory
