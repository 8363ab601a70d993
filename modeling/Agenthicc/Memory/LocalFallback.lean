/-
Agenthicc.Memory.LocalFallback — the local candidate of a compaction: whole
exchanges are dropped from the front, then generated tool output is excerpted.

Nothing here publishes; `localCompactionFallback` hands the candidate to
`Compactor.replaceState`. A float product of the source is the exact one, which
it is for every token count below 2 ^ 51.
-/
import Agenthicc.Memory.Compactor

namespace Agenthicc.Memory

open Python

/-! ## 1. Messages -/

/-- `_field(value, name, default)` on a decoded value. -/
def fieldOf (value : Json) (name : String) (dflt : Json) : Json := value.getD name dflt

def isSystem (message : Json) : Bool := fieldOf message "role" (.str "") = .str "system"

/-- `_is_conversational_user_message`. -/
def isConversationalUserMessage (message : Json) : Bool :=
  if fieldOf message "role" (.str "") ≠ .str "user" then false
  else
    match fieldOf message "content" (.str "") with
    | .arr content =>
        let blocks := content.filter fun block => fieldOf block "type" (.str "") ≠ .str "text"
        !(!blocks.isEmpty
          && blocks.all fun block => fieldOf block "type" (.str "") = .str "tool_result")
    | _ => true

/-- A string, or a text block with a string in it. -/
def isPlainPart (part : Json) : Bool :=
  match part with
  | .str _ => true
  | .obj _ =>
      part.get "type" = .str "text"
        && match part.get "text" with
          | .str _ => true
          | _ => false
  | _ => false

/-- The text of a plain part. -/
def partText (part : Json) : String :=
  match part with
  | .str text => text
  | part =>
      match part.getD "text" (.str "") with
      | .str text => text
      | _ => ""

/-- The texts one `tool_result` block holds. -/
def contentTextSegments (content : Json) : List String :=
  match content with
  | .str text => if text = "" then [] else [text]
  | .arr parts =>
      if parts.all isPlainPart then (parts.map partText).filter (· ≠ "") else []
  | _ => []

def isToolResult (block : Json) : Bool := block.isObj && block.get "type" = .str "tool_result"

/-- `_tool_result_text_segments`. -/
def toolResultTextSegments (message : Json) : List String :=
  if fieldOf message "role" (.str "") ≠ .str "user" then []
  else
    match fieldOf message "content" .null with
    | .arr blocks =>
        (blocks.filter isToolResult).flatMap fun block => contentTextSegments (block.get "content")
    | _ => []

/-- `_has_reducible_tool_output`. -/
def hasReducibleToolOutput (messages : List Json) : Bool :=
  messages.any fun message => !(toolResultTextSegments message).isEmpty

/-! ## 2. Excerpts -/

/-- `_excerpt_text`, for a length that is not negative. -/
def excerptText (text : String) (retained : Nat) : String :=
  if text.length ≤ retained then text
  else
    let head := text.toList.take ((retained + 1) / 2)
    let tail := text.toList.drop (text.length - retained / 2)
    let omitted := text.length - head.length - tail.length
    String.ofList head ++ "\n[… " ++ toString omitted ++ " characters omitted …]\n"
      ++ String.ofList tail

/-- `d[key] = value`. -/
def setField (key : String) (value : Json) : List (String × Json) → List (String × Json)
  | [] => [(key, value)]
  | (k, v) :: kvs => if k = key then (key, value) :: kvs else (k, v) :: setField key value kvs

/-- One part of a list content, with whether it changed. -/
def excerptPart (py : Interp) (part : Json) (retained : Nat) : Json × Bool :=
  match part with
  | .obj kvs =>
      let original := pyStr py (part.getD "text" (.str ""))
      let excerpt := excerptText original retained
      (.obj (setField "text" (.str excerpt) kvs), excerpt ≠ original)
  | .str text => (.str (excerptText text retained), excerptText text retained ≠ text)
  | part => (part, false)

/-- `_excerpt_tool_result_content`. -/
def excerptToolResultContent (py : Interp) (content : Json) (retained : Nat) : Json × Bool :=
  match content with
  | .str text => (.str (excerptText text retained), excerptText text retained ≠ text)
  | .arr parts =>
      if parts.all isPlainPart then
        let updated := parts.map fun part => excerptPart py part retained
        (.arr (updated.map Prod.fst), updated.any Prod.snd)
      else (content, false)
  | content => (content, false)

/-- One block of a message in `candidate_for`. -/
def excerptBlock (py : Interp) (retained : Nat) (block : Json) : Json × Bool :=
  match block with
  | .obj kvs =>
      if isToolResult block then
        let (clipped, wasChanged) := excerptToolResultContent py (block.get "content") retained
        if wasChanged then (.obj (setField "content" clipped kvs), true) else (block, false)
      else (block, false)
  | block => (block, false)

/-- One message of `candidate_for`. -/
def excerptMessage (py : Interp) (retained : Nat) (message : Json) : Json × Bool :=
  match message with
  | .obj kvs =>
      if message.getD "role" (.str "") ≠ .str "user" then (message, false)
      else
        match message.get "content" with
        | .arr blocks =>
            let updated := blocks.map (excerptBlock py retained)
            (.obj (setField "content" (.arr (updated.map Prod.fst)) kvs), updated.any Prod.snd)
        | _ => (message, false)
  | message => (message, false)

/-! ## 3. The candidate -/

namespace Compactor

/-- `_candidate_memory_tokens`. -/
def candidateMemoryTokens (c : Compactor) (messages : List Json) (summary : Json) :
    Except PyError Int := c.memoryTokens (messages, summary)

/-- `candidate_for` of `_reduce_tool_output_to_target`. -/
def candidateFor (c : Compactor) (messages : List Json) (priorSummary : Json) (retained : Nat) :
    Except PyError (List Json × Int × Bool) := do
  let updated := messages.map (excerptMessage c.py retained)
  let candidate := updated.map Prod.fst
  let tokens ← c.candidateMemoryTokens candidate priorSummary
  return (candidate, tokens, updated.any Prod.snd)

/-- Whether a candidate may be taken. -/
def fits (target before tokens : Int) (changed : Bool) : Bool :=
  changed && decide (tokens ≤ target) && decide (tokens < before)

/-- The loop of `_reduce_tool_output_to_target`: `rounds` are left of its 24. -/
def searchRetained (c : Compactor) (messages : List Json) (priorSummary : Json)
    (target before : Int) : (rounds : Nat) → (low high : Int) → Option (List Json × Int) →
    Except PyError (Option (List Json × Int))
  | 0, _, _, best => .ok best
  | rounds + 1, low, high, best =>
      if low > high then .ok best
      else do
        let retained := (low + high) / 2
        let (candidate, tokens, changed) ← c.candidateFor messages priorSummary retained.toNat
        if fits target before tokens changed then
          searchRetained c messages priorSummary target before rounds (retained + 1) high
            (some (candidate, tokens))
        else searchRetained c messages priorSummary target before rounds low (retained - 1) best

/-- `_reduce_tool_output_to_target`. -/
def reduceToolOutputToTarget (c : Compactor) (messages : List Json) (priorSummary : Json)
    (target before : Int) : Except PyError (Option (List Json × Int)) := do
  let maxSegmentChars :=
    ((messages.flatMap toolResultTextSegments).map String.length).foldl max 0
  if maxSegmentChars = 0 then return none
  else
    match ← c.searchRetained messages priorSummary target before 24 0 maxSegmentChars none with
    | some best => return some best
    | none =>
        let (candidate, tokens, changed) ← c.candidateFor messages priorSummary 0
        return if fits target before tokens changed then some (candidate, tokens) else none

end Compactor

/-- `_PreparedLocalFallback`. -/
structure PreparedLocalFallback where
  outcome : CompactionOutcome
  messages : Option (List Json) := none
  summary : Json := .null

/-- A fallback that found no candidate. -/
def blockedFallback (before : Int) (fallback : CompactionOutcome.FallbackResult)
    (reason : CompactionOutcome.RecoveryReason) (errorType : String := "") :
    PreparedLocalFallback where
  outcome := {
    status := .blocked_irreducible_context
    before_tokens := before
    after_tokens := before
    durable := false
    error_type := errorType
    fallback_result := fallback
    recovery_reason := some reason }

def compactedFallback (before after : Int) (fallback : CompactionOutcome.FallbackResult)
    (messages : List Json) (summary : Json) : PreparedLocalFallback where
  outcome := {
    status := .compacted_local_fallback
    before_tokens := before
    after_tokens := after
    durable := false
    fallback_result := fallback }
  messages := some messages
  summary := summary

/-- The indices of the messages that start an exchange. -/
def exchangeStarts (nonSystem : List Json) : List Nat :=
  (nonSystem.zipIdx.filter fun p => isConversationalUserMessage p.1).map Prod.snd

namespace Compactor

/-- The loop that drops exchanges from the front: the candidate it stops at,
its tokens, and whether anything was dropped. -/
def dropExchanges (c : Compactor) (system nonSystem : List Json) (priorSummary : Json)
    (target : Int) : List Nat → List Json → Int → Bool → Except PyError (List Json × Int × Bool)
  | [], candidate, tokens, pruned => .ok (candidate, tokens, pruned)
  | start :: starts, candidate, tokens, pruned =>
      if tokens > target then do
        let candidate := system ++ nonSystem.drop start
        let tokens ← c.candidateMemoryTokens candidate priorSummary
        dropExchanges c system nonSystem priorSummary target starts candidate tokens true
      else .ok (candidate, tokens, pruned)

/-- The `try` block of `_prepare_local_compaction_fallback`. -/
def localCandidate (c : Compactor) (original : Projection) (before target : Int) :
    Except PyError PreparedLocalFallback := do
  let nonSystem := original.1.filter fun message => !isSystem message
  match exchangeStarts nonSystem with
  | [] => return blockedFallback before .no_safe_boundary .no_protocol_safe_boundary
  | first :: starts =>
      let system := original.1.filter isSystem
      let candidate := system ++ nonSystem.drop first
      let tokens ← c.candidateMemoryTokens candidate original.2
      let (candidate, tokens, pruned) ←
        c.dropExchanges system nonSystem original.2 target starts candidate tokens false
      if tokens ≤ target ∧ tokens < before ∧ candidate ≠ [] then
        return compactedFallback before tokens .compacted_whole_exchanges candidate original.2
      else
        match ← c.reduceToolOutputToTarget candidate original.2 target before with
        | some (reduced, tokens) =>
            return compactedFallback before tokens .compacted_tool_output reduced original.2
        | none =>
            return blockedFallback before .irreducible_latest_exchange
              (if hasReducibleToolOutput candidate || pruned then .latest_exchange_too_large
                else .no_protocol_safe_boundary)

/-- `_prepare_local_compaction_fallback`. -/
def prepareLocalCompactionFallback (c : Compactor) (p : Projection)
    (targetTokens : Option Int := none) : Except PyError PreparedLocalFallback := do
  let before ← c.memoryTokens p
  if p.1 = [] then return blockedFallback before .no_safe_boundary .no_protocol_safe_boundary
  else
    let target := max 1 (targetTokens.getD (c.max_input_tokens * 3 / 4))
    match c.localCandidate p before target with
    | .ok prepared => return prepared
    | .error exc =>
        return blockedFallback before .no_safe_boundary .no_protocol_safe_boundary (errorType exc)

/-- `local_compaction_fallback`: the memory, and the outcome or what it
raises. -/
def localCompactionFallback (c : Compactor) (memory : LiveMemory) (disk : Disk) :
    LiveMemory × Except PyError CompactionOutcome :=
  let p := memory.projection
  match c.memoryTokens p, c.toolHistoryIssueCode p with
  | .error exc, _ => (memory, .error exc)
  | _, .error exc => (memory, .error exc)
  | .ok before, .ok sourceIssue =>
      if sourceIssue ≠ "" then
        (memory, .ok {
          status := .blocked_irreducible_context
          before_tokens := before
          after_tokens := before
          durable := false
          fallback_result := .no_safe_boundary
          recovery_reason := some .invalid_tool_history
          error_type := sourceIssue })
      else
        match c.prepareLocalCompactionFallback p with
        | .error exc => (memory, .error exc)
        | .ok prepared =>
            match prepared.messages with
            | none => (memory, .ok prepared.outcome)
            | some messages =>
                match c.replaceState memory (messages, prepared.summary) p disk with
                | (memory, .ok ()) =>
                    (memory, do
                      let after ← c.memoryTokens memory.projection
                      return { prepared.outcome with after_tokens := after, durable := true })
                | (memory, .error .concurrentUpdate) =>
                    (memory, do
                      let after ← c.memoryTokens memory.projection
                      return { prepared.outcome with
                        status := .skipped_concurrent_update
                        after_tokens := after
                        durable := false
                        recovery_reason := some .concurrent_update })
                | (memory, .error (.invalidCandidate code)) =>
                    (memory, .ok { prepared.outcome with
                      status := .blocked_irreducible_context
                      after_tokens := prepared.outcome.before_tokens
                      durable := false
                      error_type := code
                      fallback_result := .no_safe_boundary
                      recovery_reason := some .invalid_tool_history_candidate })
                | (memory, .error (.other exc)) =>
                    (memory, .ok { prepared.outcome with
                      status := .blocked_durability_error
                      after_tokens := prepared.outcome.before_tokens
                      durable := false
                      error_type := errorType exc
                      fallback_result := .durability_error
                      recovery_reason := some .compaction_commit_failed })

end Compactor

end Agenthicc.Memory
