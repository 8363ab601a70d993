/-
Agenthicc.Memory.Summarizer — the transcript of a conversation and the calls
that summarise it.

`Summarising` is `_summarize_text` at one of its awaits: the call in flight,
the chunks behind it and the partial summaries so far. `reply` runs the code
from one answer of the provider to the next call, or to the result. What
`_completion_text_async` reads out of an answer is the `Reply`.
-/
import Agenthicc.Memory.Compactor

namespace Agenthicc.Memory

open Python

/-! ## 1. The transcript -/

/-- One block of a content list; the value may be no string. -/
def transcriptBlock (py : Interp) (block : Json) : Json :=
  if !block.isObj then .str (pyStr py block)
  else
    let btype := block.getD "type" (.str "")
    if btype = .str "text" then block.getD "text" (.str "")
    else if btype = .str "tool_use" then
      .str ("[tool_call:" ++ pyStr py (block.getD "name" (.str "")) ++ "("
        ++ String.ofList ((dumps (block.getD "input" (.obj []))).take 200) ++ ")]")
    else if btype = .str "tool_result" then
      let raw := pyStr py (block.getD "content" (.str ""))
      .str ("[tool_result:" ++ strTake 500 raw ++ (if raw.length > 500 then "…" else "") ++ "]")
    else .str (pyStr py block)

/-- `sep.join(values)`, which takes strings only. -/
def joinValues (sep : String) (values : List Json) : Except PyError String := do
  let parts ← values.zipIdx.mapM fun p =>
    match p.1 with
    | .str part => .ok part
    | v => .error (.typeError ("sequence item " ++ toString p.2 ++ ": expected str instance, "
        ++ v.typeName ++ " found"))
  return strJoin sep parts

def stripText (text : String) : String := String.ofList (strip text.toList)

/-- The line of one message, if it has one. -/
def transcriptLine (py : Interp) (message : Json) : Except PyError (Option String) := do
  let role := message.getD "role" (.str "")
  let content := message.getD "content" (.str "")
  -- the system prompt is injected again each turn
  if role = .str "system" then return none
  else
    let text ←
      match content with
      | .str text => .ok text
      | .arr blocks => joinValues " " ((blocks.map (transcriptBlock py)).filter (pyTruth py))
      | content => .ok (pyStr py content)
    if stripText text = "" then return none
    else
      match role with
      | .str role => return some (py.strUpper role ++ ": " ++ stripText text)
      | role => throw (.attributeError ("'" ++ role.typeName ++ "' object has no attribute 'upper'"))

/-- `_format_transcript`. -/
def formatTranscript (py : Interp) (messages : List Json) : Except PyError String := do
  let lines ← messages.mapM (transcriptLine py)
  return strJoin "\n\n" (lines.filterMap id)

/-- The text that is summarised, with the rolling summary in front. -/
def summaryInput (py : Interp) (p : Projection) : Except PyError String := do
  let transcript ← formatTranscript py p.1
  match p.2 with
  | .str summary =>
      return if stripText summary = "" then transcript
        else "Earlier summary:\n" ++ stripText summary ++ "\n\n" ++ transcript
  | _ => return transcript

/-! ## 2. Budgets -/

def SUMMARY_PROMPT_RESERVE_TOKENS : Int := 2000

def SUMMARY_INPUT_CHARS_PER_TOKEN : Int := 3

/-- `_summary_output_limit`. -/
def summaryOutputLimit (configured : Json) (retry : Bool) : Int :=
  let floor : Int := if retry then 2048 else 1024
  match configured.intValue? with
  | none => floor
  | some n => if n ≤ 0 then floor else min (max floor n) 4096

/-- The length of a chunk; 0 is no limit. -/
def Compactor.maxInputChars (c : Compactor) : Nat :=
  if c.max_input_tokens ≤ 0 then 0
  else
    let usable := c.max_input_tokens - summaryOutputLimit c.max_completion_tokens true
      - SUMMARY_PROMPT_RESERVE_TOKENS
    (max 2000 (usable * SUMMARY_INPUT_CHARS_PER_TOKEN)).toNat

/-! ## 3. The calls -/

structure SummaryResult where
  text : String
  result : CompactionOutcome.SummaryResult
  attempts : Nat
  error_type : String := ""

/-- The answer to a call: the final text and what an answer without text is,
or the exception of the transport. -/
inductive Reply where
  | completed (text : String) (kind : CompactionOutcome.SummaryResult)
  | failed (exc : PyError)

structure Summarising where
  /-- The text of the call in flight. -/
  chunk : String
  /-- It is the second call for this text. -/
  retry : Bool := false
  rest : List String := []
  partials : List String := []
  /-- Its result is the result of all. -/
  last : Bool := false
  /-- The calls that were made, this one included. -/
  attempts : Nat

/-- The prompt of a call. -/
def Summarising.prompt (s : Summarising) : String :=
  let prompt := "Summarise the following conversation portion concisely and factually. "
    ++ "Preserve decisions, constraints, paths, and unfinished work.\n\n" ++ s.chunk
  if s.retry then
    "The previous summarisation response contained no final text. "
      ++ "Return a non-empty summary in the final response now. Do not emit "
      ++ "reasoning only, do not call tools, and output only the concise "
      ++ "conversation summary.\n\n" ++ prompt
  else prompt

/-- The result of one call. -/
def Reply.result (attempts : Nat) : Reply → SummaryResult
  | .completed text kind =>
      { text, result := if text = "" then kind else .summarized, attempts }
  | .failed exc =>
      { text := "", result := .transport_error, attempts, error_type := errorType exc }

/-- `text[i : i + n]` for `i` in steps of `n`. -/
def pieces (n : Nat) (text : List Char) : List String :=
  (List.range ((text.length + n - 1) / n)).map fun i =>
    String.ofList ((text.drop (i * n)).take n)

namespace Summarising

/-- The first call for a text, which is cut into chunks where it is too long. -/
def start (maxInputChars : Nat) (text : String) (attempts : Nat := 0) : Summarising :=
  if 0 < maxInputChars ∧ maxInputChars < text.length then
    { chunk := strTake maxInputChars text
      rest := pieces maxInputChars (text.toList.drop maxInputChars)
      attempts := attempts + 1 }
  else { chunk := text, attempts := attempts + 1 }

/-- The next call, or the result. -/
abbrev Next := Summarising ⊕ SummaryResult

/-- The reduce loop, once every chunk has its partial summary: `text` is the
last of them. -/
def reduce (maxInputChars : Nat) (partials : List String) (text : String) (attempts : Nat) : Next :=
  if partials = [] then .inr { text, result := .summarized, attempts }
  else
    let reduced := strJoin "\n\n" (partials ++ [text])
    let next := start maxInputChars reduced attempts
    .inl { next with last := maxInputChars = 0 || reduced.length ≤ maxInputChars }

/-- From one answer to the next call or the result. -/
def reply (maxInputChars : Nat) (s : Summarising) (r : Reply) : Next :=
  let result := r.result s.attempts
  if s.retry = false ∧ result.text = "" ∧ result.result ≠ .transport_error then
    .inl { s with retry := true, attempts := s.attempts + 1 }
  else if s.last || result.text = "" then .inr result
  else
    match s.rest with
    | chunk :: rest =>
        .inl { chunk, rest, partials := s.partials ++ [result.text], attempts := s.attempts + 1 }
    | [] => reduce maxInputChars s.partials result.text s.attempts

/-- `_summarize_text` fed with answers. -/
def feed (maxInputChars : Nat) (next : Next) (r : Reply) : Next :=
  match next with
  | .inl s => s.reply maxInputChars r
  | .inr result => .inr result

/-- After `n` answers of the provider. -/
def after (maxInputChars : Nat) (answers : Nat → String) (next : Next) : Nat → Next
  | 0 => next
  | n + 1 =>
      feed maxInputChars (after maxInputChars answers next n) (.completed (answers n) .summarized)

end Summarising

end Agenthicc.Memory
