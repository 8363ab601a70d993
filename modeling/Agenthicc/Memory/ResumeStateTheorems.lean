/-
Agenthicc.Memory.ResumeStateTheorems — when `fold_resume_state` selects the
interrupted turn.

The specification reads the calls from the right: a start is open when no
terminal marker for its turn follows (`interruptedTurn`). The fold keeps
tables without order, so `foldlM_calls` says what they hold after any calls:
the starts in order, the IDs of all terminal markers, the tools of each turn,
and the last step of each shortened ID. `recoversExactly_iff` compares the
two.
-/
import Agenthicc.Memory.ResumeState

namespace Agenthicc.Memory

open Python

/-! ## 1. What the calls say -/

/-- A call of `turn_started`. -/
structure Start where
  turnId : String
  userMessage : String
  baseCount : Int

namespace TurnCall

def start? : TurnCall → Option Start
  | .turnStarted turnId userMessage baseCount _ _ _ => some ⟨turnId, userMessage, baseCount⟩
  | _ => none

/-- The turn a terminal marker closes. -/
def terminal? : TurnCall → Option String
  | .turnCompleted turnId => some turnId
  | .turnAborted turnId _ => some turnId
  | .turnFailed turnId _ _ _ _ => some turnId
  | .turnRecovered turnId => some turnId
  | _ => none

/-- The tool record of the turn, if the call writes one. -/
def toolOf (id : String) : TurnCall → List (Json × Json)
  | .toolRecorded turnId key result => if turnId = id then [(.str key, result)] else []
  | _ => []

/-- The step the call commits, under the IDs that are asked for. -/
def stepOf (own : String → Bool) (seq : Nat) : TurnCall → Option (String × Option Int)
  | .stepCommitted turnId stepId _ cursor _ =>
      if own turnId then some (strTake 160 stepId, some (cursor.getD seq)) else none
  | _ => none

end TurnCall

def starts (cs : List TurnCall) : List Start := cs.filterMap TurnCall.start?

/-- The IDs of all terminal markers. -/
def terminals (cs : List TurnCall) : List String := cs.filterMap TurnCall.terminal?

/-- The tool records of a turn, in order. -/
def toolsOf (id : String) (cs : List TurnCall) : List (Json × Json) := cs.flatMap (·.toolOf id)

/-- The last step committed under the IDs that are asked for, with the cursor
recorded for it. -/
def lastStep (own : String → Bool) : Nat → List TurnCall → Option (String × Option Int)
  | _, [] => none
  | seq, c :: cs => (lastStep own (seq + 1) cs).or (c.stepOf own seq)

/-- The most recent start without a later terminal marker of its turn, with
the calls behind it. -/
def interruptedTurn : List TurnCall → Option (Start × List TurnCall)
  | [] => none
  | c :: cs =>
      match interruptedTurn cs with
      | some r => some r
      | none =>
          match c.start? with
          | none => none
          | some s => if s.turnId ∈ terminals cs then none else some (s, cs)

/-- The start as its record has it. -/
def Start.row (s : Start) : StartedTurn where
  turn_id := .str (strTake 128 s.turnId)
  user_message := .str s.userMessage
  base_count := max 0 s.baseCount

/-! ## 2. What the fold holds after the calls -/

namespace ResumeFold

section Entries

attribute [local simp] entry TurnCall.entry Entry.record

theorem entry_turnStarted (py : Interp) (f : ResumeFold) (seq : Nat)
    (turnId userMessage : String) (baseCount : Int) (conversationId : String)
    (baseCursor : Option Int) (workflowRunId : Option String) :
    let c := TurnCall.turnStarted turnId userMessage baseCount conversationId baseCursor
      workflowRunId
    let tid := Json.str (strTake 128 turnId)
    f.entry py ((c.entry seq).record seq) = .ok { f with
      started := f.started ++ [⟨tid, .str userMessage, max 0 baseCount⟩]
      workflow_runs := f.startRun tid ((c.entry seq).record seq)
      execution_kinds := f.startKind tid ((c.entry seq).record seq)
      records := f.records.setdefault tid [] } := by
  by_cases h : workflowRunId.getD "" = "" <;>
    simp [start, pyItem, Json.getD, Json.get?, Json.lookup,
      atLeastZero, h, bind, Except.bind, pure, Except.pure]

theorem entry_terminal (py : Interp) (f : ResumeFold) (seq : Nat) (c : TurnCall) {turnId : String}
    (h : c.terminal? = some turnId) : f.entry py ((c.entry seq).record seq)
      = .ok { f with completed := f.completed ++ [.str turnId] } := by
  cases c with
  | turnCompleted | turnAborted | turnFailed | turnRecovered =>
    simp only [TurnCall.terminal?, Option.some.injEq] at h
    simp [pyItem, Json.lookup, pyKey, h, bind, Except.bind,
      pure, Except.pure]
  | _ => cases h

theorem entry_toolRecorded (py : Interp) (f : ResumeFold) (seq : Nat) (turnId key : String)
    (result : Json) :
    f.entry py (((TurnCall.toolRecorded turnId key result).entry seq).record seq)
      = .ok { f with
        records := f.records.set (.str turnId)
          ((f.records.get? (.str turnId)).getD [] ++ [(.str key, result)]) } := by
  simp [pyItem, Json.get, Json.getD, Json.get?, Json.lookup,
    pyKey, bind, Except.bind, pure, Except.pure]

theorem entry_stepCommitted (py : Interp) (f : ResumeFold) (seq : Nat) (turnId stepId : String)
    (stepIndex : Int) (cursor : Option Int) (messageCount : Int) :
    f.entry py (((TurnCall.stepCommitted turnId stepId stepIndex cursor messageCount).entry
        seq).record seq)
      = .ok (if strTake 128 turnId = "" then f else { f with
        committed := f.committed.set (.str (strTake 128 turnId))
          (strTake 160 stepId, some (cursor.getD seq)) }) := by
  by_cases h : strTake 128 turnId = "" <;>
    simp [Json.get, Json.getD, Json.get?, Json.lookup, pyKey,
      cursorOr, cursorOf, h, bind, Except.bind, pure, Except.pure]

theorem entry_stepInterrupted (py : Interp) (f : ResumeFold) (seq : Nat)
    (turnId stepId attemptId errorKind : String) (partialChars : Int) (retryable : Bool) :
    ∃ interrupted, f.entry py (((TurnCall.stepInterrupted turnId stepId attemptId errorKind
        partialChars retryable).entry seq).record seq) = .ok { f with interrupted } := by
  refine ⟨if strTake 128 turnId = "" then f.interrupted
    else f.interrupted.set (.str (strTake 128 turnId))
      (strTake 160 stepId, strTake 160 attemptId), ?_⟩
  by_cases h : strTake 128 turnId = "" <;>
    simp [Json.getD, Json.get?, Json.lookup, pyKey, h, bind,
      Except.bind, pure, Except.pure]

theorem entry_unrelated (py : Interp) (f : ResumeFold) (seq : Nat) {e : Entry}
    (he : e.kind ∉ RESUME_KINDS) : f.entry py (e.record seq) = .ok f := by
  have hk : Json.lookup "kind" e.fields = none :=
    Entry.lookup_eq_none fun p hp => (e.own p hp).2
  simp only [RESUME_KINDS, List.mem_cons, List.not_mem_nil, or_false, not_or] at he
  simp [Json.lookup, hk, he, pyKey, bind, Except.bind, pure, Except.pure]

end Entries

/-- What the selection reads: the starts, the markers, the tools of each turn
and the last step of each recorded ID. -/
structure Holds (f g : ResumeFold) (sts : List Start) (ends : List String)
    (tools : String → List (Json × Json)) (steps : String → Option (String × Option Int)) :
    Prop where
  started : g.started = f.started ++ sts.map Start.row
  completed : g.completed = f.completed ++ ends.map .str
  records : ∀ id, (g.records.get? (.str id)).getD [] = (f.records.get? (.str id)).getD [] ++ tools id
  committed : ∀ id, g.committed.get? (.str id) = (steps id).or (f.committed.get? (.str id))

/-- Under a recorded ID stand the steps of every turn it is short for. -/
def shortens (id own : String) : Bool := strTake 128 own = id && id ≠ ""

theorem holds_refl (f : ResumeFold) : Holds f f [] [] (fun _ => []) (fun _ => none) :=
  ⟨by simp, by simp, by simp, by simp⟩

theorem Holds.trans {f g h : ResumeFold} {sts sts' : List Start} {ends ends' : List String}
    {tools tools' : String → List (Json × Json)}
    {steps steps' : String → Option (String × Option Int)} (hfg : Holds f g sts ends tools steps)
    (hgh : Holds g h sts' ends' tools' steps') :
    Holds f h (sts ++ sts') (ends ++ ends') (fun id => tools id ++ tools' id)
      (fun id => (steps' id).or (steps id)) := by
  refine ⟨?_, ?_, ?_, ?_⟩
  · rw [hgh.started, hfg.started, List.map_append, List.append_assoc]
  · rw [hgh.completed, hfg.completed, List.map_append, List.append_assoc]
  · intro id
    rw [hgh.records, hfg.records, List.append_assoc]
  · intro id
    rw [hgh.committed, hfg.committed, Option.or_assoc]

theorem str_injective {a b : String} : Json.str a = Json.str b ↔ a = b := by simp

/-- **One record** moves the tables by what its call says. -/
theorem entry_call (py : Interp) (f : ResumeFold) (seq : Nat) (c : TurnCall) :
    ∃ g, f.entry py ((c.entry seq).record seq) = .ok g
      ∧ Holds f g c.start?.toList c.terminal?.toList (fun id => c.toolOf id)
          (fun id => c.stepOf (shortens id) seq) := by
  cases hterm : c.terminal? with
  | some turnId =>
    refine ⟨_, entry_terminal py f seq c hterm, ?_⟩
    cases c with
    | turnCompleted | turnAborted | turnFailed | turnRecovered =>
      exact ⟨by simp [TurnCall.start?], by simp, by simp [TurnCall.toolOf],
        by simp [TurnCall.stepOf]⟩
    | _ => cases hterm
  | none =>
    cases c with
    | turnCompleted | turnAborted | turnFailed | turnRecovered => cases hterm
    | turnStarted turnId userMessage baseCount conversationId baseCursor workflowRunId =>
      refine ⟨_, entry_turnStarted py f seq _ _ _ _ _ _, ?_⟩
      refine ⟨by simp [TurnCall.start?, Start.row], by simp, ?_, by simp [TurnCall.stepOf]⟩
      intro id
      rw [Dict.getD_setdefault]
      simp [TurnCall.toolOf]
    | turnRecoveryStarted turnId =>
      exact ⟨f, entry_unrelated py f seq (e := (TurnCall.turnRecoveryStarted turnId).entry seq)
        (by show "turn_recovery_started" ∉ RESUME_KINDS; decide), holds_refl f⟩
    | stepStarted turnId stepId attemptId stepIndex baseCursor =>
      exact ⟨f, entry_unrelated py f seq
        (e := (TurnCall.stepStarted turnId stepId attemptId stepIndex baseCursor).entry seq)
        (by show "step_started" ∉ RESUME_KINDS; decide), holds_refl f⟩
    | stepCommitted turnId stepId stepIndex cursor messageCount =>
      refine ⟨_, entry_stepCommitted py f seq _ _ _ _ _, ?_⟩
      by_cases hempty : strTake 128 turnId = ""
      · rw [if_pos hempty]
        refine ⟨by simp [TurnCall.start?], by simp, by simp [TurnCall.toolOf], ?_⟩
        intro id
        have hno : shortens id turnId = false := by
          rw [shortens, hempty]
          by_cases hid : id = "" <;> simp [hid, eq_comm]
        simp [TurnCall.stepOf, hno]
      · rw [if_neg hempty]
        refine ⟨by simp [TurnCall.start?], by simp, by simp [TurnCall.toolOf], ?_⟩
        intro id
        simp only [Dict.get?_set, str_injective, TurnCall.stepOf, shortens]
        by_cases hid : strTake 128 turnId = id
        · subst hid
          simp [hempty]
        · simp [hid]
    | stepInterrupted turnId stepId attemptId errorKind partialChars retryable =>
      obtain ⟨interrupted, h⟩ := entry_stepInterrupted py f seq turnId stepId attemptId errorKind
        partialChars retryable
      exact ⟨_, h, by simp [TurnCall.start?], by simp, by simp [TurnCall.toolOf],
        by simp [TurnCall.stepOf]⟩
    | toolRecorded turnId key result =>
      refine ⟨_, entry_toolRecorded py f seq turnId key result, by simp [TurnCall.start?], by simp,
        ?_, by simp [TurnCall.stepOf]⟩
      intro id
      simp only [Dict.get?_set, str_injective, TurnCall.toolOf]
      by_cases hid : turnId = id
      · subst hid
        simp
      · simp [hid]
    | other e he => exact ⟨f, entry_unrelated py f seq he, holds_refl f⟩

end ResumeFold

/-- The records of consecutive calls. -/
def callRecords : Nat → List TurnCall → List Json
  | _, [] => []
  | seq, c :: cs => (c.entry seq).record seq :: callRecords (seq + 1) cs

theorem isRecord_of_mem_callRecords : ∀ {cs : List TurnCall} {seq : Nat} {v : Json},
    v ∈ callRecords seq cs → IsRecord v
  | c :: cs, seq, v, h => by
      rcases List.mem_cons.mp h with rfl | h
      · exact (c.entry seq).isRecord_record seq
      · exact isRecord_of_mem_callRecords h

theorem turnCalls_text : ∀ (cs : List TurnCall) (j : ConversationJournal), j.closed = false →
    (j.turnCalls cs).text = j.text ++ jsonLines (callRecords j.seq cs)
  | [], j, _ => by simp [ConversationJournal.turnCalls, callRecords]
  | c :: cs, j, hopen => by
      obtain ⟨htext, hseq, -, hclosed⟩ := ConversationJournal.write_ok j (c.entry j.seq) hopen
      have ih := turnCalls_text cs (j.write (c.entry j.seq) {}).1 hclosed
      rw [ConversationJournal.turnCalls] at ih ⊢
      rw [List.foldl_cons, ih, htext, hseq, callRecords, jsonLines_cons, List.append_assoc]

/-- **The tables after any calls.** -/
theorem foldlM_calls (py : Interp) : ∀ (cs : List TurnCall) (seq : Nat) (f : ResumeFold),
    ∃ g, (callRecords seq cs).foldlM (ResumeFold.entry py) f = .ok g
      ∧ ResumeFold.Holds f g (starts cs) (terminals cs) (fun id => toolsOf id cs)
          (fun id => lastStep (ResumeFold.shortens id) seq cs)
  | [], seq, f => ⟨f, rfl, ResumeFold.holds_refl f⟩
  | c :: cs, seq, f => by
      obtain ⟨g, hg, hfg⟩ := ResumeFold.entry_call py f seq c
      obtain ⟨h, hh, hgh⟩ := foldlM_calls py cs (seq + 1) g
      refine ⟨h, by rw [callRecords, List.foldlM_cons, hg]; exact hh, ?_⟩
      have ht := hfg.trans hgh
      have hs : starts (c :: cs) = c.start?.toList ++ starts cs := by
        cases hc : c.start? <;> simp [starts, hc]
      have he : terminals (c :: cs) = c.terminal?.toList ++ terminals cs := by
        cases hc : c.terminal? <;> simp [terminals, hc]
      rw [hs, he]
      exact ht

/-! ## 3. The selected turn -/

/-- The journal after the calls. -/
def journalAfter (cs : List TurnCall) : List Char :=
  ((ConversationJournal.opened []).turnCalls cs).text

/-- The fold returns the interrupted turn as it was started, with its tool
records and its last committed step, and nothing when there is none. -/
def RecoversExactly (py : Interp) (cs : List TurnCall) : Prop :=
  match interruptedTurn cs with
  | none => foldResumeState py (journalAfter cs) = .ok none
  | some (s, _) =>
      ∃ r, foldResumeState py (journalAfter cs) = .ok (some r)
        ∧ r.turn_id = .str s.turnId ∧ r.user_message = .str s.userMessage
        ∧ r.base_count = max 0 s.baseCount ∧ r.tool_records = toolsOf s.turnId cs
        ∧ (r.last_committed_step, r.last_committed_cursor)
          = (lastStep (fun own => own = s.turnId) 0 cs).getD ("", none)

/-- The last of the starts whose recorded ID no marker has. -/
def lastUnmarked (ends : List String) (sts : List Start) : Option Start :=
  sts.reverse.find? fun t => strTake 128 t.turnId ∉ ends

/-- Where the unordered markers and the shortened IDs do not mislead the
fold: every other start is marked under its recorded ID, and the interrupted
turn is never marked, recorded in full and not confused with another. -/
def MarkersAgree (cs : List TurnCall) : Prop :=
  match interruptedTurn cs with
  | none => ∀ t ∈ starts cs, strTake 128 t.turnId ∈ terminals cs
  | some (s, later) =>
      s.turnId.length ≤ 128 ∧ s.turnId ∉ terminals cs
        ∧ (∀ t, lastUnmarked (terminals cs) (starts later) = some t → t.row = s.row)
        ∧ (lastStep (ResumeFold.shortens s.turnId) 0 cs).getD ("", none)
          = (lastStep (fun own => own = s.turnId) 0 cs).getD ("", none)


theorem interruptedTurn_some : ∀ {cs : List TurnCall} {s : Start} {later : List TurnCall},
    interruptedTurn cs = some (s, later) → ∃ pre, starts cs = pre ++ s :: starts later
  | c :: cs, s, later, h => by
      rw [interruptedTurn] at h
      cases hcs : interruptedTurn cs with
      | some r =>
        rw [hcs] at h
        obtain rfl := Option.some.inj h
        obtain ⟨pre, hpre⟩ := interruptedTurn_some hcs
        refine ⟨c.start?.toList ++ pre, ?_⟩
        cases hc : c.start? <;> simp [starts, hc] <;> simpa [starts] using hpre
      | none =>
        rw [hcs] at h
        cases hc : c.start? with
        | none => rw [hc] at h; cases h
        | some t =>
          rw [hc] at h
          simp only at h
          split at h
          · cases h
          · obtain ⟨rfl, rfl⟩ := Prod.mk.inj (Option.some.inj h)
            exact ⟨[], by simp [starts, hc]⟩

/-- The fold selects the last start without a marker under its recorded ID. -/
theorem foldResumeState_calls (py : Interp) (cs : List TurnCall) :
    ∃ g : ResumeFold, foldResumeState py (journalAfter cs) = .ok (g.select py)
      ∧ (g.started.reverse.find? fun t => g.isOpen py t.turn_id)
        = (lastUnmarked (terminals cs) (starts cs)).map Start.row
      ∧ (∀ id, (g.records.get? (.str id)).getD [] = toolsOf id cs)
      ∧ ∀ id, g.committed.get? (.str id) = lastStep (ResumeFold.shortens id) 0 cs := by
  obtain ⟨g, hg, hholds⟩ := foldlM_calls py cs 0 {}
  refine ⟨g, ?_, ?_, ?_, ?_⟩
  · have htext : journalAfter cs = jsonLines (callRecords 0 cs) := turnCalls_text cs _ rfl
    have hentries : journalEntries (jsonLines (callRecords 0 cs)) = callRecords 0 cs :=
      journalEntries_all fun v hv => isRecord_of_mem_callRecords hv
    rw [foldResumeState, readLoop_eq, htext]
    rw [journalEntries] at hentries
    rw [hentries, hg]
    rfl
  · have hcompleted : g.completed = (terminals cs).map Json.str := by
      rw [hholds.completed]
      rfl
    rw [hholds.started]
    show (((starts cs).map Start.row).reverse.find? _) = _
    rw [← List.map_reverse, List.find?_map, lastUnmarked]
    congr 2
    funext t
    simp only [Function.comp_apply, Start.row, ResumeFold.isOpen, hcompleted, List.all_map]
    rw [Bool.eq_iff_iff, List.all_eq_true]
    simp [scalarEq_str, List.forall_mem_ne]
  · intro id
    rw [hholds.records]
    rfl
  · intro id
    rw [hholds.committed, Option.or_eq_left_of_none]
    rfl

/-- **Recovery selects exactly the interrupted turn** when, and only when, the
markers agree. -/
theorem recoversExactly_iff (py : Interp) (cs : List TurnCall) :
    RecoversExactly py cs ↔ MarkersAgree cs := by
  obtain ⟨g, hfold, hpick, htools, hsteps⟩ := foldResumeState_calls py cs
  unfold RecoversExactly MarkersAgree
  rw [hfold, ResumeFold.select, hpick]
  cases hturn : interruptedTurn cs with
  | none =>
    simp only [Except.ok.injEq, Option.map_map, Option.map_eq_none_iff, lastUnmarked,
      List.find?_eq_none, List.mem_reverse, decide_eq_true_eq, not_not]
  | some r =>
    obtain ⟨s, later⟩ := r
    obtain ⟨pre, hpre⟩ := interruptedTurn_some hturn
    have hlast : lastUnmarked (terminals cs) (starts cs)
        = (lastUnmarked (terminals cs) (starts later)).or
          (if strTake 128 s.turnId ∉ terminals cs then some s
            else lastUnmarked (terminals cs) pre) := by
      rw [hpre, lastUnmarked, List.reverse_append, List.reverse_cons, List.append_assoc,
        List.find?_append, List.singleton_append, List.find?_cons]
      by_cases hs : strTake 128 s.turnId ∈ terminals cs <;> simp [lastUnmarked, hs]
    constructor
    · rintro ⟨r, hr, hid, hmessage, hbase, -, hstep⟩
      cases ht : lastUnmarked (terminals cs) (starts cs) with
      | none => rw [ht] at hr; cases hr
      | some t =>
        have hunmarked : strTake 128 t.turnId ∉ terminals cs := by
          have := List.find?_some ht
          simpa using this
        rw [ht] at hr
        obtain rfl := Option.some.inj (Except.ok.inj hr)
        have hid' : strTake 128 t.turnId = s.turnId := Json.str.inj hid
        have hlen : s.turnId.length ≤ 128 := by
          rw [← hid', ← strTake_eq_self, strTake, strTake]
          simp [List.take_take]
        refine ⟨hlen, hid' ▸ hunmarked, ?_, ?_⟩
        · intro t' ht'
          rw [hlast, ht', Option.some_or] at ht
          obtain rfl := Option.some.inj ht
          have hself : strTake 128 s.turnId = s.turnId := strTake_eq_self.mpr hlen
          simp only [Start.row, hid', hself] at hmessage hbase ⊢
          rw [hmessage, hbase]
        · rw [← hstep, ← hsteps]
          show _ = ((g.committed.get? (.str (strTake 128 t.turnId))).getD ("", none))
          rw [hid']
    · rintro ⟨hlen, hunmarked, hlater, hstep⟩
      have hself : strTake 128 s.turnId = s.turnId := strTake_eq_self.mpr hlen
      have hrow : (lastUnmarked (terminals cs) (starts cs)).map Start.row = some s.row := by
        rw [hlast, hself, if_pos hunmarked]
        cases ht : lastUnmarked (terminals cs) (starts later) with
        | none => rfl
        | some t => exact congrArg some (hlater t ht)
      rw [hrow]
      refine ⟨_, rfl, ?_, rfl, rfl, ?_, ?_⟩
      · exact congrArg Json.str hself
      · show (g.records.get? (.str (strTake 128 s.turnId))).getD [] = _
        rw [hself, htools]
      · show ((g.committed.get? (.str (strTake 128 s.turnId))).getD ("", none)) = _
        rw [hself, hsteps, hstep]

/-- A turn that is completed and then driven again. -/
def redrivenCalls : List TurnCall :=
  [.turnStarted "t1" "fix it" 0 "c" none none, .turnCompleted "t1",
    .turnStarted "t1" "fix it" 0 "c" none none]

/-- The second run of the turn is open, and the marker of the first hides it. -/
theorem not_recoversExactly_redriven :
    (interruptedTurn redrivenCalls).map Prod.fst = some ⟨"t1", "fix it", 0⟩
      ∧ ¬ RecoversExactly plainInterp redrivenCalls := by
  have hturn : interruptedTurn redrivenCalls = some (⟨"t1", "fix it", 0⟩, []) := rfl
  refine ⟨by rw [hturn]; rfl, ?_⟩
  obtain ⟨g, hfold, hpick, -⟩ := foldResumeState_calls plainInterp redrivenCalls
  have hnone : lastUnmarked (terminals redrivenCalls) (starts redrivenCalls) = none := by decide
  rw [RecoversExactly, hturn, hfold, ResumeFold.select, hpick, hnone]
  rintro ⟨r, hr, -⟩
  cases hr

end Agenthicc.Memory
