/-
Agenthicc.Memory.JournaledTheorems — when the conversation in memory is what
its journal folds to.

The replacements write first and publish when the transaction is committed;
they keep the two in step whatever fails. The appends and the resets publish
first: `StepOk` says that none of their writes fails, or that there was
nothing to publish. `synced_iff` is exact for every run: the journal's side is
`ConversationJournal.FoldsTo`, which every operation keeps (`Healthy.step`).
-/
import Agenthicc.Library.Runs
import Agenthicc.Memory.Journaled
import Agenthicc.Memory.JournalTheorems

namespace Agenthicc.Memory

open Python

namespace JournaledShortTermMemory

/-- The journal is open and intact, and it folds. -/
def Healthy (m : JournaledShortTermMemory) : Prop := ∃ f, m.journal.FoldsTo f

theorem synced_iff_projection {m : JournaledShortTermMemory} {f : Fold}
    (h : m.journal.FoldsTo f) :
    m.Synced ↔ f.rollbackPending.projection = (m.messages, m.summary) := by
  rw [Synced, h.fold]
  exact ⟨Except.ok.inj, congrArg _⟩

/-! ## 1. What each kind of operation leaves -/

/-- The journal gets the messages up to the first write that fails. -/
theorem journalMessages_spec (fails : Nat → Bool) : ∀ (ms : List (Json × String))
    {j : ConversationJournal} {f : Fold} (i : Nat), j.FoldsTo f →
    ∃ g n, (journalMessages fails j ms i).1.FoldsTo g ∧ n ≤ ms.length
      ∧ g.rollbackPending.projection
        = (f.rollbackPending.messages ++ (ms.map Prod.fst).take n, f.rollbackPending.summary)
      ∧ (n = ms.length ↔ ∀ k < ms.length, fails (i + k) = false)
  | [], j, f, i, h => ⟨f, 0, h, Nat.le_refl 0, by simp [Fold.projection], by simp⟩
  | (message, messageId) :: ms, j, f, i, h => by
      rw [journalMessages]
      cases hi : fails i with
      | true =>
          obtain ⟨hj, exc, hexc⟩ :=
            h.write_failed (ConversationJournal.durability_append message messageId)
          generalize j.write _ _ = r at hj hexc
          obtain ⟨j', r⟩ := r
          obtain rfl : r = .error exc := hexc
          refine ⟨f, 0, hj, Nat.zero_le _, by simp [Fold.projection], ?_⟩
          constructor
          · intro h0
            simp at h0
          · intro hall
            have h0 := hall 0 (by simp)
            rw [Nat.add_zero, hi] at h0
            cases h0
      | false =>
          obtain ⟨hj, hok⟩ := h.write_ok (f.entry_append message messageId j.seq)
          generalize j.write _ _ = r at hj hok
          obtain ⟨j', r⟩ := r
          obtain rfl : r = .ok () := hok
          obtain ⟨g, n, hg, hn, hproj, hiff⟩ := journalMessages_spec fails ms (i + 1) hj
          refine ⟨g, n + 1, hg, Nat.succ_le_succ hn, ?_, ?_⟩
          · rw [hproj, Fold.rollbackPending_none (by exact Fold.pending_rollbackPending f)]
            simp
          · rw [List.length_cons, Nat.add_right_cancel_iff, hiff]
            constructor
            · intro hall k hk
              cases k with
              | zero => exact hi
              | succ k =>
                  have := hall k (Nat.lt_of_succ_lt_succ hk)
                  rwa [Nat.add_assoc, Nat.add_comm 1] at this
            · intro hall k hk
              have := hall (k + 1) (Nat.succ_lt_succ hk)
              rwa [Nat.add_comm k, ← Nat.add_assoc] at this

/-- None of the writes of the new messages fails. -/
def NewOk (added : Except PyError (List Json)) (fails : Nat → Bool) : Prop :=
  match added with
  | .error _ => True
  | .ok new => ∀ i < new.length, fails i = false

/-- A write of a reset does not fail, or there was nothing to set. -/
def ResetOk (m : JournaledShortTermMemory) (p : Projection) (fails : Bool) : Prop :=
  fails = false ∨ p = (m.messages, m.summary)

/-- The operation keeps the journal foldable, and keeps memory in step with it
exactly under the condition. -/
def Keeps (m m' : JournaledShortTermMemory) (ok : Prop) : Prop :=
  m'.Healthy ∧ (m.Synced → (m'.Synced ↔ ok))

theorem keeps_refl {m : JournaledShortTermMemory} (h : m.Healthy) {ok : Prop} (hok : ok) :
    Keeps m m ok := ⟨h, fun hs => ⟨fun _ => hok, fun _ => hs⟩⟩

theorem addNew_keeps {m : JournaledShortTermMemory} (h : m.Healthy)
    (added : Except PyError (List Json)) (messageIds : Nat → String) (fails : Nat → Bool) :
    Keeps m (m.addNew added messageIds fails).1 (NewOk added fails) := by
  obtain ⟨f, hf⟩ := h
  cases added with
  | error exc => exact keeps_refl ⟨f, hf⟩ trivial
  | ok new =>
      obtain ⟨g, n, hg, hn, hproj, hiff⟩ := journalMessages_spec fails
        (new.zipIdx.map fun p => (p.1, messageIds p.2)) 0 hf
      have hlen : (new.zipIdx.map fun p => (p.1, messageIds p.2)).length = new.length := by simp
      have hmap : (new.zipIdx.map fun p => (p.1, messageIds p.2)).map Prod.fst = new := by
        rw [List.map_map]
        exact List.zipIdx_map_fst 0 new
      rw [hlen] at hn hiff
      rw [hmap] at hproj
      refine ⟨⟨g, hg⟩, fun hs => ?_⟩
      have hm := (synced_iff_projection hf).mp hs
      rw [synced_iff_projection (m := (m.addNew (.ok new) messageIds fails).1) hg, hproj]
      rw [Fold.projection, Prod.mk.injEq] at hm
      simp only [addNew, hm.1, hm.2, Prod.mk.injEq, List.append_cancel_left_eq, and_true]
      rw [NewOk, show (∀ i < new.length, fails i = false) ↔ n = new.length by simpa using hiff.symm]
      constructor
      · intro htake
        have hl := congrArg List.length htake
        rw [List.length_take] at hl
        omega
      · rintro rfl
        exact List.take_length

theorem resetTo_keeps {m : JournaledShortTermMemory} (h : m.Healthy) (p : Projection)
    (turnId stepId reason : String) (fails : Bool) :
    Keeps m (m.resetTo p turnId stepId reason fails).1 (ResetOk m p fails) := by
  obtain ⟨f, hf⟩ := h
  have hw := hf.write (ConversationJournal.durability_reset p.1 p.2 turnId stepId reason)
    (f.entry_reset p.1 p.2 turnId stepId reason m.journal.seq) fails
  refine ⟨⟨_, hw⟩, fun hs => ?_⟩
  have hm := (synced_iff_projection hf).mp hs
  rw [synced_iff_projection (m := (m.resetTo p turnId stepId reason fails).1) hw]
  cases fails with
  | true =>
      simp only [if_true, hm, resetTo, ResetOk]
      constructor
      · intro he
        exact Or.inr he.symm
      · rintro (he | he)
        · cases he
        · exact he.symm
  | false =>
      simp only [Bool.false_eq_true, if_false]
      rw [Fold.rollbackPending_none (by exact Fold.pending_rollbackPending f)]
      exact ⟨fun _ => Or.inl rfl, fun _ => rfl⟩

/-- A replacement publishes what it committed, and nothing when it raised. -/
theorem commitState_spec {m : JournaledShortTermMemory} {f : Fold} (hf : m.journal.FoldsTo f)
    (uuid : String) (p : Projection) (fails : ReplaceFails) :
    (m.commitState uuid p fails).1.Healthy
      ∧ (m.Synced → (m.commitState uuid p fails).1.Synced)
      ∧ (m.commitState uuid p fails).1.activeExchange = m.activeExchange := by
  obtain ⟨g, hg, hproj, hok⟩ :=
    hf.replaceState uuid p.1 p.2 fails.prepare fails.reset fails.commit
  unfold commitState
  generalize m.journal.replaceState _ _ _ _ _ _ = r at hg hok
  obtain ⟨j, r⟩ := r
  cases r with
  | error exc =>
      refine ⟨⟨g, hg⟩, fun hs => ?_, rfl⟩
      rw [synced_iff_projection (m := { m with journal := j }) hg, hproj]
      have hfail : ¬ (fails.prepare || fails.reset || fails.commit) = false := by
        rw [← hok]
        intro he
        cases he
      rw [if_pos (Bool.not_eq_false _ ▸ hfail)]
      exact (synced_iff_projection hf).mp hs
  | ok u =>
      refine ⟨⟨g, hg⟩, fun _ => ?_, rfl⟩
      rw [synced_iff_projection
        (m := { m with journal := j, messages := p.1, summary := p.2 }) hg, hproj]
      have hgood := hok.mp rfl
      rw [if_neg (by simp [hgood])]

theorem replaceState_keeps {m : JournaledShortTermMemory} (h : m.Healthy) (uuid : String)
    (p : Projection) (fails : ReplaceFails) :
    Keeps m (m.replaceState uuid p fails).1 True := by
  obtain ⟨f, hf⟩ := h
  unfold replaceState
  split
  · exact keeps_refl ⟨f, hf⟩ trivial
  · obtain ⟨hhealthy, hsync, -⟩ := commitState_spec hf uuid p fails
    exact ⟨hhealthy, fun hs => ⟨fun _ => trivial, fun _ => hsync hs⟩⟩

theorem toolExchangeAborted_other (exchangeId : String) (callCount : Nat) (repaired : Bool)
    (eventId : String) :
    (toolExchangeAbortedEntry exchangeId callCount repaired eventId).kind ∉ FOLDED_KINDS := by
  show "tool_exchange_aborted" ∉ FOLDED_KINDS
  decide

/-- A record the fold passes over keeps memory in step, written or not. -/
theorem write_other_keeps {m : JournaledShortTermMemory} (h : m.Healthy) {e : Entry}
    (he : e.kind ∉ FOLDED_KINDS) (fails : Bool) (exchange : Option ToolExchange) :
    Keeps m { m with
      journal := (m.journal.write e (ConversationJournal.failing fails)).1
      activeExchange := exchange } True := by
  obtain ⟨f, hf⟩ := h
  have hw := hf.write_other he fails
  refine ⟨⟨f, hw⟩, fun hs => ⟨fun _ => trivial, fun _ => ?_⟩⟩
  rw [synced_iff_projection (m := { m with
      journal := (m.journal.write e (ConversationJournal.failing fails)).1
      activeExchange := exchange }) hw]
  exact (synced_iff_projection hf).mp hs

theorem commitRepaired_keeps (base : ShortTermMemory) {m : JournaledShortTermMemory}
    (h : m.Healthy) (uuid : String) (p : Projection) (fails : ReplaceFails)
    (receiptFails : Bool) :
    Keeps m (commitRepairedToolHistory base m uuid p fails receiptFails).1 True := by
  unfold commitRepairedToolHistory
  split
  · exact keeps_refl h trivial
  · obtain ⟨f, hf⟩ := h
    obtain ⟨hhealthy, hsync, -⟩ := commitState_spec hf uuid p fails
    generalize m.commitState uuid p fails = r at hhealthy hsync
    obtain ⟨m', r⟩ := r
    simp only at hhealthy hsync
    cases r with
    | error exc => exact ⟨hhealthy, fun hs => ⟨fun _ => trivial, fun _ => hsync hs⟩⟩
    | ok u =>
        simp only
        cases hact : m'.activeExchange with
        | none => exact ⟨hhealthy, fun hs => ⟨fun _ => trivial, fun _ => hsync hs⟩⟩
        | some exchange =>
            simp only
            split
            · have hk := fun exch => write_other_keeps hhealthy
                (toolExchangeAborted_other exchange.exchange_id exchange.call_ids.length true
                  (toolExchangeRecoveryEventId base exchange.exchange_id)) receiptFails exch
              generalize m'.journal.write _ _ = w at hk
              obtain ⟨j, w⟩ := w
              cases w with
              | error exc =>
                  obtain ⟨h1, h2⟩ := hk m'.activeExchange
                  exact ⟨h1, fun hs => h2 (hsync hs)⟩
              | ok u =>
                  obtain ⟨h1, h2⟩ := hk none
                  exact ⟨h1, fun hs => h2 (hsync hs)⟩
            · exact ⟨hhealthy, fun hs => ⟨fun _ => trivial, fun _ => hsync hs⟩⟩

/-! ## 2. One step, and every run -/

/-- The base class refuses the data, or the reset keeps the two in step. -/
def RestoreOk (base : ShortTermMemory) (m : JournaledShortTermMemory) (data : Json)
    (fails : Bool) : Prop :=
  match base.restore data with
  | .error _ => True
  | .ok (p, _) => ResetOk m p fails

/-- The condition on one operation. -/
def StepOk (base : ShortTermMemory) (m : JournaledShortTermMemory) : Op → Prop
  | .addUser content fails => NewOk (base.addUser m.messages content) fails
  | .addUserOnce content messageId fails =>
      messageId = "" ∨ hasMessageId m.journal.text messageId = true
        ∨ NewOk (base.addUser m.messages content) fails
  | .addAssistant completion fails => NewOk (base.addAssistant m.messages completion) fails
  | .addToolResult result fails => NewOk (base.addToolResult m.messages result) fails
  | .addToolResults results fails =>
      match results with
      | [result] => NewOk (base.addToolResult m.messages result) fails
      | results => NewOk (base.addToolResults m.messages results) fails
  | .restore data _ _ _ fails => RestoreOk base m data fails
  | .rollbackTo count fails => ResetOk m (sliceTo m.messages count, m.summary) fails
  | .rollbackUncommittedAttempt checkpoint _ _ fails => RestoreOk base m checkpoint fails
  | .replaceState _ _ _ => True
  | .commitRepairedToolHistory _ _ _ _ => True

theorem addUserOnce_keeps (base : ShortTermMemory) {m : JournaledShortTermMemory} (h : m.Healthy)
    (content : Json) (messageId : String) (fails : Nat → Bool) :
    Keeps m (addUserOnce base m content messageId fails).1
      (StepOk base m (.addUserOnce content messageId fails)) := by
  unfold addUserOnce
  by_cases hid : messageId = ""
  · rw [if_pos hid]
    exact keeps_refl h (Or.inl hid)
  · rw [if_neg hid]
    by_cases hhas : hasMessageId m.journal.text messageId = true
    · rw [if_pos hhas]
      exact keeps_refl h (Or.inr (Or.inl hhas))
    · rw [if_neg hhas]
      obtain ⟨h1, h2⟩ := addNew_keeps h (base.addUser m.messages content)
        (fun i => if i = 0 then messageId else messageId ++ ":" ++ toString i) fails
      refine ⟨h1, fun hs => (h2 hs).trans ?_⟩
      simp [StepOk, hid, hhas]

theorem restore_keeps (base : ShortTermMemory) {m : JournaledShortTermMemory} (h : m.Healthy)
    (data : Json) (turnId stepId reason : String) (fails : Bool) :
    Keeps m (restore base m data turnId stepId reason fails).1
      (RestoreOk base m data fails) := by
  unfold restore RestoreOk
  cases base.restore data with
  | error exc => exact keeps_refl h trivial
  | ok r =>
      obtain ⟨p, exchange⟩ := r
      exact resetTo_keeps (m := { m with activeExchange := exchange }) h p turnId stepId reason
        fails

theorem addToolResults_keeps (base : ShortTermMemory) {m : JournaledShortTermMemory}
    (h : m.Healthy) (results : List Json) (fails : Nat → Bool) :
    Keeps m (addToolResults base m results fails).1
      (StepOk base m (.addToolResults results fails)) := by
  match results with
  | [result] => exact addNew_keeps h _ _ fails
  | [] => exact addNew_keeps h _ _ fails
  | _ :: _ :: _ => exact addNew_keeps h _ _ fails

/-- **One operation** keeps memory and journal in step exactly under its
condition, whether it returns or raises. -/
theorem step_keeps (base : ShortTermMemory) {m : JournaledShortTermMemory} (h : m.Healthy) :
    ∀ op, Keeps m (step base m op) (StepOk base m op)
  | .addUser _ fails => addNew_keeps h _ _ fails
  | .addUserOnce content messageId fails => addUserOnce_keeps base h content messageId fails
  | .addAssistant _ fails => addNew_keeps h _ _ fails
  | .addToolResult _ fails => addNew_keeps h _ _ fails
  | .addToolResults results fails => addToolResults_keeps base h results fails
  | .restore data turnId stepId reason fails => restore_keeps base h data turnId stepId reason fails
  | .rollbackTo _ fails => resetTo_keeps h _ _ _ _ fails
  | .rollbackUncommittedAttempt checkpoint turnId stepId fails =>
      restore_keeps base h checkpoint turnId stepId "provider_attempt_rollback" fails
  | .replaceState uuid p fails => replaceState_keeps h uuid p fails
  | .commitRepairedToolHistory uuid p fails receiptFails =>
      commitRepaired_keeps base h uuid p fails receiptFails

theorem opened_synced {file : List Char} (hi : Intact file) {m : JournaledShortTermMemory}
    (h : opened file = .ok m) : m.Healthy ∧ m.Synced := by
  unfold opened at h
  cases hf : (ConversationJournal.opened file).fold with
  | error exc => simp [hf, bind, Except.bind] at h
  | ok p =>
      simp only [hf, bind, Except.bind, pure, Except.pure, Except.ok.injEq] at h
      subst h
      rw [ConversationJournal.fold, ConversationJournal.text_opened] at hf
      obtain ⟨f, hfold, -⟩ := Folds.of_foldPath hi hf
      refine ⟨⟨f, rfl, by rwa [ConversationJournal.text_opened]⟩, ?_⟩
      rw [Synced, ConversationJournal.fold, ConversationJournal.text_opened]
      exact hf

/-- **The conversation is a projection of its journal** in every state of a
run exactly when no append loses a write and no reset that changes something
does. -/
theorem synced_iff (base : ShortTermMemory) {file : List Char} (hi : Intact file)
    {m : JournaledShortTermMemory} (h : opened file = .ok m) (ops : List Op) :
    (∀ k, ((ops.take k).foldl (step base) m).Synced)
      ↔ Runs.RunOk (step base) (StepOk base) m ops := by
  obtain ⟨hhealthy, hsynced⟩ := opened_synced hi h
  have hinv : ∀ m op, Healthy m → Healthy (step base m op) :=
    fun m op h => (step_keeps base h op).1
  have hstep : ∀ m op, Healthy m → Synced m → (Synced (step base m op) ↔ StepOk base m op) :=
    fun m op h hs => (step_keeps base h op).2 hs
  exact Runs.forall_states_iff hinv hstep hhealthy hsynced

/-- A base class that appends what it is given and accepts every history. -/
def plainBase : ShortTermMemory where
  addUser _ content := .ok [.obj [("role", .str "user"), ("content", content)]]
  addAssistant _ completion := .ok [.obj [("role", .str "assistant"), ("content", completion)]]
  addToolResult _ result := .ok [.obj [("role", .str "tool"), ("content", result)]]
  addToolResults _ results :=
    .ok (results.map fun result => .obj [("role", .str "tool"), ("content", result)])
  restore data :=
    match data.get "messages" with
    | .arr messages => .ok ((messages, data.get "summary"), none)
    | _ => .error (.keyError "messages")
  historyOk _ _ := true
  sha256 s := s

/-- The memory on an empty journal. -/
def emptyMemory : JournaledShortTermMemory where
  journal := ConversationJournal.opened []
  messages := []
  summary := .null

/-- A message and its rollback, both written. -/
def sampleOps : List Op := [.addUser (.str "hi") fun _ => false, .rollbackTo (-1) false]

theorem synced_sampleOps : ((sampleOps.take 2).foldl (step plainBase) emptyMemory).Synced := by
  have hok : Runs.RunOk (step plainBase) (StepOk plainBase) emptyMemory sampleOps :=
    ⟨fun _ _ => rfl, Or.inl rfl, trivial⟩
  exact (synced_iff plainBase intact_nil (m := emptyMemory) rfl sampleOps).mpr hok 2

/-- A user message whose record cannot be written stays in memory. -/
theorem not_synced_failedAppend : emptyMemory.Synced
    ∧ ¬ (step plainBase emptyMemory (.addUser (.str "hi") fun _ => true)).Synced := by
  obtain ⟨hhealthy, hsynced⟩ := opened_synced intact_nil (m := emptyMemory) rfl
  refine ⟨hsynced, fun h => ?_⟩
  have hok := ((step_keeps plainBase hhealthy (.addUser (.str "hi") fun _ => true)).2 hsynced).mp h
  exact Bool.noConfusion (hok 0 (by decide))

end JournaledShortTermMemory

end Agenthicc.Memory
