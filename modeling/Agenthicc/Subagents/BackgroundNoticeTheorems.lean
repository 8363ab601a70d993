/-
Agenthicc.Subagents.BackgroundNoticeTheorems — every background pool that
ended is announced once.

What a delivery looks at is which message IDs and which deliveries the journal
holds (`Quiet`: an operation leaves both alone) and the fold of the pools.
`Writes` lists the records that an operation adds, so one induction serves
every operation of the pools and of the memory.
-/
import Agenthicc.Subagents.BackgroundNotices
import Agenthicc.Memory.PoolLifecycleTheorems
import Agenthicc.Memory.JournaledTheorems

namespace Agenthicc.Subagents

open Python Memory

/-! ## 1. What a write leaves of the records of a kind -/

def DELIVERED : String := "subagent_pool_notification_delivered"

/-- The records of a kind. -/
def ofKind (j : ConversationJournal) (kind : String) : List Json :=
  (journalEntries j.text).filter fun v => kindOf v = .str kind

/-- The notice of the pool has been appended. -/
def told (j : ConversationJournal) (poolId : String) : Bool := hasMessageId j.text (completionId poolId)

section

variable {j : ConversationJournal}

theorem ofKind_write (h : j.Healthy) (e : Entry) (kind : String) :
    ofKind (j.write e {}).1 kind = ofKind j kind ++ if e.kind = kind then [e.record j.seq] else [] := by
  obtain ⟨es, qs, h⟩ := h
  obtain ⟨es', qs', h', happ⟩ := h.write e
  rw [ofKind, ofKind, h'.entries, h.entries, happ, Entry.records_append, List.filter_append, Nat.zero_add,
    ← h.length, Entry.records, Entry.records]
  by_cases he : e.kind = kind <;> simp [he]

theorem ofKind_drain (h : j.Healthy) (kind : String) : ofKind (j.drain none).1 kind = ofKind j kind := by
  obtain ⟨es, qs, h⟩ := h
  rw [ofKind, ofKind, h.drain.entries, h.entries, List.append_nil]

theorem ofKind_opened (h : j.Healthy) {kind : String} (hk : kind ≠ "usage_record") :
    ofKind (ConversationJournal.opened j.file) kind = ofKind j kind := by
  obtain ⟨es, qs, h⟩ := h
  have hqueue : (Entry.records es.length qs).filter (fun v => decide (kindOf v = .str kind)) = [] := by
    refine List.filter_eq_nil_iff.mpr fun v hv => ?_
    obtain ⟨e, n, he, rfl⟩ := Entry.exists_of_mem_records hv
    rw [kindOf_record, Entry.advisory_kind (h.queued e he)]
    simpa using fun heq => hk heq.symm
  rw [ofKind, ofKind, h.restart.entries, h.entries, List.append_nil, Entry.records_append, List.filter_append,
    Nat.zero_add, hqueue, List.append_nil]

theorem subagentKind_eq (h : j.Healthy) {kind : String} (hk : projected kind = true) :
    j.subagentKind kind = ofKind j kind := by
  obtain ⟨es, qs, h⟩ := h
  rw [h.subagentKind hk, ofKind, h.entries]

theorem completionId_ne (poolId : String) : completionId poolId ≠ "" := by
  intro hempty
  unfold completionId at hempty
  have hhead := (String.append_eq_empty_iff.mp hempty).1
  simp at hhead

theorem told_eq (h : j.Healthy) (poolId : String) :
    told j poolId = (ofKind j "append").any fun v => v.get "message_id" = .str (completionId poolId) := by
  obtain ⟨es, qs, h⟩ := h
  have hne := completionId_ne poolId
  rw [told, hasMessageId, ofKind, h.entries, List.any_filter]
  simp only [ne_eq, hne, not_false_eq_true, decide_true, Bool.true_and]
  refine List.any_congr rfl fun v => ?_
  cases hobj : v.isObj with
  | true => rw [Bool.true_and, kindOf]
  | false =>
      have hkind : kindOf v ≠ .str "append" := by
        cases v <;> simp [Json.isObj, kindOf, Json.get, Json.getD, Json.get?] at hobj ⊢
      simp [hkind]

theorem told_write (h : j.Healthy) (e : Entry) (poolId : String) :
    told (j.write e {}).1 poolId = (told j poolId ||
      (e.kind = "append" && (e.record j.seq).get "message_id" = .str (completionId poolId))) := by
  rw [told_eq (h.write e), told_eq h, ofKind_write h, List.any_append]
  by_cases he : e.kind = "append" <;> simp [he]

theorem delivered_eq (h : j.Healthy) : j.deliveredSubagentPoolNotifications =
    (ofKind j DELIVERED).filterMap ConversationJournal.poolIdOf := by
  rw [ConversationJournal.deliveredSubagentPoolNotifications, subagentKind_eq h (by decide)]
  rfl

/-! ## 2. Operations that are quiet -/

/-- The operation appends no notice and records no delivery. -/
structure Quiet (j j' : ConversationJournal) : Prop where
  healthy : j'.Healthy
  told : ∀ k, told j' k = told j k
  delivered : j'.deliveredSubagentPoolNotifications = j.deliveredSubagentPoolNotifications

theorem quiet_of_ofKind {j' : ConversationJournal} (h : j.Healthy) (h' : j'.Healthy)
    (hsame : ∀ kind, kind ≠ "usage_record" → ofKind j' kind = ofKind j kind) : Quiet j j' where
  healthy := h'
  told k := by rw [told_eq h', told_eq h, hsame _ (by decide)]
  delivered := by rw [delivered_eq h', delivered_eq h, hsame _ (by decide)]

theorem quiet_drain (h : j.Healthy) : Quiet j (j.drain none).1 :=
  quiet_of_ofKind h h.drain.1 fun _ _ => ofKind_drain h _

theorem quiet_opened (h : j.Healthy) : Quiet j (ConversationJournal.opened j.file) :=
  quiet_of_ofKind h h.restart.1 fun _ hk => ofKind_opened h hk

/-- The record is neither a notice nor a delivery. -/
structure QuietEntry (e : Entry) : Prop where
  kind : e.kind ≠ DELIVERED
  messageId : e.kind = "append" → ∀ k, Json.lookup "message_id" e.fields ≠ some (.str (completionId k))

theorem QuietEntry.of_kind {e : Entry} (he : Session.apartFromNotices e.kind = true) : QuietEntry e := by
  simp only [Session.apartFromNotices, decide_eq_true_eq, List.mem_cons, List.not_mem_nil, or_false, not_or] at he
  exact ⟨he.2, fun happend => absurd happend he.1⟩

theorem quiet_write (h : j.Healthy) {e : Entry} (he : QuietEntry e) : Quiet j (j.write e {}).1 where
  healthy := h.write e
  told k := by
    rw [told_write h]
    by_cases happend : e.kind = "append"
    · have hno := he.messageId happend k
      rw [get_record e j.seq (by decide) (by decide)]
      cases hl : Json.lookup "message_id" e.fields with
      | none => simp
      | some v =>
          have hv : v ≠ .str (completionId k) := fun heq => hno (by rw [hl, heq])
          simp [hv]
    · simp [happend]
  delivered := by
    rw [delivered_eq (h.write e), delivered_eq h, ofKind_write h, if_neg he.kind, List.append_nil]

/-- A write that fails adds the record to the queue or leaves what is read. -/
theorem write_failing (h : j.Healthy) (e : Entry) :
    (j.write e (ConversationJournal.failing true)).1 = (j.write e {}).1 ∨
      ((j.write e (ConversationJournal.failing true)).1.Healthy ∧
        (j.write e (ConversationJournal.failing true)).1.text = j.text) := by
  obtain ⟨es, qs, h⟩ := h
  cases hd : e.durability with
  | advisory =>
      left
      simp [ConversationJournal.write, hd]
  | durable =>
      right
      obtain ⟨htext, hseq, -, hopen⟩ := ConversationJournal.write_failed j hd h.isOpen
      have hpos : 0 < (jsonLine (e.record j.seq)).length := by simp [jsonLine]
      have hfile : (j.write e (ConversationJournal.failing true)).1.pending = [] ∧
          (j.write e (ConversationJournal.failing true)).1.file = j.text := by
        simp [ConversationJournal.write, hd, h.isOpen, ConversationJournal.failing,
          ConversationJournal.writePending_ok, ConversationJournal.writeRecord, hpos]
      refine ⟨⟨es ++ qs, [], ?_, ?_, by simp, ?_, hopen⟩, htext⟩
      · rw [hfile.2, h.text]
      · rw [hfile.1]
        rfl
      · rw [hseq, h.length]
        rfl

theorem pools_of_text {j₁ j₂ : ConversationJournal} (htext : j₂.text = j₁.text) : j₂.pools = j₁.pools := by
  have hkinds : j₂.subagentKind = j₁.subagentKind := by
    funext kind
    rw [ConversationJournal.subagentKind, ConversationJournal.subagentKind, ConversationJournal.subagentRecords,
      ConversationJournal.subagentRecords, htext]
  rw [ConversationJournal.pools, ConversationJournal.pools, ConversationJournal.lifecycleRecords,
    ConversationJournal.lifecycleRecords, hkinds]

/-- Records that are added one after the other, some in vain. -/
inductive Writes (P : Entry → Prop) : ConversationJournal → ConversationJournal → Prop where
  | refl (j : ConversationJournal) : Writes P j j
  | write {j j₁ : ConversationJournal} {e : Entry} (fails : Bool) (before : Writes P j j₁) (he : P e) :
      Writes P j (j₁.write e (ConversationJournal.failing fails)).1

namespace Writes

variable {P : Entry → Prop} {j j' j'' : ConversationJournal}

theorem trans (hw : Writes P j j') (hw' : Writes P j' j'') : Writes P j j'' := by
  induction hw' with
  | refl => exact hw
  | write fails _ he ih => exact .write fails ih he

theorem one {e : Entry} (fails : Bool) (he : P e) :
    Writes P j (j.write e (ConversationJournal.failing fails)).1 := .write fails (.refl j) he

theorem keeps {inv : ConversationJournal → Prop} (hw : Writes P j j') (hinv : inv j)
    (hstep : ∀ j e, P e → inv j → inv (j.write e {}).1)
    (hfail : ∀ j j' : ConversationJournal, inv j → j'.Healthy → j'.text = j.text → inv j')
    (hhealthy : ∀ j, inv j → j.Healthy) : inv j' := by
  induction hw with
  | refl => exact hinv
  | @write j₁ e fails _ he ih =>
      cases fails with
      | false => exact hstep _ _ he ih
      | true =>
          cases write_failing (hhealthy _ ih) e with
          | inl hsame =>
              rw [hsame]
              exact hstep _ _ he ih
          | inr hsame => exact hfail _ _ ih hsame.1 hsame.2

theorem quiet (hw : Writes P j j') (h : j.Healthy) (hP : ∀ e, P e → QuietEntry e) : Quiet j j' := by
  refine hw.keeps (quiet_of_ofKind h h fun _ _ => rfl) (fun j₁ e he hq => ?_) (fun j₁ j₂ hq h₂ htext => ?_)
    fun _ hq => hq.healthy
  · have hone := quiet_write hq.healthy (hP e he)
    exact ⟨hone.healthy, fun k => (hone.told k).trans (hq.told k), hone.delivered.trans hq.delivered⟩
  · refine ⟨h₂, fun k => ?_, ?_⟩
    · rw [← hq.told k, Subagents.told, Subagents.told, htext]
    · rw [← hq.delivered, delivered_eq h₂, delivered_eq hq.healthy, ofKind, ofKind, htext]

theorem pools (hw : Writes P j j') (h : j.Sound) (hP : ∀ e, P e → e.kind ∉ LIFECYCLE_KINDS) :
    j'.Sound ∧ j'.pools = j.pools := by
  refine @keeps P j j' (fun j' => j'.Sound ∧ j'.pools = j.pools) hw ⟨h, rfl⟩ (fun j₁ e he hs => ?_)
    (fun j₁ j₂ hs h₂ htext => ?_) fun _ hs => hs.1.healthy
  · obtain ⟨hsound, hpools⟩ := hs.1.write_unrelated (hP e he)
    exact ⟨hsound, hpools.trans hs.2⟩
  · have hsame := pools_of_text htext
    exact ⟨⟨h₂, hsame ▸ hs.1.keyed⟩, hsame.trans hs.2⟩

end Writes

end
/-! ## 3. The memory -/

/-- A record of the memory: of no pool, and no notice. -/
structure MemoryEntry (e : Entry) : Prop where
  quiet : QuietEntry e
  kind : e.kind ∉ LIFECYCLE_KINDS

theorem memoryEntry_other {e : Entry} (happend : e.kind ≠ "append") (hkind : e.kind ∉ DELIVERED :: LIFECYCLE_KINDS) :
    MemoryEntry e := by
  simp only [List.mem_cons, not_or] at hkind
  exact ⟨⟨hkind.1, fun h => absurd h happend⟩, hkind.2⟩

theorem memoryEntry_append (message : Json) {messageId : String}
    (hne : ∀ k, strTake 160 messageId ≠ completionId k) : MemoryEntry (appendEntry message messageId) := by
  refine ⟨⟨by simp [appendEntry, DELIVERED], fun _ k hk => ?_⟩, by simp [appendEntry, LIFECYCLE_KINDS]⟩
  unfold appendEntry at hk
  split at hk
  · simp [Json.lookup] at hk
  · simp only [Json.lookup, ite_true, Option.some.injEq, Json.str.injEq] at hk
    exact hne k hk

theorem completionId_ne_empty (k : String) : strTake 160 "" ≠ completionId k := by
  intro heq
  exact completionId_ne k heq.symm

theorem take_ne_append {q c s : List Char} (k : List Char) (hs : q <+: s) (hq : 10 ≤ q.length) (hc : 10 ≤ c.length)
    (hne : q.take 10 ≠ c.take 10) : s.take 160 ≠ c ++ k := by
  intro heq
  obtain ⟨rest, rfl⟩ := hs
  have hchars := congrArg (List.take 10) heq
  rw [List.take_take, List.take_append_of_le_length (by omega), List.take_append_of_le_length hc] at hchars
  exact hne hchars

theorem questionId_ne {messageId : String} (h : "subagent-question:".toList.isPrefixOf messageId.toList)
    (k : String) : strTake 160 messageId ≠ completionId k := by
  intro heq
  have hlength : "subagent-question:".toList.length = 18 := by simp
  have hlength' : "subagent-completion:".toList.length = 20 := by simp
  have hdiffer : "subagent-question:".toList.take 10 ≠ "subagent-completion:".toList.take 10 := by simp
  have hchars : messageId.toList.take 160 = "subagent-completion:".toList ++ k.toList := by
    rw [← String.toList_append, ← String.toList_ofList (l := messageId.toList.take 160)]
    exact congrArg String.toList heq
  exact take_ne_append k.toList (List.isPrefixOf_iff_prefix.mp h) (hlength ▸ by omega) (hlength' ▸ by omega) hdiffer hchars

theorem journalMessages_writes (fails : Nat → Bool) : ∀ (ms : List (Json × String)) (j : ConversationJournal) (i : Nat),
    (∀ p ∈ ms, MemoryEntry (appendEntry p.1 p.2)) →
    Writes MemoryEntry j (JournaledShortTermMemory.journalMessages fails j ms i).1
  | [], j, i, _ => .refl j
  | (message, messageId) :: ms, j, i, hms => by
      have hone : Writes MemoryEntry j
          (j.write (appendEntry message messageId) (ConversationJournal.failing (fails i))).1 :=
        .one (fails i) (hms (message, messageId) (by simp))
      rw [JournaledShortTermMemory.journalMessages]
      generalize j.write _ _ = result at hone
      obtain ⟨j₁, outcome⟩ := result
      cases outcome with
      | error exc => exact hone
      | ok _ => exact hone.trans (journalMessages_writes fails ms j₁ (i + 1) fun p hp => hms p (by simp [hp]))

theorem addNew_writes (m : JournaledShortTermMemory) (added : Except PyError (List Json)) {messageIds : Nat → String}
    (fails : Nat → Bool) (hids : ∀ i k, strTake 160 (messageIds i) ≠ completionId k) :
    Writes MemoryEntry m.journal (m.addNew added messageIds fails).1.journal := by
  cases added with
  | error exc => exact .refl _
  | ok new =>
      refine journalMessages_writes fails _ m.journal 0 fun p hp => ?_
      obtain ⟨q, -, rfl⟩ := List.mem_map.mp hp
      exact memoryEntry_append q.1 (hids q.2)

theorem write_writes {j : ConversationJournal} {e : Entry} (fails : Bool) (he : MemoryEntry e) :
    Writes MemoryEntry j (j.write e (ConversationJournal.failing fails)).1 := .one fails he

theorem resetTo_writes (m : JournaledShortTermMemory) (p : Projection) (turnId stepId reason : String) (fails : Bool) :
    Writes MemoryEntry m.journal (m.resetTo p turnId stepId reason fails).1.journal :=
  write_writes (e := resetEntry p.1 p.2 turnId stepId reason) fails
    (memoryEntry_other (by simp [resetEntry]) (by simp [resetEntry, DELIVERED, LIFECYCLE_KINDS]))

theorem replaceState_writes (j : ConversationJournal) (uuid : String) (messages : List Json) (summary : Json)
    (prepare reset commit : Bool) : Writes MemoryEntry j
      (j.replaceState uuid messages summary (ConversationJournal.failing prepare) (ConversationJournal.failing reset)
        (ConversationJournal.failing commit)).1 := by
  unfold ConversationJournal.replaceState
  cases j.fold with
  | error exc => exact .refl j
  | ok previous =>
      dsimp only
      have h₁ : Writes MemoryEntry j (j.write (prepareEntry uuid previous) (ConversationJournal.failing prepare)).1 :=
        write_writes prepare (memoryEntry_other (by simp [prepareEntry])
          (by simp [prepareEntry, DELIVERED, LIFECYCLE_KINDS]))
      generalize j.write (prepareEntry uuid previous) _ = result at h₁
      obtain ⟨j₁, outcome⟩ := result
      cases outcome with
      | error exc => exact h₁
      | ok _ =>
          dsimp only
          have h₂ : Writes MemoryEntry j₁
              (j₁.write (candidateEntry uuid (messages, summary)) (ConversationJournal.failing reset)).1 :=
            write_writes reset (memoryEntry_other (by simp [candidateEntry])
              (by simp [candidateEntry, DELIVERED, LIFECYCLE_KINDS]))
          generalize j₁.write (candidateEntry uuid (messages, summary)) _ = result at h₂
          obtain ⟨j₂, outcome⟩ := result
          cases outcome with
          | error exc => exact h₁.trans h₂
          | ok _ =>
              exact (h₁.trans h₂).trans (write_writes commit (memoryEntry_other (by simp [commitEntry])
                (by simp [commitEntry, DELIVERED, LIFECYCLE_KINDS])))

theorem commitState_writes (m : JournaledShortTermMemory) (uuid : String) (p : Projection)
    (fails : JournaledShortTermMemory.ReplaceFails) :
    Writes MemoryEntry m.journal (m.commitState uuid p fails).1.journal := by
  have hw := replaceState_writes m.journal uuid p.1 p.2 fails.prepare fails.reset fails.commit
  unfold JournaledShortTermMemory.commitState
  generalize m.journal.replaceState uuid p.1 p.2 _ _ _ = result at hw
  obtain ⟨j, outcome⟩ := result
  cases outcome <;> exact hw

theorem commitRepaired_writes (base : ShortTermMemory) (m : JournaledShortTermMemory) (uuid : String) (p : Projection)
    (fails : JournaledShortTermMemory.ReplaceFails) (receiptFails : Bool) : Writes MemoryEntry m.journal
      (JournaledShortTermMemory.commitRepairedToolHistory base m uuid p fails receiptFails).1.journal := by
  unfold JournaledShortTermMemory.commitRepairedToolHistory
  split
  · exact .refl _
  · have hw := commitState_writes m uuid p fails
    generalize m.commitState uuid p fails = result at hw
    obtain ⟨m₁, outcome⟩ := result
    cases outcome with
    | error exc => exact hw
    | ok _ =>
        dsimp only at hw ⊢
        split
        · rename_i exchange hexchange
          split
          · have hreceipt : Writes MemoryEntry m₁.journal (m₁.journal.write
                (toolExchangeAbortedEntry exchange.exchange_id exchange.call_ids.length true
                  (toolExchangeRecoveryEventId base exchange.exchange_id))
                (ConversationJournal.failing receiptFails)).1 :=
              write_writes receiptFails (memoryEntry_other (by simp [toolExchangeAbortedEntry])
                (by simp [toolExchangeAbortedEntry, DELIVERED, LIFECYCLE_KINDS]))
            generalize m₁.journal.write _ _ = result at hreceipt
            obtain ⟨j, outcome⟩ := result
            cases outcome <;> exact hw.trans hreceipt
          · exact hw
        · exact hw

/-- An operation of the memory adds records of messages alone. -/
theorem memory_writes (base : ShortTermMemory) (m : JournaledShortTermMemory) (op : JournaledShortTermMemory.Op)
    (hop : Session.memoryOpApart op = true) :
    Writes MemoryEntry m.journal (JournaledShortTermMemory.step base m op).journal := by
  have hnone : ∀ (i : Nat) k, strTake 160 "" ≠ completionId k := fun _ => completionId_ne_empty
  cases op with
  | addUser content fails => exact addNew_writes m _ fails hnone
  | addUserOnce content messageId fails =>
      show Writes MemoryEntry m.journal (JournaledShortTermMemory.addUserOnce base m content messageId fails).1.journal
      unfold JournaledShortTermMemory.addUserOnce
      split
      · exact .refl _
      · split
        · exact .refl _
        · refine addNew_writes m _ fails fun i k => ?_
          have hfront : "subagent-question:".toList.isPrefixOf messageId.toList := hop
          split
          · exact questionId_ne hfront k
          · refine questionId_ne ?_ k
            rw [List.isPrefixOf_iff_prefix] at hfront ⊢
            rw [String.toList_append, String.toList_append, List.append_assoc]
            exact hfront.trans (List.prefix_append _ _)
  | addAssistant completion fails => exact addNew_writes m _ fails hnone
  | addToolResult result fails => exact addNew_writes m _ fails hnone
  | addToolResults results fails =>
      show Writes MemoryEntry m.journal (JournaledShortTermMemory.addToolResults base m results fails).1.journal
      unfold JournaledShortTermMemory.addToolResults
      split
      · exact addNew_writes m _ fails hnone
      · exact addNew_writes m _ fails hnone
  | restore data turnId stepId reason fails =>
      show Writes MemoryEntry m.journal (JournaledShortTermMemory.restore base m data turnId stepId reason fails).1.journal
      unfold JournaledShortTermMemory.restore
      split
      · exact .refl _
      · exact resetTo_writes _ _ _ _ _ _
  | rollbackTo count fails => exact resetTo_writes _ _ _ _ _ _
  | rollbackUncommittedAttempt checkpoint turnId stepId fails =>
      show Writes MemoryEntry m.journal (JournaledShortTermMemory.restore base m checkpoint turnId stepId
        "provider_attempt_rollback" fails).1.journal
      unfold JournaledShortTermMemory.restore
      split
      · exact .refl _
      · exact resetTo_writes _ _ _ _ _ _
  | replaceState uuid p fails =>
      show Writes MemoryEntry m.journal (m.replaceState uuid p fails).1.journal
      unfold JournaledShortTermMemory.replaceState
      split
      · exact .refl _
      · exact commitState_writes m uuid p fails
  | commitRepairedToolHistory uuid p fails receiptFails =>
      exact commitRepaired_writes base m uuid p fails receiptFails
/-! ## 4. The pools -/

/-- A record of an operation of the pools, behind the start of a pool if it is
of one. -/
structure PoolEntry (e : Entry) : Prop where
  apart : Session.apartFromNotices e.kind = true
  later : e.kind ∉ LIFECYCLE_KINDS ∨ ∃ k, LaterRecord k e ∧ Json.lookup "backgrounded" e.fields = none

theorem poolEntry_later {k : String} {e : Entry} (he : LaterRecord k e) (hb : Json.lookup "backgrounded" e.fields = none) :
    PoolEntry e := by
  refine ⟨?_, .inr ⟨k, he, hb⟩⟩
  have hkind := he.kind
  simp only [LIFECYCLE_KINDS, List.mem_cons, List.not_mem_nil, or_false] at hkind
  simp only [Session.apartFromNotices, decide_eq_true_eq]
  rcases hkind with hk | hk | hk | hk | hk | hk <;> rw [hk] <;> simp

theorem poolEntry_unrelated {e : Entry} (hapart : Session.apartFromNotices e.kind = true)
    (hkind : e.kind ∉ LIFECYCLE_KINDS) : PoolEntry e := ⟨hapart, .inl hkind⟩

section

variable (py : Interp) (clock : Nat → PyFloat)

theorem write_pool {j : ConversationJournal} {e : Entry} (he : PoolEntry e) : Writes PoolEntry j (j.write e {}).1 :=
  .one (j := j) false he

theorem task_writes (poolId fingerprint reason : String) (u : Unfinished) (task : Json) :
    Writes PoolEntry u.journal (u.task clock poolId fingerprint reason task).journal := by
  unfold Unfinished.task
  split
  · dsimp only
    split
    · exact .refl _
    · split
      · exact .refl _
      · exact write_pool (poolEntry_unrelated (by simp [Session.apartFromNotices, unfinishedWorkerEntry])
          (by simp [unfinishedWorkerEntry, LIFECYCLE_KINDS]))
  · exact .refl _

theorem tasks_writes (poolId fingerprint reason : String) : ∀ (tasks : List Json) (u : Unfinished),
    Writes PoolEntry u.journal (tasks.foldl (Unfinished.task clock poolId fingerprint reason) u).journal
  | [], _ => .refl _
  | task :: tasks, u => (task_writes clock poolId fingerprint reason u task).trans (tasks_writes _ _ _ tasks _)

theorem unfinished_writes (j : ConversationJournal) (value : Lifecycle) (reason : String) :
    Writes PoolEntry j (recordUnfinishedSubagentWorkers py clock j value reason).1 :=
  tasks_writes clock _ _ reason value.tasks { journal := j, latest := j.latestWorkers _ }

theorem stopped_writes (j : ConversationJournal) (poolId : String) (result : PoolResult) (reason : String) :
    Writes PoolEntry j (j.subagentPoolStopped py clock poolId result reason) := by
  unfold ConversationJournal.subagentPoolStopped
  split
  · exact .refl j
  · split
    · exact (unfinished_writes py clock j _ _).trans
        (write_pool (poolEntry_later (later_stopped _ _ _ _)
          (by simp [poolStoppedEntry, poolHead, Json.lookup, lookup_valuesField])))
    · exact .refl j

theorem cancelled_writes (j : ConversationJournal) (poolId reason : String) :
    Writes PoolEntry j (j.subagentPoolCancelled py clock poolId reason) := by
  unfold ConversationJournal.subagentPoolCancelled
  split
  · exact .refl j
  · split
    · exact (unfinished_writes py clock j _ _).trans
        (write_pool (poolEntry_later (later_cancelled _ _ _ _) (by simp [poolCancelledEntry, poolHead, Json.lookup])))
    · exact .refl j

theorem recoverPool_writes (r : ConversationJournal × List String) (value : Lifecycle) :
    Writes PoolEntry r.1 (ConversationJournal.recoverPool py clock r value).1 := by
  unfold ConversationJournal.recoverPool
  split
  · split
    · split
      · exact .refl _
      · exact (unfinished_writes py clock r.1 value _).trans
          (write_pool (poolEntry_later (later_interrupted _ _ _)
            (by simp [poolInterruptedEntry, poolHead, Json.lookup])))
    · exact .refl _
  · exact .refl _

theorem recover_writes : ∀ (values : List Lifecycle) (r : ConversationJournal × List String),
    Writes PoolEntry r.1 (values.foldl (ConversationJournal.recoverPool py clock) r).1
  | [], _ => .refl _
  | value :: values, r => (recoverPool_writes py clock r value).trans (recover_writes values _)

theorem started_quiet {j : ConversationJournal} (h : j.Healthy) (now : PyFloat)
    (poolId fingerprint parentRunId : String) (tasks : List (List (String × String))) :
    Quiet j (j.write (poolStartedEntry now poolId fingerprint parentRunId tasks) {}).1 :=
  quiet_write h (.of_kind (by simp [Session.apartFromNotices, poolStartedEntry]))

theorem backgrounded_pool (now : PyFloat) (poolId : String) (toolResult : List (String × Json)) :
    PoolEntry (poolBackgroundedEntry now poolId toolResult) :=
  poolEntry_later (later_backgrounded _ _ _) (by simp [poolBackgroundedEntry, poolHead, Json.lookup])

theorem finished_pool (now : PyFloat) (poolId : String) (result : PoolResult) :
    PoolEntry (poolFinishedEntry now poolId result) :=
  poolEntry_later (later_finished _ _ _) (by simp [poolFinishedEntry, poolHead, Json.lookup, lookup_valuesField])

/-- Apart from a start, an operation of the pools adds such records. -/
theorem poolStep_writes (j : ConversationJournal) (op : ConversationJournal.PoolOp)
    (hop : Session.poolOpApart op = true) (hstart : ∀ a b c d, op ≠ .started a b c d) (hbatch : op ≠ .writerBatch) :
    Writes PoolEntry j (ConversationJournal.poolStep py clock j op) := by
  cases op with
  | started poolId fingerprint parentRunId tasks => exact absurd rfl (hstart _ _ _ _)
  | backgrounded poolId toolResult => exact write_pool (backgrounded_pool _ poolId toolResult)
  | finished poolId result retry => exact write_pool (finished_pool _ poolId result)
  | stopped poolId result reason => exact stopped_writes py clock j poolId result reason
  | cancelled poolId reason => exact cancelled_writes py clock j poolId reason
  | recover => exact recover_writes py clock _ (j, [])
  | record e unrelated => exact write_pool (poolEntry_unrelated hop unrelated)
  | writerBatch => exact absurd rfl hbatch
  | restart => cases hop

theorem poolStep_quiet {j : ConversationJournal} (h : j.Healthy) (op : ConversationJournal.PoolOp)
    (hop : Session.poolOpApart op = true) : Quiet j (ConversationJournal.poolStep py clock j op) := by
  by_cases hbatch : op = .writerBatch
  · subst hbatch
    exact quiet_drain h
  · cases op with
    | started poolId fingerprint parentRunId tasks => exact started_quiet h _ _ _ _ _
    | _ => exact (poolStep_writes py clock j _ hop (by simp) hbatch).quiet h fun _ he => .of_kind he.apart

end

/-! ### Pools in the background -/

/-- The fold has the pool in the background. -/
def Backgrounded (j : ConversationJournal) (k : String) : Prop :=
  ∃ v, j.pools.get? k = some v ∧ v.field "backgrounded" = .bool true

theorem advance_backgrounded (v : Lifecycle) (e : Entry) (seq : Nat)
    (hb : Json.lookup "backgrounded" e.fields = none) (hv : v.field "backgrounded" = .bool true) :
    (v.advance (e.record seq)).field "backgrounded" = .bool true := by
  have hupdate : Lifecycle.field (v.update (recordFields (e.record seq))) "backgrounded" = .bool true := by
    rw [Lifecycle.field_update]
    simpa [recordFields, Entry.record, Json.lookup, hb, Lifecycle.field] using hv
  unfold Lifecycle.advance
  dsimp only
  split
  · rw [Lifecycle.field_set, if_pos rfl]
  · split
    · rw [Lifecycle.field_set, if_neg (by decide)]
      exact hupdate
    · exact hupdate

theorem Writes.backgrounded {j j' : ConversationJournal} (hw : Writes PoolEntry j j') (h : j.Sound) {k : String}
    (hk : Backgrounded j k) : Backgrounded j' k := by
  have hboth : j'.Sound ∧ Backgrounded j' k := by
    refine @Writes.keeps _ _ _ (fun j' => j'.Sound ∧ Backgrounded j' k) hw ⟨h, hk⟩ (fun j₁ e he hs => ?_)
      (fun j₁ j₂ hs h₂ htext => ?_) fun _ hs => hs.1.healthy
    · obtain ⟨hsound, v, hv, hback⟩ := hs
      cases he.later with
      | inl hunrelated =>
          obtain ⟨hsound', hpools⟩ := hsound.write_unrelated hunrelated
          exact ⟨hsound', v, hpools ▸ hv, hback⟩
      | inr hlater =>
          obtain ⟨k', hlater, hb⟩ := hlater
          refine ⟨hlater.sound hsound, ?_⟩
          by_cases hkk : k = k'
          · refine ⟨v.advance (e.record j₁.seq), ?_, advance_backgrounded v e j₁.seq hb hback⟩
            rw [hlater.get?_pools hsound, if_pos hkk, hv]
            rfl
          · refine ⟨v, ?_, hback⟩
            rw [hlater.get?_pools hsound, if_neg hkk, hv]
    · obtain ⟨hsound, v, hv, hback⟩ := hs
      have hpools := pools_of_text htext
      exact ⟨⟨h₂, hpools ▸ hsound.keyed⟩, v, hpools ▸ hv, hback⟩
  exact hboth.2
/-! ## 5. A delivery -/

/-- The base class appends one message for a user's content. -/
def OneMessage (base : ShortTermMemory) : Prop :=
  ∀ messages content new, base.addUser messages content = .ok new → new.length = 1

/-- What holds of a session at any time: no notice twice, and the notices are
those the journal knows of, each of a pool that had ended. -/
structure Told (s : Session) : Prop where
  sound : s.journal.Sound
  once : s.noticed.Nodup
  known : ∀ k, strTake 128 k = k → (told s.journal k = true ↔ k ∈ s.noticed)
  delivered : ∀ k ∈ s.journal.deliveredSubagentPoolNotifications, k ∈ s.noticed
  after : ∀ k ∈ s.noticed, k ∈ s.ended

/-- The pool of a notice. -/
structure Ready (s : Session) (k : String) : Prop where
  short : strTake 128 k = k
  nonempty : k ≠ ""
  ended : k ∈ s.ended

theorem strTake_completionId {k : String} (hk : strTake 128 k = k) : strTake 160 (completionId k) = completionId k := by
  have hlength : "subagent-completion:".toList.length = 20 := by simp
  have hk' : k.toList.length ≤ 128 := by
    rw [← hk, strTake, String.toList_ofList, List.length_take]
    omega
  have happend : (completionId k).toList = "subagent-completion:".toList ++ k.toList := String.toList_append
  have hchars : (completionId k).toList.length ≤ 160 := by
    have hsum := congrArg List.length happend
    rw [List.length_append, hlength] at hsum
    exact hsum ▸ Nat.add_le_add_left hk' 20 |>.trans (by decide)
  rw [strTake, List.take_of_length_le hchars, String.ofList_toList]

theorem append_left_inj {p k k' : String} (h : p ++ k = p ++ k') : k = k' := by
  have hchars := congrArg String.toList h
  rw [String.toList_append, String.toList_append] at hchars
  exact String.toList_injective (List.append_cancel_left hchars)

theorem completionId_inj {k k' : String} (h : completionId k = completionId k') : k = k' := append_left_inj h

theorem told_append {j : ConversationJournal} (h : j.Healthy) (message : Json) {k : String} (hk : strTake 128 k = k)
    (k' : String) : told (j.write (appendEntry message (completionId k)) {}).1 k' = (told j k' || k' = k) := by
  have hid : ((appendEntry message (completionId k)).record j.seq).get "message_id" = .str (completionId k) := by
    rw [get_record _ j.seq (by decide) (by decide)]
    simp [appendEntry, Json.lookup, completionId_ne, strTake_completionId hk]
  have hsame : decide (Json.str (completionId k) = .str (completionId k')) = decide (k' = k) := by
    refine decide_eq_decide.mpr ⟨fun heq => (completionId_inj (Json.str.inj heq)).symm, fun heq => ?_⟩
    rw [heq]
  have happend : decide ((appendEntry message (completionId k)).kind = "append") = true := decide_eq_true rfl
  rw [told_write h, hid, hsame, happend, Bool.true_and]

namespace Session

variable {base : ShortTermMemory} {clock : Nat → PyFloat} {py : Interp}

/-- What a call of a delivery leaves. -/
structure Called (s s' : Session) : Prop where
  told : Told s'
  pools : s'.journal.pools = s.journal.pools
  ended : s'.ended = s.ended
  background : s'.background = s.background
  grows : ∀ k ∈ s.noticed, k ∈ s'.noticed

theorem Called.refl {s : Session} (h : Told s) : Called s s := ⟨h, rfl, rfl, rfl, fun _ hk => hk⟩

theorem Called.trans {a b c : Session} (hab : Called a b) (hbc : Called b c) : Called a c :=
  ⟨hbc.told, hbc.pools.trans hab.pools, hbc.ended.trans hab.ended, hbc.background.trans hab.background,
    fun k hk => hbc.grows k (hab.grows k hk)⟩

/-- The memory with one more message. -/
def noticedBy (s : Session) (k : String) (message : Json) : Session :=
  { s with
    memory := { s.memory with
      messages := s.memory.messages ++ [message]
      journal := (s.journal.write (appendEntry message (completionId k)) {}).1 }
    noticed := s.noticed ++ [k] }

theorem addNew_one (m : JournaledShortTermMemory) (h : m.journal.Healthy) (x : Json) (messageIds : Nat → String) :
    m.addNew (.ok [x]) messageIds (fun _ => false) =
      ({ m with
          messages := m.messages ++ [x]
          journal := (m.journal.write (appendEntry x (messageIds 0)) {}).1 }, .ok ()) := by
  obtain ⟨es, qs, hn⟩ := h
  have hok := (ConversationJournal.write_ok m.journal (appendEntry x (messageIds 0)) hn.isOpen).2.2.1
  simp only [JournaledShortTermMemory.addNew, List.zipIdx_singleton, List.map_cons, List.map_nil,
    JournaledShortTermMemory.journalMessages, ConversationJournal.failing, Bool.false_eq_true, if_false]
  generalize m.journal.write (appendEntry x (messageIds 0)) {} = result at hok
  obtain ⟨j, outcome⟩ := result
  obtain rfl : outcome = .ok () := hok
  rfl

theorem call_addUserOnce_cases {s : Session} (hbase : OneMessage base) (h : Told s) (k message : String) :
    s.call base clock (.addUserOnce k message) = (s, .ok ()) ∧ told s.journal k = true ∨
      told s.journal k = false ∧ ((∃ exc, s.call base clock (.addUserOnce k message) = (s, .error exc)) ∨
        ∃ x, s.call base clock (.addUserOnce k message) = (s.noticedBy k x, .ok ())) := by
  unfold call
  dsimp only
  generalize hresult : JournaledShortTermMemory.addUserOnce base s.memory (.str message) (completionId k)
    (fun _ => false) = result
  rw [JournaledShortTermMemory.addUserOnce, if_neg (completionId_ne k)] at hresult
  cases htold : told s.journal k with
  | true =>
      have hsame : hasMessageId s.memory.journal.text (completionId k) = true := htold
      rw [if_pos hsame] at hresult
      subst hresult
      simp
  | false =>
      have hnew : ¬ hasMessageId s.memory.journal.text (completionId k) = true := by
        rw [Bool.not_eq_true]
        exact htold
      rw [if_neg hnew] at hresult
      refine .inr ⟨rfl, ?_⟩
      cases hadd : base.addUser s.memory.messages (.str message) with
      | error exc =>
          rw [hadd, JournaledShortTermMemory.addNew] at hresult
          subst hresult
          left
          exact ⟨exc, by simp⟩
      | ok new =>
          obtain ⟨x, rfl⟩ := List.length_eq_one_iff.mp (hbase _ _ _ hadd)
          rw [hadd, addNew_one s.memory h.sound.healthy, if_pos rfl] at hresult
          subst hresult
          right
          exact ⟨x, by simp [noticedBy, journal]⟩

theorem noticedBy_called {s : Session} (h : Told s) {k : String} (hk : Ready s k) (x : Json)
    (hnew : told s.journal k = false) : Called s (s.noticedBy k x) := by
  have happend := told_append h.sound.healthy x hk.short
  have hunrelated : (appendEntry x (completionId k)).kind ∉ LIFECYCLE_KINDS := by simp [appendEntry, LIFECYCLE_KINDS]
  obtain ⟨hsound, hpools⟩ := h.sound.write_unrelated hunrelated
  have hfresh : k ∉ s.noticed := by
    intro hmem
    rw [(h.known k hk.short).mpr hmem] at hnew
    cases hnew
  refine ⟨⟨hsound, ?_, fun k' hk' => ?_, fun k' hk' => ?_, fun k' hk' => ?_⟩, hpools, rfl, rfl,
    fun k' hk' => List.mem_append_left _ hk'⟩
  · rw [noticedBy, List.nodup_append]
    refine ⟨h.once, List.nodup_singleton k, fun a ha b hb => ?_⟩
    rw [List.mem_singleton.mp hb]
    exact fun heq => hfresh (heq ▸ ha)
  · show told (s.journal.write (appendEntry x (completionId k)) {}).1 k' = true ↔ k' ∈ s.noticed ++ [k]
    rw [happend, Bool.or_eq_true, h.known k' hk', decide_eq_true_eq, List.mem_append, List.mem_singleton]
  · have hsame : (s.journal.write (appendEntry x (completionId k)) {}).1.deliveredSubagentPoolNotifications =
        s.journal.deliveredSubagentPoolNotifications := by
      rw [delivered_eq hsound.healthy, delivered_eq h.sound.healthy, ofKind_write h.sound.healthy,
        if_neg (by simp [appendEntry, DELIVERED]), List.append_nil]
    exact List.mem_append_left _ (h.delivered k' (hsame ▸ hk'))
  · cases List.mem_append.mp hk' with
    | inl hold => exact h.after k' hold
    | inr hk' =>
        rw [List.mem_singleton.mp hk']
        exact hk.ended

/-- **The last call** records the delivery of a pool that has its notice. -/
theorem notificationDelivered_called {s : Session} (h : Told s) {k : String} (hk : k ∈ s.noticed)
    (hshort : strTake 128 k = k) : Called s (s.call base clock (.notificationDelivered k)).1 ∧
      (s.call base clock (.notificationDelivered k)).1.noticed = s.noticed := by
  have hunrelated : ∀ now, (notificationDeliveredEntry now k (completionId k)).kind ∉ LIFECYCLE_KINDS := by
    intro now
    simp [notificationDeliveredEntry, LIFECYCLE_KINDS]
  obtain ⟨hsound, hpools⟩ := h.sound.write_unrelated (hunrelated (clock s.journal.seq))
  have hnotice : ∀ now k', told (s.journal.write (notificationDeliveredEntry now k (completionId k)) {}).1 k' =
      told s.journal k' := by
    intro now k'
    rw [told_write h.sound.healthy]
    simp [notificationDeliveredEntry]
  have hdelivered : ∀ now, (s.journal.write (notificationDeliveredEntry now k (completionId k)) {}).1.Healthy →
      ∀ k' ∈ (s.journal.write (notificationDeliveredEntry now k (completionId k)) {}).1.deliveredSubagentPoolNotifications,
        k' ∈ s.noticed := by
    intro now hhealthy k' hk'
    rw [delivered_eq hhealthy, ofKind_write h.sound.healthy, List.filterMap_append, ← delivered_eq h.sound.healthy,
      List.mem_append] at hk'
    cases hk' with
    | inl hold => exact h.delivered k' hold
    | inr hnew =>
        have hkind : (notificationDeliveredEntry now k (completionId k)).kind = DELIVERED := rfl
        rw [if_pos hkind, List.mem_filterMap] at hnew
        obtain ⟨v, hv, hid⟩ := hnew
        rw [List.mem_singleton] at hv
        subst hv
        rw [ConversationJournal.poolIdOf, get_record _ _ (by decide) (by decide)] at hid
        simp only [notificationDeliveredEntry, poolHead, List.cons_append, List.nil_append, Json.lookup, hshort] at hid
        simp at hid
        rw [← hid.2]
        exact hk
  unfold call
  dsimp only
  generalize hresult : s.journal.subagentPoolNotificationDelivered clock k (completionId k) = result
  obtain ⟨j, outcome⟩ := result
  have hj : j = (s.journal.write (notificationDeliveredEntry (clock s.journal.seq) k (completionId k)) {}).1 :=
    (congrArg Prod.fst hresult).symm
  subst hj
  refine ⟨⟨⟨hsound, h.once, fun k' hk' => ?_, hdelivered _ hsound.healthy, h.after⟩, hpools, rfl, rfl,
    fun k' hk' => hk'⟩, rfl⟩
  exact (hnotice _ k') ▸ h.known k' hk'

end Session
namespace Session

variable {base : ShortTermMemory} {clock : Nat → PyFloat} {py : Interp}

/-- The calls of a delivery: of pools that ended, and each delivery is recorded
behind its notice. -/
def CallsOk (s : Session) : List String → List DeliveryCall → Prop
  | _, [] => True
  | known, .addUserOnce k _ :: cs => Ready s k ∧ CallsOk s (k :: known) cs
  | known, .appendEvent _ :: cs => CallsOk s known cs
  | known, .notificationDelivered k :: cs => (k ∈ known ∧ strTake 128 k = k) ∧ CallsOk s known cs

theorem callsOk_take {s : Session} : ∀ (cs : List DeliveryCall) (n : Nat) {known : List String},
    CallsOk s known cs → CallsOk s known (cs.take n)
  | _, 0, _, _ => trivial
  | [], _ + 1, _, _ => trivial
  | .addUserOnce _ _ :: cs, n + 1, _, h => ⟨h.1, callsOk_take cs n h.2⟩
  | .appendEvent _ :: cs, n + 1, _, h => callsOk_take cs n h
  | .notificationDelivered _ :: cs, n + 1, _, h => ⟨h.1, callsOk_take cs n h.2⟩

theorem callsOk_pools {s : Session} {message : Lifecycle → String} : ∀ (pools : List (String × Lifecycle)) (known : List String),
    (∀ p ∈ pools, Ready s p.1) →
    CallsOk s known (pools.flatMap fun p =>
      [.addUserOnce p.1 (message p.2), .appendEvent p.1, .notificationDelivered p.1])
  | [], _, _ => trivial
  | p :: pools, known, h => by
      have hp := h p (by simp)
      exact ⟨hp, ⟨by simp, hp.short⟩, callsOk_pools pools (p.1 :: known) fun q hq => h q (by simp [hq])⟩

theorem perform_cons (s : Session) (c : DeliveryCall) (cs : List DeliveryCall) :
    s.perform base clock (c :: cs) =
      match s.call base clock c with
      | (s, .error exc) => (s, .error exc)
      | (s, .ok ()) => s.perform base clock cs := rfl

/-- **The calls of a delivery, one after the other.** -/
theorem perform_called (hbase : OneMessage base) {s₀ : Session} : ∀ (cs : List DeliveryCall) (known : List String)
    {s : Session}, Told s → s.ended = s₀.ended → (∀ k ∈ known, k ∈ s.noticed) → CallsOk s₀ known cs →
    Called s (s.perform base clock cs).1 ∧
      ((s.perform base clock cs).2 = .ok () → ∀ k m, .addUserOnce k m ∈ cs → k ∈ (s.perform base clock cs).1.noticed) ∧
      ∀ k ∈ (s.perform base clock cs).1.noticed, k ∈ s.noticed ∨ ∃ m, .addUserOnce k m ∈ cs
  | [], _, s, h, _, _, _ => ⟨.refl h, fun _ k m hm => by simp at hm, fun k hk => .inl hk⟩
  | .addUserOnce k message :: cs, known, s, h, hended, hknown, hok => by
      have hready : Ready s k := ⟨hok.1.short, hok.1.nonempty, hended ▸ hok.1.ended⟩
      rw [perform_cons]
      obtain hcase | ⟨hnew, hcase⟩ := @call_addUserOnce_cases base clock s hbase h k message
      · obtain ⟨hcall, htold⟩ := hcase
        have hmem := (h.known k hready.short).mp htold
        obtain ⟨hcalled, hall, honly⟩ := perform_called hbase cs (k :: known) h hended
          (by simpa [hmem] using hknown) hok.2
        rw [hcall]
        refine ⟨hcalled, fun hdone k' m hm => ?_, fun k' hk' => (honly k' hk').imp id fun hm => ?_⟩
        · cases List.mem_cons.mp hm with
          | inl heq =>
              cases heq
              exact hcalled.grows _ hmem
          | inr hm => exact hall hdone k' m hm
        · obtain ⟨m, hm⟩ := hm
          exact ⟨m, List.mem_cons_of_mem _ hm⟩
      · obtain ⟨exc, hcall⟩ | ⟨x, hcall⟩ := hcase
        · rw [hcall]
          exact ⟨.refl h, (fun hdone => by cases hdone), fun k' hk' => .inl hk'⟩
        · have hfirst := noticedBy_called h hready x hnew
          have hmem : k ∈ (s.noticedBy k x).noticed := by simp [noticedBy]
          obtain ⟨hcalled, hall, honly⟩ := perform_called hbase cs (k :: known) hfirst.told
            (hfirst.ended.trans hended) (by simpa [hmem] using fun k' hk' => hfirst.grows k' (hknown k' hk')) hok.2
          rw [hcall]
          refine ⟨hfirst.trans hcalled, fun hdone k' m hm => ?_, fun k' hk' => ?_⟩
          · cases List.mem_cons.mp hm with
            | inl heq =>
                cases heq
                exact hcalled.grows _ hmem
            | inr hm => exact hall hdone k' m hm
          · cases honly k' hk' with
            | inl hold =>
                cases List.mem_append.mp hold with
                | inl hold => exact .inl hold
                | inr heq =>
                    rw [List.mem_singleton.mp heq]
                    exact .inr ⟨message, by simp⟩
            | inr hm =>
                obtain ⟨m, hm⟩ := hm
                exact .inr ⟨m, List.mem_cons_of_mem _ hm⟩
  | .appendEvent k :: cs, known, s, h, hended, hknown, hok => by
      have htold : Told (s.appendEvent (completionId k)) := ⟨h.sound, h.once, h.known, h.delivered, h.after⟩
      have hfirst : Called s (s.appendEvent (completionId k)) := ⟨htold, rfl, rfl, rfl, fun _ hk => hk⟩
      obtain ⟨hcalled, hall, honly⟩ := perform_called hbase cs known htold hended hknown hok
      rw [perform_cons]
      refine ⟨hfirst.trans hcalled, fun hdone k' m hm => ?_, fun k' hk' => (honly k' hk').imp id fun hm => ?_⟩
      · cases List.mem_cons.mp hm with
        | inl heq => cases heq
        | inr hm => exact hall hdone k' m hm
      · obtain ⟨m, hm⟩ := hm
        exact ⟨m, List.mem_cons_of_mem _ hm⟩
  | .notificationDelivered k :: cs, known, s, h, hended, hknown, hok => by
      obtain ⟨hfirst, hsame⟩ := @notificationDelivered_called base clock s h k
        (hknown k hok.1.1) hok.1.2
      rw [perform_cons]
      generalize s.call base clock (.notificationDelivered k) = result at hfirst hsame
      obtain ⟨s₁, outcome⟩ := result
      cases outcome with
      | error exc => exact ⟨hfirst, (fun hdone => by cases hdone), fun k' hk' => .inl (hsame ▸ hk')⟩
      | ok _ =>
          dsimp only at hfirst hsame
          obtain ⟨hcalled, hall, honly⟩ := perform_called hbase cs known hfirst.told (hfirst.ended.trans hended)
            (fun k' hk' => hfirst.grows k' (hknown k' hk')) hok.2
          refine ⟨hfirst.trans hcalled, fun hdone k' m hm => ?_, fun k' hk' => ?_⟩
          · cases List.mem_cons.mp hm with
            | inl heq => cases heq
            | inr hm => exact hall hdone k' m hm
          · cases honly k' hk' with
            | inl hold => exact .inl (hsame ▸ hold)
            | inr hm =>
                obtain ⟨m, hm⟩ := hm
                exact .inr ⟨m, List.mem_cons_of_mem _ hm⟩

/-! ### The pools of a delivery -/

theorem terminal_iff (v : Lifecycle) : v.terminal = ["completed", "stopped", "interrupted", "cancelled"].any
    fun status => v.field "status" = .str status := by
  have hsame : ∀ status, status ∈ Lifecycle.TERMINAL ↔ status ∈ ["completed", "stopped", "interrupted", "cancelled"] := by
    intro status
    simp only [Lifecycle.TERMINAL, List.mem_cons, List.not_mem_nil, or_false]
    tauto
  rw [Bool.eq_iff_iff, List.any_eq_true]
  constructor
  · intro hterminal
    obtain ⟨status, hmem, hs⟩ := of_decide_eq_true hterminal
    exact ⟨status, (hsame status).mp hmem, decide_eq_true hs⟩
  · intro hterminal
    obtain ⟨status, hmem, hs⟩ := hterminal
    exact decide_eq_true ⟨status, (hsame status).mpr hmem, of_decide_eq_true hs⟩

theorem mem_endedPools {j : ConversationJournal} {k : String} : k ∈ endedPools j ↔ j.Ended k := by
  simp only [endedPools, List.mem_filterMap, ConversationJournal.Ended, terminal_iff]
  constructor
  · rintro ⟨p, hp, hif⟩
    split at hif
    · cases hif
      exact ⟨p.2, Dict.mem_items_iff.mp hp, by assumption⟩
    · cases hif
  · rintro ⟨v, hv, hterminal⟩
    exact ⟨(k, v), Dict.mem_items_iff.mpr hv, if_pos hterminal⟩

theorem mem_backgroundPools {j : ConversationJournal} {k : String} : k ∈ backgroundPools j ↔ Backgrounded j k := by
  simp only [backgroundPools, List.mem_filterMap, Backgrounded]
  constructor
  · rintro ⟨p, hp, hif⟩
    split at hif
    · cases hif
      exact ⟨p.2, Dict.mem_items_iff.mp hp, by assumption⟩
    · cases hif
  · rintro ⟨v, hv, hback⟩
    exact ⟨(k, v), Dict.mem_items_iff.mpr hv, if_pos hback⟩

/-- The pools that a delivery is for. -/
def duePools (j : ConversationJournal) : List (String × Lifecycle) :=
  j.pools.items.filter fun p => p.1 ∉ j.deliveredSubagentPoolNotifications &&
    (p.2.field "backgrounded" = .bool true && p.2.terminal)

theorem deliveries_eq {s : Session} (h : s.journal.Sound) : s.deliveries py =
    (duePools s.journal).flatMap fun p =>
      [.addUserOnce p.1 (backgroundPoolNotice py p.2), .appendEvent p.1, .notificationDelivered p.1] := by
  have hkeyed : ∀ p ∈ s.journal.pools.items, p.1 ≠ "" ∧ p.2.field "pool_id" = .str p.1 := by
    intro p hp
    obtain ⟨hne, -, hid⟩ := h.keyed p.1 p.2 (Dict.mem_items_iff.mp hp)
    exact ⟨hne, by rw [Lifecycle.field, hid]; rfl⟩
  rw [deliveries, duePools, ConversationJournal.completedBackgroundSubagentPools,
    ConversationJournal.foldSubagentPoolLifecycle, Dict.values]
  generalize s.journal.pools.items = items at hkeyed
  induction items with
  | nil => rfl
  | cons p items ih =>
      have hrest := ih fun q hq => hkeyed q (by simp [hq])
      obtain ⟨hne, hid⟩ := hkeyed p (by simp)
      have hcalls : deliveryCalls py p.2 =
          [.addUserOnce p.1 (backgroundPoolNotice py p.2), .appendEvent p.1, .notificationDelivered p.1] := by
        rw [deliveryCalls, hid]
        exact if_neg hne
      rw [List.map_cons, List.filter_cons, List.filter_cons]
      simp only [ConversationJournal.undelivered, hid, ← terminal_iff, Bool.and_assoc] at hrest ⊢
      split
      · rw [List.flatMap_cons, List.flatMap_cons, hcalls, hrest]
      · exact hrest

theorem mem_duePools {j : ConversationJournal} {k : String} : (∃ v, (k, v) ∈ duePools j) ↔
    k ∉ j.deliveredSubagentPoolNotifications ∧ ∃ v, j.pools.get? k = some v ∧
      v.field "backgrounded" = .bool true ∧ v.terminal = true := by
  simp only [duePools, List.mem_filter, Dict.mem_items_iff, Bool.and_eq_true, decide_eq_true_eq]
  constructor
  · rintro ⟨v, hv, hnew, hback, hterminal⟩
    exact ⟨hnew, v, hv, hback, hterminal⟩
  · rintro ⟨hnew, v, hv, hback, hterminal⟩
    exact ⟨v, hv, hnew, hback, hterminal⟩

theorem mem_deliveries {s : Session} (h : s.journal.Sound) {k : String} :
    (∃ m, .addUserOnce k m ∈ s.deliveries py) ↔ ∃ v, (k, v) ∈ duePools s.journal := by
  rw [deliveries_eq h]
  simp only [List.mem_flatMap, List.mem_cons, List.not_mem_nil, or_false, DeliveryCall.addUserOnce.injEq,
    reduceCtorEq]
  constructor
  · rintro ⟨m, p, hp, rfl, -⟩
    exact ⟨p.2, hp⟩
  · rintro ⟨v, hv⟩
    exact ⟨_, (k, v), hv, rfl, rfl⟩

theorem deliveries_ok {s : Session} (h : s.journal.Sound) (hseen : ∀ k, s.journal.Ended k → k ∈ s.ended) :
    CallsOk s [] (s.deliveries py) := by
  rw [deliveries_eq h]
  refine callsOk_pools _ [] fun p hp => ?_
  simp only [duePools, List.mem_filter, Bool.and_eq_true, decide_eq_true_eq] at hp
  obtain ⟨hmem, -, -, hterminal⟩ := hp
  have hv := Dict.mem_items_iff.mp (show (p.1, p.2) ∈ s.journal.pools.items from hmem)
  obtain ⟨hne, hshort, -⟩ := h.keyed p.1 p.2 hv
  exact ⟨hshort, hne, hseen p.1 ⟨p.2, hv, hterminal⟩⟩

end Session
/-! ## 6. Runs -/

theorem ended_of_kept {j j' : ConversationJournal} {k : String} (hkept : ConversationJournal.OutcomeKept j j' k)
    (hk : j.Ended k) : j'.Ended k := by
  obtain ⟨v, hv, hterminal⟩ := hk
  obtain ⟨v', hv', houtcome⟩ := hkept v hv hterminal
  exact ⟨v', hv', (Lifecycle.terminal_of_outcome houtcome).trans hterminal⟩

/-- A pool is started once, and moved to the background before it has ended. -/
def poolOpOk (j : ConversationJournal) : ConversationJournal.PoolOp → Prop
  | .started poolId _ _ _ => j.pools.get? (strTake 128 poolId) = none
  | .backgrounded poolId _ => ¬ j.Ended (strTake 128 poolId)
  | _ => True

section

variable (py : Interp) (clock : Nat → PyFloat) {j : ConversationJournal} {k : String}

theorem poolStep_ended (h : j.Sound) (op : ConversationJournal.PoolOp) (hok : poolOpOk j op) (hk : j.Ended k) :
    (ConversationJournal.poolStep py clock j op).Ended k := by
  cases op with
  | started poolId fingerprint parentRunId tasks =>
      refine ended_of_kept ((ConversationJournal.kept_started_iff h _ _ _ _ _).mpr (fun hended => ?_) k) hk
      obtain ⟨v, hv, -⟩ := hended
      rw [poolOpOk, hv] at hok
      cases hok
  | backgrounded poolId toolResult =>
      exact ended_of_kept ((ConversationJournal.kept_backgrounded_iff h _ _ _).mpr hok k) hk
  | finished poolId result retry =>
      by_cases hkk : k = strTake 128 poolId
      · subst hkk
        obtain ⟨v, hv, -⟩ := hk
        exact ConversationJournal.ended_finished h _ _ _ hv
      · obtain ⟨v, hv, hterminal⟩ := hk
        refine ⟨v, ?_, hterminal⟩
        exact ((later_finished _ poolId result).get?_pools h k).trans ((if_neg hkk).trans hv)
  | stopped poolId result reason =>
      exact ended_of_kept ((ConversationJournal.kept_stopped py clock h poolId result reason).2 k) hk
  | cancelled poolId reason =>
      exact ended_of_kept ((ConversationJournal.kept_cancelled py clock h poolId reason).2 k) hk
  | recover => exact ended_of_kept (ConversationJournal.kept_recover py clock h k) hk
  | record e unrelated =>
      obtain ⟨v, hv, hterminal⟩ := hk
      exact ⟨v, (h.write_unrelated unrelated).2 ▸ hv, hterminal⟩
  | writerBatch =>
      obtain ⟨v, hv, hterminal⟩ := hk
      exact ⟨v, h.healthy.drain.2 ▸ hv, hterminal⟩
  | restart =>
      obtain ⟨v, hv, hterminal⟩ := hk
      exact ⟨v, h.healthy.restart.2 ▸ hv, hterminal⟩

theorem poolStep_backgrounded (h : j.Sound) (op : ConversationJournal.PoolOp)
    (hop : Session.poolOpApart op = true) (hok : poolOpOk j op) (hk : Backgrounded j k) :
    Backgrounded (ConversationJournal.poolStep py clock j op) k := by
  by_cases hbatch : op = .writerBatch
  · subst hbatch
    obtain ⟨v, hv, hback⟩ := hk
    exact ⟨v, h.healthy.drain.2 ▸ hv, hback⟩
  · cases op with
    | started poolId fingerprint parentRunId tasks =>
        obtain ⟨v, hv, hback⟩ := hk
        refine ⟨v, ?_, hback⟩
        refine (ConversationJournal.get?_pools_started h _ poolId fingerprint parentRunId tasks k).trans
          ((if_neg fun hkk => ?_).trans hv)
        rw [poolOpOk, ← hkk.1, hv] at hok
        cases hok
    | _ => exact (poolStep_writes py clock j _ hop (by simp) hbatch).backgrounded h hk

end

namespace Session

variable {base : ShortTermMemory} {clock : Nat → PyFloat} {py : Interp}

/-- What has been seen of the pools is noted. -/
structure Noted (s : Session) : Prop extends Told s where
  seen : ∀ k, s.journal.Ended k → k ∈ s.ended

/-- What was seen of a pool is still so. -/
structure Settled (s : Session) : Prop where
  ended : ∀ k ∈ s.ended, s.journal.Ended k
  background : ∀ k ∈ s.background, Backgrounded s.journal k

theorem observed_noted {s : Session} (h : Told s) : Noted s.observed where
  toTold := ⟨h.sound, h.once, h.known, h.delivered, fun k hk => List.mem_append_left _ (h.after k hk)⟩
  seen k hk := List.mem_append_right _ (mem_endedPools.mpr hk)

theorem observed_settled {s : Session} (h : Settled s) : Settled s.observed where
  ended k hk := (List.mem_append.mp hk).elim (h.ended k) mem_endedPools.mp
  background k hk := (List.mem_append.mp hk).elim (h.background k) mem_backgroundPools.mp

theorem told_of_quiet {s s' : Session} (h : Told s) (hsound : s'.journal.Sound) (hq : Quiet s.journal s'.journal)
    (hnoticed : s'.noticed = s.noticed) (hended : s'.ended = s.ended) : Told s' where
  sound := hsound
  once := hnoticed ▸ h.once
  known k hk := by rw [hq.told, hnoticed, h.known k hk]
  delivered k hk := by
    rw [hq.delivered] at hk
    rw [hnoticed]
    exact h.delivered k hk
  after k hk := by
    rw [hnoticed] at hk
    rw [hended]
    exact h.after k hk

theorem restarted_journal (s : Session) : s.restarted.journal = ConversationJournal.opened s.journal.file := by
  unfold restarted
  dsimp only
  split <;> rfl

theorem restarted_same (s : Session) : s.restarted.noticed = s.noticed ∧ s.restarted.ended = s.ended ∧
    s.restarted.background = s.background := by
  unfold restarted
  dsimp only
  split <;> exact ⟨rfl, rfl, rfl⟩

theorem restarted_told {s : Session} (h : Told s) : Told s.restarted := by
  have hsame := restarted_same s
  have hj := restarted_journal s
  have hrestart := h.sound.healthy.restart
  refine told_of_quiet h (hj ▸ ⟨hrestart.1, hrestart.2 ▸ h.sound.keyed⟩) (hj ▸ quiet_opened h.sound.healthy) hsame.1 hsame.2.1

theorem restarted_pools {s : Session} (h : Told s) : s.restarted.journal.pools = s.journal.pools := by
  rw [restarted_journal]
  exact h.sound.healthy.restart.2

theorem ended_of_pools {j j' : ConversationJournal} (hp : j'.pools = j.pools) {k : String} (hk : j.Ended k) :
    j'.Ended k := by
  obtain ⟨v, hv, hterminal⟩ := hk
  exact ⟨v, hp ▸ hv, hterminal⟩

theorem settled_of_pools {s s' : Session} (h : Settled s) (hp : s'.journal.pools = s.journal.pools)
    (hended : s'.ended = s.ended) (hback : s'.background = s.background) : Settled s' where
  ended k hk := ended_of_pools hp (h.ended k (hended ▸ hk))
  background k hk := by
    obtain ⟨v, hv, hb⟩ := h.background k (hback ▸ hk)
    exact ⟨v, hp ▸ hv, hb⟩

theorem delivery_called (hbase : OneMessage base) {s : Session} (h : Noted s) (n : Nat) :
    Called s (s.perform base clock ((s.deliveries py).take n)).1 :=
  (perform_called hbase _ [] h.toTold rfl (by simp) (callsOk_take _ n (deliveries_ok h.sound h.seen))).1

theorem deliver_called (hbase : OneMessage base) {s : Session} (h : Noted s) :
    Called s (s.deliver base py clock).1 ∧
      ((s.deliver base py clock).2 = .ok () → ∀ k m, .addUserOnce k m ∈ s.deliveries py →
        k ∈ (s.deliver base py clock).1.noticed) ∧
      ∀ k ∈ (s.deliver base py clock).1.noticed, k ∈ s.noticed ∨ ∃ m, .addUserOnce k m ∈ s.deliveries py :=
  perform_called hbase _ [] h.toTold rfl (by simp) (deliveries_ok h.sound h.seen)

theorem act_told (hbase : OneMessage base) {s : Session} (h : Noted s) (a : SessionStep) :
    Told (s.act base py clock a) := by
  cases a with
  | pool op apart =>
      exact told_of_quiet h.toTold (h.sound.poolStep py clock op) (poolStep_quiet py clock h.sound.healthy op apart) rfl rfl
  | memory op apart =>
      have hw := memory_writes base s.memory op apart
      exact told_of_quiet h.toTold (hw.pools h.sound fun _ he => he.kind).1
        (hw.quiet h.sound.healthy fun _ he => he.quiet) rfl rfl
  | deliver crash =>
      cases crash with
      | none => exact (deliver_called hbase h).1.told
      | some n => exact restarted_told (delivery_called hbase h n).told
  | restart => exact restarted_told h.toTold

/-- The condition of a step. -/
def StepOk (s : Session) : SessionStep → Prop
  | .pool op _ => poolOpOk s.journal op
  | _ => True

theorem act_settled (hbase : OneMessage base) {s : Session} (h : Noted s) (hs : Settled s) (a : SessionStep)
    (hok : s.StepOk a) : Settled (s.act base py clock a) := by
  cases a with
  | pool op apart =>
      exact ⟨fun k hk => poolStep_ended py clock h.sound op hok (hs.ended k hk),
        fun k hk => poolStep_backgrounded py clock h.sound op apart hok (hs.background k hk)⟩
  | memory op apart =>
      exact settled_of_pools hs ((memory_writes base s.memory op apart).pools h.sound fun _ he => he.kind).2 rfl rfl
  | deliver crash =>
      cases crash with
      | none =>
          have hc := (@deliver_called base clock py hbase s h).1
          exact settled_of_pools hs hc.pools hc.ended hc.background
      | some n =>
          have hc := @delivery_called base clock py hbase s h n
          have hsame := restarted_same (s.perform base clock ((s.deliveries py).take n)).1
          exact settled_of_pools hs ((restarted_pools hc.told).trans hc.pools) (hsame.2.1.trans hc.ended)
            (hsame.2.2.trans hc.background)
  | restart =>
      have hsame := restarted_same s
      exact settled_of_pools hs (restarted_pools h.toTold) hsame.2.1 hsame.2.2

theorem step_noted (hbase : OneMessage base) {s : Session} (h : Noted s) (a : SessionStep) :
    Noted (s.step base py clock a) := observed_noted (act_told hbase h a)

theorem created_pools (conversation : Option (List String)) : (created conversation).journal.pools = .empty := by
  show (ConversationJournal.opened []).pools = .empty
  rw [ConversationJournal.pools, ConversationJournal.numbered_new.lifecycleRecords]
  rfl

theorem created_noted (conversation : Option (List String)) : Noted (created conversation) := by
  have hnew : (created conversation).journal.Numbered [] [] := ConversationJournal.numbered_new
  refine ⟨⟨ConversationJournal.sound_new, List.nodup_nil, fun k _ => ?_, ?_, by simp [created]⟩, fun k hk => ?_⟩
  · rw [told_eq ⟨_, _, hnew⟩, ofKind, hnew.entries]
    simp [created, Entry.records]
  · rw [delivered_eq ⟨_, _, hnew⟩, ofKind, hnew.entries]
    simp [Entry.records]
  · obtain ⟨v, hv, -⟩ := hk
    rw [created_pools] at hv
    cases hv

theorem created_settled (conversation : Option (List String)) : Settled (created conversation) :=
  ⟨by simp [created], by simp [created]⟩

/-- A boundary that was not cut off: the background pools that ended have one
notice each. -/
structure Announced (s : Session) : Prop where
  each : ∀ k ∈ s.ended, k ∈ s.background → s.noticed.count k = 1

theorem deliver_announced (hbase : OneMessage base) {s : Session} (h : Noted s) (hs : Settled s)
    (hdone : (s.deliver base py clock).2 = .ok ()) : Announced (s.step base py clock (.deliver none)) := by
  obtain ⟨hcalled, hall, -⟩ := @deliver_called base clock py hbase s h
  have hsettled := observed_settled (@act_settled base clock py hbase s h hs (.deliver none) trivial)
  refine ⟨fun k hended hback => List.count_eq_one_of_mem hcalled.told.once ?_⟩
  show k ∈ (s.deliver base py clock).1.noticed
  obtain ⟨v, hv, hterminal⟩ := hsettled.ended k hended
  obtain ⟨v', hv', hb⟩ := hsettled.background k hback
  obtain rfl : v = v' := Option.some.inj (hv.symm.trans hv')
  have hpool : s.journal.pools.get? k = some v := hcalled.pools ▸ hv
  by_cases hdelivered : k ∈ s.journal.deliveredSubagentPoolNotifications
  · exact hcalled.grows k (h.delivered k hdelivered)
  · obtain ⟨m, hm⟩ := (@mem_deliveries py s h.sound k).mpr (mem_duePools.mpr ⟨hdelivered, v, hpool, hb, hterminal⟩)
    exact hall hdone k m hm

/-- **A finished background pool is announced once.** No pool has two notices
and none before it has ended; and where no pool is moved to the background
after it has ended, a boundary leaves no such pool without its notice. -/
theorem announced_once (hbase : OneMessage base) {conversation : Option (List String)} {steps : List SessionStep}
    (hok : Runs.RunOk (step base py clock) StepOk (created conversation) steps) :
    (∀ n, ((steps.take n).foldl (step base py clock) (created conversation)).noticed.Nodup ∧
      ∀ k ∈ ((steps.take n).foldl (step base py clock) (created conversation)).noticed,
        k ∈ ((steps.take n).foldl (step base py clock) (created conversation)).ended) ∧
    ∀ n, steps[n]? = some (.deliver none) →
      (((steps.take n).foldl (step base py clock) (created conversation)).deliver base py clock).2 = .ok () →
      Announced ((steps.take (n + 1)).foldl (step base py clock) (created conversation)) := by
  have hall : ∀ n, Noted ((steps.take n).foldl (step base py clock) (created conversation)) ∧
      Settled ((steps.take n).foldl (step base py clock) (created conversation)) :=
    @Runs.RunOk.invariant Session SessionStep _ _ (fun s => Noted s ∧ Settled s)
      (fun s a h hstep => ⟨step_noted hbase h.1 a, observed_settled (act_settled hbase h.1 h.2 a hstep)⟩)
      steps _ ⟨created_noted conversation, created_settled conversation⟩ hok
  refine ⟨fun n => ⟨(hall n).1.once, (hall n).1.after⟩, fun n hn hdone => ?_⟩
  rw [Runs.foldl_take_succ hn]
  exact deliver_announced hbase (hall n).1 (hall n).2 hdone

end Session
namespace Session

open ConversationJournal (PoolOp)

/-- One pool, put in the background, that ends; a delivery cut off behind its
first call, two boundaries and a rollback between them. -/
def backgroundRun : List SessionStep :=
  [.pool (.started "p" "" "" []) rfl, .pool (.backgrounded "p" []) rfl,
    .pool (.finished "p" ⟨1, 1, 0, "ok", none⟩ false) rfl, .deliver (some 1), .deliver none,
    .memory (.rollbackTo 0 false) rfl, .deliver none]

theorem plainBase_oneMessage : OneMessage JournaledShortTermMemory.plainBase := by
  intro messages content new hnew
  cases hnew
  rfl

/-- The session behind the start of the pool. -/
def startedSession : Session :=
  (created none).step JournaledShortTermMemory.plainBase plainInterp (fun _ => zeroFloat)
    (.pool (.started "p" "" "" []) rfl)

theorem started_pools (k : String) : startedSession.journal.pools.get? k =
    if k = "p" then some (ConversationJournal.startedLifecycle (poolStartedEntry zeroFloat "p" "" "" []) 0) else none := by
  refine (ConversationJournal.get?_pools_started ConversationJournal.sound_new zeroFloat "p" "" "" [] k).trans ?_
  by_cases hk : k = "p"
  · rw [if_pos hk, if_pos (by subst hk; decide)]
    rfl
  · rw [if_neg hk, if_neg fun hc => hk hc.1]
    exact congrArg (·.get? k) (created_pools none)

theorem started_not_ended : ¬ startedSession.journal.Ended "p" := by
  intro hended
  obtain ⟨v, hv, hterminal⟩ := hended
  rw [started_pools, if_pos rfl] at hv
  obtain rfl := Option.some.inj hv
  rw [Lifecycle.not_terminal_of_active (ConversationJournal.startedLifecycle_active _ _)] at hterminal
  cases hterminal

/-- The run that the theorem is applied to. -/
theorem announced_once_background :
    (∀ n, ((backgroundRun.take n).foldl (step JournaledShortTermMemory.plainBase plainInterp fun _ => zeroFloat)
        (created none)).noticed.Nodup ∧
      ∀ k ∈ ((backgroundRun.take n).foldl (step JournaledShortTermMemory.plainBase plainInterp fun _ => zeroFloat)
          (created none)).noticed,
        k ∈ ((backgroundRun.take n).foldl (step JournaledShortTermMemory.plainBase plainInterp fun _ => zeroFloat)
          (created none)).ended) ∧
    ∀ n, backgroundRun[n]? = some (.deliver none) →
      (((backgroundRun.take n).foldl (step JournaledShortTermMemory.plainBase plainInterp fun _ => zeroFloat)
        (created none)).deliver JournaledShortTermMemory.plainBase plainInterp fun _ => zeroFloat).2 = .ok () →
      Announced ((backgroundRun.take (n + 1)).foldl
        (step JournaledShortTermMemory.plainBase plainInterp fun _ => zeroFloat) (created none)) := by
  have hstart : poolOpOk (created none).journal (.started "p" "" "" []) := by
    rw [poolOpOk, created_pools]
    rfl
  refine announced_once plainBase_oneMessage ⟨hstart, ?_, trivial, trivial, trivial, trivial, trivial, trivial⟩
  exact started_not_ended

/-- A pool that ends before its receipt is recorded. -/
def lateRun : List SessionStep :=
  [.pool (.started "p" "" "" []) rfl, .pool (.finished "p" ⟨1, 1, 0, "ok", none⟩ false) rfl,
    .pool (.backgrounded "p" []) rfl]

def finishedSession : Session :=
  startedSession.step JournaledShortTermMemory.plainBase plainInterp (fun _ => zeroFloat)
    (.pool (.finished "p" ⟨1, 1, 0, "ok", none⟩ false) rfl)

def lateSession : Session := lateRun.foldl (step JournaledShortTermMemory.plainBase plainInterp fun _ => zeroFloat) (created none)

theorem startedSession_sound : startedSession.journal.Sound :=
  (@step_noted _ (fun _ => zeroFloat) plainInterp plainBase_oneMessage _ (created_noted none) _).sound

theorem finishedSession_sound : finishedSession.journal.Sound :=
  startedSession_sound.poolStep plainInterp (fun _ => zeroFloat) (.finished "p" ⟨1, 1, 0, "ok", none⟩ false)

theorem finishedSession_ended : finishedSession.journal.Ended "p" :=
  ConversationJournal.ended_finished startedSession_sound zeroFloat "p" ⟨1, 1, 0, "ok", none⟩
    ((started_pools "p").trans (if_pos rfl))

theorem late_pools (k : String) : lateSession.journal.pools.get? k =
    if k = "p" then (finishedSession.journal.pools.get? k).map fun v =>
      v.advance ((poolBackgroundedEntry zeroFloat "p" []).record finishedSession.journal.seq)
    else none := by
  refine ((later_backgrounded zeroFloat "p" []).get?_pools finishedSession_sound k).trans ?_
  have hp : strTake 128 "p" = "p" := by decide
  rw [hp]
  by_cases hk : k = "p"
  · rw [if_pos hk, if_pos hk]
  · rw [if_neg hk, if_neg hk]
    refine ((later_finished zeroFloat "p" ⟨1, 1, 0, "ok", none⟩).get?_pools startedSession_sound k).trans ?_
    rw [hp, if_neg hk]
    exact (started_pools k).trans (if_neg hk)

theorem late_not_terminal {k : String} {v : Lifecycle} (hv : lateSession.journal.pools.get? k = some v) :
    v.terminal = false := by
  rw [late_pools] at hv
  split at hv
  · obtain ⟨w, -, rfl⟩ := Option.map_eq_some_iff.mp hv
    have hstatus := (later_backgrounded zeroFloat "p" []).fieldStatus w finishedSession.journal.seq
    refine Lifecycle.not_terminal_of_active ?_
    rw [Lifecycle.active, hstatus]
    rfl
  · cases hv

theorem late_deliveries : lateSession.deliveries plainInterp = [] := by
  have hsound : lateSession.journal.Sound :=
    finishedSession_sound.poolStep plainInterp (fun _ => zeroFloat) (.backgrounded "p" [])
  rw [deliveries_eq hsound]
  have hdue : duePools lateSession.journal = [] := by
    refine List.filter_eq_nil_iff.mpr fun p hp => ?_
    have hv := Dict.mem_items_iff.mp (show (p.1, p.2) ∈ lateSession.journal.pools.items from hp)
    rw [late_not_terminal hv]
    simp
  rw [hdue]
  rfl

/-- The boundary leaves it without a notice. -/
theorem not_announced_late : (lateSession.deliver JournaledShortTermMemory.plainBase plainInterp
      fun _ => zeroFloat).2 = .ok () ∧
    ¬ Announced (lateSession.step JournaledShortTermMemory.plainBase plainInterp (fun _ => zeroFloat) (.deliver none)) := by
  have hdeliver : lateSession.deliver JournaledShortTermMemory.plainBase plainInterp (fun _ => zeroFloat) =
      (lateSession, .ok ()) := by
    rw [deliver, late_deliveries]
    rfl
  refine ⟨by rw [hdeliver], fun h => ?_⟩
  have hstep : lateSession.step JournaledShortTermMemory.plainBase plainInterp (fun _ => zeroFloat) (.deliver none) =
      lateSession.observed := by rw [step, act, hdeliver]
  rw [hstep] at h
  have hended : "p" ∈ lateSession.observed.ended := by
    refine List.mem_append_left _ (List.mem_append_left _ (List.mem_append_right _ ?_))
    exact mem_endedPools.mpr finishedSession_ended
  have hback : "p" ∈ lateSession.observed.background := by
    refine List.mem_append_right _ (mem_backgroundPools.mpr ?_)
    obtain ⟨v, hv, -⟩ := finishedSession_ended
    refine ⟨v.advance ((poolBackgroundedEntry zeroFloat "p" []).record finishedSession.journal.seq), ?_, ?_⟩
    · rw [late_pools, if_pos rfl, hv]
      rfl
    · have hkind : ((poolBackgroundedEntry zeroFloat "p" []).record finishedSession.journal.seq).get "kind" =
          .str "subagent_pool_backgrounded" := kindOf_record _ _
      unfold Lifecycle.advance
      dsimp only
      rw [if_pos hkind, Lifecycle.field_set, if_pos rfl]
  have hcount := h.each "p" hended hback
  have hnone : lateSession.observed.noticed = [] := rfl
  rw [hnone] at hcount
  cases hcount

end Session

end Agenthicc.Subagents
