/-
Agenthicc.Memory.PoolLifecycleTheorems — when the outcome of a pool is final.

The journal under the fold is described by the entries it was written from
(`Numbered`). On such a journal sorting by number changes nothing
(`lifecycleRecords_eq`), so a write moves the fold by one `lifecycleEntry`
(`pools_write`). The writers that look at the status first cannot touch a
pool that ended; the others can, and `StepOk` says when they do not.
-/
import Agenthicc.Library.Runs
import Agenthicc.Memory.PoolLifecycle

namespace Agenthicc.Memory

open Python

/-! ## 1. The journal as the entries it was written from -/

/-- The file holds the records of `es` and the queue those of `qs`. -/
structure ConversationJournal.Numbered (j : ConversationJournal) (es qs : List Entry) : Prop where
  file : j.file = jsonLines (Entry.records 0 es)
  pending : j.pending = (Entry.records es.length qs).map jsonLine
  queued : ∀ e ∈ qs, e.durability = .advisory
  seq : j.seq = es.length + qs.length
  isOpen : j.closed = false

theorem Entry.exists_of_mem_records : ∀ {es : List Entry} {seq : Nat} {v : Json},
    v ∈ Entry.records seq es → ∃ e n, e ∈ es ∧ v = e.record n
  | e :: es, seq, v, h => by
      rcases List.mem_cons.mp h with rfl | h
      · exact ⟨e, seq, by simp, rfl⟩
      · obtain ⟨e', n, hmem, rfl⟩ := Entry.exists_of_mem_records h
        exact ⟨e', n, by simp [hmem], rfl⟩

/-- The key of a record that the folds filter by. -/
def kindOf (v : Json) : Json := v.get "kind"

@[simp] theorem kindOf_record (e : Entry) (seq : Nat) : kindOf (e.record seq) = .str e.kind := by
  simp [kindOf, Json.get, Json.getD]

namespace ConversationJournal

namespace Numbered

variable {j : ConversationJournal} {es qs : List Entry}

theorem text (h : j.Numbered es qs) : j.text = jsonLines (Entry.records 0 (es ++ qs)) := by
  rw [ConversationJournal.text, h.file, h.pending, Entry.records_append, jsonLines_append,
    Nat.zero_add]
  rfl

theorem entries (h : j.Numbered es qs) : journalEntries j.text = Entry.records 0 (es ++ qs) := by
  rw [h.text, journalEntries_records]

theorem length (h : j.Numbered es qs) : j.seq = (es ++ qs).length := by
  rw [h.seq, List.length_append]

/-- A durable record goes behind the queue, an advisory one into it. -/
theorem write (h : j.Numbered es qs) (e : Entry) : ∃ es' qs',
    (j.write e {}).1.Numbered es' qs' ∧ es' ++ qs' = es ++ qs ++ [e] := by
  have hline : Entry.records es.length (qs ++ [e])
      = Entry.records es.length qs ++ [e.record j.seq] := by
    rw [Entry.records_append, h.seq]
    rfl
  cases hd : e.durability with
  | advisory =>
      refine ⟨es, qs ++ [e], ⟨?_, ?_, ?_, ?_, ?_⟩, by rw [List.append_assoc]⟩
      · simp [ConversationJournal.write, hd, h.isOpen, h.file]
      · simp [ConversationJournal.write, hd, h.isOpen, h.pending, hline]
      · intro q hq
        rcases List.mem_append.mp hq with hq | hq
        · exact h.queued q hq
        · rw [List.mem_singleton.mp hq, hd]
      · simp [ConversationJournal.write, hd, h.isOpen, h.seq, Nat.add_assoc]
      · simp [ConversationJournal.write, hd, h.isOpen]
  | durable =>
      refine ⟨es ++ qs ++ [e], [], ⟨?_, ?_, by simp, ?_, ?_⟩, by simp⟩
      · have htext : (j.write e {}).1.file = j.text ++ jsonLine (e.record j.seq) := by
          simp [ConversationJournal.write, hd, h.isOpen, writePending_ok, writeRecord]
        rw [htext, h.text, Entry.records_append _ [e], jsonLines_append, h.length, Nat.zero_add]
        simp [Entry.records]
      · simp [ConversationJournal.write, hd, h.isOpen, writePending_ok, writeRecord,
          Entry.records]
      · simp [ConversationJournal.write, hd, h.isOpen, writePending_ok, writeRecord, h.seq,
          Nat.add_assoc]
      · simp [ConversationJournal.write, hd, h.isOpen, writePending_ok, writeRecord]

theorem drain (h : j.Numbered es qs) : (j.drain none).1.Numbered (es ++ qs) [] := by
  rw [ConversationJournal.drain]
  split
  · rename_i hnil
    rw [h.pending, List.map_eq_nil_iff] at hnil
    obtain rfl : qs = [] := by
      have := congrArg List.length hnil
      rw [Entry.length_records] at this
      exact List.length_eq_zero_iff.mp this
    rw [List.append_nil]
    exact h
  · refine ⟨?_, rfl, by simp, ?_, h.isOpen⟩
    · rw [writePending_ok, ← h.text]
    · rw [writePending_ok, ← h.length]
      rfl

theorem restart (h : j.Numbered es qs) : (opened j.file).Numbered es [] := by
  refine ⟨h.file, rfl, by simp, ?_, rfl⟩
  show countExisting j.file = es.length + 0
  have hlines := decodeLines_jsonLines (Entry.records 0 es) []
    fun _ hv => Entry.isRecord_of_mem_records hv
  rw [List.append_nil] at hlines
  rw [countExisting, h.file, hlines, show decodeLines [] = [] from rfl, List.append_nil,
    List.countP_map]
  have hall : ∀ v ∈ Entry.records 0 es,
      ((fun l : Line => decide (l ≠ .blank)) ∘ Line.entry) v = true := by simp
  rw [List.countP_eq_length.mpr hall, Entry.length_records, Nat.add_zero]

end Numbered

theorem numbered_new : (opened []).Numbered [] [] :=
  ⟨rfl, rfl, by simp, rfl, rfl⟩

end ConversationJournal

theorem Entry.advisory_kind {e : Entry} (h : e.durability = .advisory) :
    e.kind = "usage_record" := by
  by_contra hne
  have hall : ∀ p ∈ RECORD_DURABILITY, p.2 = .advisory → p.1 = "usage_record" := by decide
  rw [Entry.durability] at h
  cases hl : RECORD_DURABILITY.lookup e.kind with
  | none => rw [hl] at h; cases h
  | some d =>
      rw [hl] at h
      obtain rfl : d = .advisory := h
      obtain ⟨before, after, hsplit, -⟩ := List.lookup_eq_some_iff.mp hl
      exact hne (hall (e.kind, .advisory) (by rw [hsplit]; simp) rfl)

/-! ## 2. The view of the pools -/

theorem records_pairwise : ∀ (es : List Entry) (seq : Nat),
    (∀ v ∈ Entry.records seq es, (seq : Int) ≤ recordSequence v)
      ∧ (Entry.records seq es).Pairwise fun a b => recordSequence a < recordSequence b
  | [], _ => by simp [Entry.records]
  | e :: es, seq => by
      obtain ⟨hle, hpair⟩ := records_pairwise es (seq + 1)
      have hhead : recordSequence (e.record seq) = seq := by
        simp [recordSequence, Json.get, Json.getD]
      constructor
      · intro v hv
        rcases List.mem_cons.mp hv with rfl | hv
        · exact le_of_eq hhead.symm
        · have := hle v hv
          omega
      · refine List.pairwise_cons.mpr ⟨fun v hv => ?_, hpair⟩
        have := hle v hv
        omega

/-- Records of different kinds collected kind by kind are the records of
these kinds. -/
theorem flatMap_kinds_perm (vs : List Json) : ∀ {kinds : List String}, kinds.Nodup →
    (kinds.flatMap fun k => vs.filter fun v => kindOf v = .str k).Perm
      (vs.filter fun v => decide (∃ k ∈ kinds, kindOf v = .str k))
  | [], _ => by simp
  | k :: kinds, hnd => by
      obtain ⟨hk, hnd⟩ := List.nodup_cons.mp hnd
      have ih := flatMap_kinds_perm vs hnd
      have hsplit := List.filter_append_perm (fun v => decide (kindOf v = .str k))
        (vs.filter fun v => decide (∃ k' ∈ k :: kinds, kindOf v = .str k'))
      rw [List.filter_filter, List.filter_filter] at hsplit
      refine List.Perm.trans ?_ hsplit
      rw [List.flatMap_cons]
      refine List.Perm.append (List.Perm.of_eq ?_) (ih.trans (List.Perm.of_eq ?_))
      · refine List.filter_congr fun v _ => ?_
        by_cases h : kindOf v = .str k <;> simp [h]
      · refine List.filter_congr fun v _ => ?_
        by_cases h : kindOf v = .str k
        · simpa [h] using hk
        · simp [h]

namespace ConversationJournal

variable {j : ConversationJournal} {es qs : List Entry}

theorem Numbered.subagentKind (h : j.Numbered es qs) {kind : String}
    (hk : projected kind = true) :
    j.subagentKind kind = (Entry.records 0 (es ++ qs)).filter fun v => kindOf v = .str kind := by
  rw [ConversationJournal.subagentKind, subagentRecords, h.entries, List.filter_filter]
  refine List.filter_congr fun v hv => ?_
  have hobj : v.isObj = true := by
    obtain ⟨kvs, rfl⟩ := Entry.isRecord_of_mem_records hv
    rfl
  by_cases hv' : v.get "kind" = .str kind
  · have htext : kindText v = kind := by
      rw [kindText]
      rw [Json.get, Json.getD] at hv'
      cases hget : v.get? "kind" with
      | none => rw [hget] at hv'; cases hv'
      | some w =>
          rw [hget] at hv'
          simp only [Option.getD_some] at hv'
          simp [Json.getD, hget, hv']
    simp [kindOf, hv', hobj, htext, hk]
  · simp [kindOf, hv']

/-- Whether the record is of the lifecycle of a pool. -/
def isLifecycle (v : Json) : Bool := decide (∃ k ∈ LIFECYCLE_KINDS, kindOf v = .str k)

/-- **Sorting changes nothing**: the numbers follow the order of the file. -/
theorem Numbered.lifecycleRecords (h : j.Numbered es qs) :
    j.lifecycleRecords = (Entry.records 0 (es ++ qs)).filter isLifecycle := by
  have hperm : (LIFECYCLE_KINDS.flatMap j.subagentKind).Perm
      ((Entry.records 0 (es ++ qs)).filter isLifecycle) := by
    have hkinds : ∀ k ∈ LIFECYCLE_KINDS, projected k = true := by decide
    have heq : LIFECYCLE_KINDS.flatMap j.subagentKind = LIFECYCLE_KINDS.flatMap fun k =>
        (Entry.records 0 (es ++ qs)).filter fun v => kindOf v = .str k :=
      List.flatMap_congr fun k hk => h.subagentKind (hkinds k hk)
    rw [heq]
    exact flatMap_kinds_perm _ (by decide)
  obtain ⟨-, hpair⟩ := records_pairwise (es ++ qs) 0
  rw [ConversationJournal.lifecycleRecords]
  have hsorted : ((LIFECYCLE_KINDS.flatMap j.subagentKind).mergeSort fun a b =>
      decide (recordSequence a ≤ recordSequence b)).Pairwise fun a b =>
        decide (recordSequence a ≤ recordSequence b) = true :=
    List.pairwise_mergeSort (by intro a b c; simp; omega) (by intro a b; simp; omega) _
  have hordered : ((Entry.records 0 (es ++ qs)).filter isLifecycle).Pairwise fun a b =>
      decide (recordSequence a ≤ recordSequence b) = true :=
    (hpair.imp fun hlt => decide_eq_true (Int.le_of_lt hlt)).filter _
  refine List.Perm.eq_of_pairwise ?_ hsorted hordered ((List.mergeSort_perm _ _).trans hperm)
  intro a b ha hb hab hba
  have ha' := hperm.subset ((List.mergeSort_perm _ _).subset ha)
  have hnd : ((Entry.records 0 (es ++ qs)).map recordSequence).Nodup :=
    List.pairwise_map.mpr (hpair.imp fun hlt => Int.ne_of_lt hlt)
  exact List.inj_on_of_nodup_map hnd (List.mem_of_mem_filter ha') (List.mem_of_mem_filter hb)
    (Int.le_antisymm (of_decide_eq_true hab) (of_decide_eq_true hba))

/-- The journal is what its entries say. -/
def Healthy (j : ConversationJournal) : Prop := ∃ es qs, j.Numbered es qs

theorem Healthy.write (h : j.Healthy) (e : Entry) : (j.write e {}).1.Healthy := by
  obtain ⟨es, qs, h⟩ := h
  obtain ⟨es', qs', h', -⟩ := h.write e
  exact ⟨es', qs', h'⟩

/-- **A write moves the fold by one record.** -/
theorem Healthy.pools_write (h : j.Healthy) (e : Entry) :
    (j.write e {}).1.pools
      = if e.kind ∈ LIFECYCLE_KINDS then lifecycleEntry j.pools (e.record j.seq) else j.pools := by
  obtain ⟨es, qs, h⟩ := h
  obtain ⟨es', qs', h', happ⟩ := h.write e
  rw [pools, pools, h'.lifecycleRecords, h.lifecycleRecords, happ, Entry.records_append,
    List.filter_append, List.foldl_append, Nat.zero_add, ← h.length, Entry.records, Entry.records]
  by_cases hk : e.kind ∈ LIFECYCLE_KINDS <;> simp [isLifecycle, hk]

theorem Healthy.subagentKind_write (h : j.Healthy) (e : Entry) {kind : String}
    (hk : projected kind = true) : (j.write e {}).1.subagentKind kind
      = j.subagentKind kind ++ if e.kind = kind then [e.record j.seq] else [] := by
  obtain ⟨es, qs, h⟩ := h
  obtain ⟨es', qs', h', happ⟩ := h.write e
  rw [h'.subagentKind hk, h.subagentKind hk, happ, Entry.records_append, List.filter_append,
    Nat.zero_add, ← h.length, Entry.records, Entry.records]
  by_cases he : e.kind = kind <;> simp [he]

theorem Healthy.drain (h : j.Healthy) : (j.drain none).1.Healthy ∧ (j.drain none).1.pools = j.pools := by
  obtain ⟨es, qs, h⟩ := h
  refine ⟨⟨_, _, h.drain⟩, ?_⟩
  rw [pools, pools, h.drain.lifecycleRecords, h.lifecycleRecords, List.append_nil]

theorem Healthy.restart (h : j.Healthy) :
    (opened j.file).Healthy ∧ (opened j.file).pools = j.pools := by
  obtain ⟨es, qs, h⟩ := h
  refine ⟨⟨_, _, h.restart⟩, ?_⟩
  have hqueue : (Entry.records es.length qs).filter isLifecycle = [] := by
    refine List.filter_eq_nil_iff.mpr fun v hv => ?_
    obtain ⟨e, n, he, rfl⟩ := Entry.exists_of_mem_records hv
    rw [isLifecycle, kindOf_record, Entry.advisory_kind (h.queued e he)]
    decide
  rw [pools, pools, h.restart.lifecycleRecords, h.lifecycleRecords, List.append_nil,
    Entry.records_append, List.filter_append, Nat.zero_add, hqueue, List.append_nil]

end ConversationJournal

/-! ## 3. One record of the fold -/

theorem get?_update (k : String) : ∀ (kvs : List (String × Json)) (d : Dict String Json),
    (d.update kvs).get? k = (Json.lookup k kvs).or (d.get? k)
  | [], _ => rfl
  | p :: kvs, d => by
      have ih := get?_update k kvs (d.set p.1 p.2)
      rw [Dict.update] at ih ⊢
      rw [List.foldl_cons, ih, Dict.get?_set, Json.lookup]
      cases Json.lookup k kvs with
      | some w => rfl
      | none => by_cases hk : p.1 = k <;> simp [hk]

namespace Lifecycle

/-- The statuses of a pool that ended. -/
def TERMINAL : List String := ["completed", "stopped", "cancelled", "interrupted"]

def terminal (value : Lifecycle) : Bool :=
  decide (∃ status ∈ TERMINAL, value.field "status" = .str status)

/-- The status, the counts and the text. -/
def outcome (value : Lifecycle) : List Json :=
  ["status", "total", "succeeded", "failed", "text"].map value.field

theorem terminal_of_outcome {v w : Lifecycle} (h : v.outcome = w.outcome) :
    v.terminal = w.terminal := by
  simp only [outcome, List.map_cons, List.cons.injEq] at h
  rw [terminal, terminal, h.1]

theorem not_terminal_of_active {v : Lifecycle} (h : v.active = true) : v.terminal = false := by
  rw [active, Bool.or_eq_true, decide_eq_true_eq, decide_eq_true_eq] at h
  rw [terminal, decide_eq_false_iff_not]
  rcases h with h | h <;> rw [h] <;> decide

theorem field_set (v : Lifecycle) (key key' : String) (w : Json) :
    Lifecycle.field (v.set key w) key' = if key = key' then w else v.field key' := by
  rw [field, Dict.get?_set]
  split <;> rfl

theorem field_update (v : Lifecycle) (kvs : List (String × Json)) (key : String) :
    Lifecycle.field (v.update kvs) key = ((Json.lookup key kvs).or (v.get? key)).getD .null := by
  rw [field, get?_update]

/-- The status a record gives to a pool that is there. -/
def statusAfter (kind : String) (before : Json) : Json :=
  if kind = "subagent_pool_backgrounded" then .str "backgrounded"
  else ((terminalStatus kind).map Json.str).getD before

/-- What a field is after a record that does not bring its own status. -/
theorem field_advance (v : Lifecycle) (e : Entry) (seq : Nat) {key : String}
    (hkey : key ≠ "backgrounded") (hstatus : Json.lookup "status" e.fields = none) :
    (v.advance (e.record seq)).field key
      = if key = "status" then statusAfter e.kind (v.field "status")
        else ((Json.lookup key (recordFields (e.record seq))).or (v.get? key)).getD .null := by
  have hold : ((Json.lookup "status" (recordFields (e.record seq))).or (v.get? "status")).getD .null
      = v.field "status" := by
    simp [recordFields, Entry.record, Json.lookup, hstatus, field]
  have hkind : (e.record seq).get "kind" = .str e.kind := kindOf_record e seq
  have htext : kindText (e.record seq) = e.kind := by simp [kindText, Json.getD]
  unfold advance statusAfter
  by_cases hb : e.kind = "subagent_pool_backgrounded"
  · have hkey' : ¬ "backgrounded" = key := fun h => hkey h.symm
    simp only [hkind, hb, if_true, field_set, hkey', if_false, field_update]
    by_cases hs : key = "status"
    · simp [hs]
    · have hs' : ¬ "status" = key := fun h => hs h.symm
      simp only [hs, hs', if_false]
  · simp only [hkind, Json.str.injEq, hb, if_false, htext]
    cases hterm : terminalStatus e.kind with
    | none =>
        rw [field_update]
        by_cases hs : key = "status"
        · subst hs
          simp [hold]
        · simp [hs]
    | some status =>
        rw [field_set, field_update]
        by_cases hs : key = "status"
        · subst hs
          simp
        · have hs' : ¬ "status" = key := fun h => hs h.symm
          simp [hs, hs']

end Lifecycle

section

variable (latest : Dict String Lifecycle) {record : Json} {poolId : String}

theorem get?_lifecycleEntry_ne (h : record.get "pool_id" = .str poolId) {k : String}
    (hne : k ≠ poolId) : (lifecycleEntry latest record).get? k = latest.get? k := by
  have hne' : poolId ≠ k := fun he => hne he.symm
  rw [lifecycleEntry, h]
  simp only
  split
  · rfl
  · split
    · exact Dict.get?_set_ne _ _ hne'
    · split
      · rfl
      · exact Dict.get?_set_ne _ _ hne'

theorem get?_lifecycleEntry (h : record.get "pool_id" = .str poolId) (hne : poolId ≠ "")
    (hkind : record.get "kind" ≠ .str "subagent_pool_started") :
    (lifecycleEntry latest record).get? poolId
      = (latest.get? poolId).map fun v => v.advance record := by
  rw [lifecycleEntry, h]
  simp only [hne, if_false, hkind]
  cases hl : latest.get? poolId with
  | none => exact hl
  | some v => exact Dict.get?_set_self _ _ _

theorem get?_lifecycleEntry_started (h : record.get "pool_id" = .str poolId) (hne : poolId ≠ "")
    (hkind : record.get "kind" = .str "subagent_pool_started") :
    (lifecycleEntry latest record).get? poolId
      = some (((Dict.empty.update (recordFields record)).set "status" (.str "running")).set
          "backgrounded" (.bool false)) := by
  rw [lifecycleEntry, h]
  simp only [hne, if_false, hkind, if_true]
  exact Dict.get?_set_self _ _ _

theorem lifecycleEntry_empty (h : record.get "pool_id" = .str "") :
    lifecycleEntry latest record = latest := by
  rw [lifecycleEntry, h]
  exact if_pos rfl

end

/-! ## 4. Unfinished workers -/

/-- The ID of a declared task that the loop looks at. -/
def declaredTask (task : Json) : Option String :=
  match task.get "task_id", task.get "agent_type" with
  | .str taskId, .str _ => if taskId = "" then none else some taskId
  | _, _ => none

def Lifecycle.declared (value : Lifecycle) : List String := value.tasks.filterMap declaredTask

theorem workerResult_projected : projected "subagent_worker_result" = true := by decide

namespace ConversationJournal

/-- The results of one worker, in order. -/
def workerResults (j : ConversationJournal) (poolId taskId : String) : List Json :=
  (j.subagentKind "subagent_worker_result").filter fun v =>
    v.get "pool_id" = .str poolId ∧ v.get "task_id" = .str taskId

/-- One record of `latestWorkers`. -/
def workerEntry (poolId : String) (latest : Dict String Json) (record : Json) :
    Dict String Json :=
  match record.get "task_id" with
  | .str taskId => if record.get "pool_id" = .str poolId then latest.set taskId record else latest
  | _ => latest

theorem get?_workerEntry (poolId taskId : String) (latest : Dict String Json) (record : Json) :
    (workerEntry poolId latest record).get? taskId
      = if record.get "pool_id" = .str poolId ∧ record.get "task_id" = .str taskId then some record
        else latest.get? taskId := by
  unfold workerEntry
  split
  · rename_i id hid
    rw [hid]
    by_cases hp : record.get "pool_id" = .str poolId
    · by_cases ht : id = taskId <;> simp [hp, ht, Dict.get?_set]
    · simp [hp]
  · rename_i hid
    rw [if_neg fun h => hid _ h.2]

theorem get?_foldl_workerEntry (poolId taskId : String) : ∀ (vs : List Json)
    (latest : Dict String Json), (vs.foldl (workerEntry poolId) latest).get? taskId
      = ((vs.filter fun v => v.get "pool_id" = .str poolId ∧ v.get "task_id" = .str taskId).getLast?).or
        (latest.get? taskId)
  | [], _ => rfl
  | v :: vs, latest => by
      rw [List.foldl_cons, get?_foldl_workerEntry poolId taskId vs, get?_workerEntry]
      by_cases hv : v.get "pool_id" = .str poolId ∧ v.get "task_id" = .str taskId
      · simp only [hv, and_self, decide_true, List.filter_cons_of_pos, if_true, List.getLast?_cons]
        cases (List.filter (fun v => decide (v.get "pool_id" = .str poolId
          ∧ v.get "task_id" = .str taskId)) vs).getLast? <;> rfl
      · simp [hv]

theorem latestWorkers_get? (j : ConversationJournal) (poolId taskId : String) :
    (j.latestWorkers poolId).get? taskId = (j.workerResults poolId taskId).getLast? := by
  have h := get?_foldl_workerEntry poolId taskId (j.subagentKind "subagent_worker_result") .empty
  rw [Dict.get?_empty, Option.or_none] at h
  exact h

theorem latestWorkers_eq_none {j : ConversationJournal} {poolId taskId : String} :
    (j.latestWorkers poolId).get? taskId = none ↔ (j.workerResults poolId taskId).length = 0 := by
  rw [latestWorkers_get?, List.getLast?_eq_none_iff, List.length_eq_zero_iff]

/-- What settling some tasks of a pool does to the journal. -/
structure Settles (poolId : String) (ids : List String) (j j' : ConversationJournal) : Prop where
  healthy : j'.Healthy
  pools : j'.pools = j.pools
  results : ∀ t, (j'.workerResults poolId t).length
    = if t ∈ ids then max 1 (j.workerResults poolId t).length
      else (j.workerResults poolId t).length
  succeeded : succeededWorkers (j'.latestWorkers poolId) = succeededWorkers (j.latestWorkers poolId)
  others : ∀ k, k ≠ poolId → ∀ t, (j'.workerResults k t).length = (j.workerResults k t).length
  othersLatest : ∀ k, k ≠ poolId → j'.latestWorkers k = j.latestWorkers k

theorem settles_refl {j : ConversationJournal} (h : j.Healthy) (poolId : String) :
    Settles poolId [] j j :=
  ⟨h, rfl, by simp, rfl, fun _ _ _ => rfl, fun _ _ => rfl⟩

theorem Settles.trans {poolId : String} {ids ids' : List String} {a b c : ConversationJournal}
    (hab : Settles poolId ids a b) (hbc : Settles poolId ids' b c) :
    Settles poolId (ids ++ ids') a c := by
  refine ⟨hbc.healthy, hbc.pools.trans hab.pools, fun t => ?_, hbc.succeeded.trans hab.succeeded,
    fun k hk t => (hbc.others k hk t).trans (hab.others k hk t),
    fun k hk => (hbc.othersLatest k hk).trans (hab.othersLatest k hk)⟩
  rw [hbc.results, hab.results]
  by_cases h : t ∈ ids <;> by_cases h' : t ∈ ids' <;> simp [h, h']

theorem settles_present {j : ConversationJournal} (h : j.Healthy) {poolId t : String}
    (ht : (j.latestWorkers poolId).get? t ≠ none) : Settles poolId [t] j j := by
  refine ⟨h, rfl, fun t' => ?_, rfl, fun _ _ _ => rfl, fun _ _ => rfl⟩
  rw [Ne, latestWorkers_eq_none] at ht
  split
  · rename_i hmem
    rw [List.mem_singleton.mp hmem]
    omega
  · rfl

/-- A result that is no success, for a task that had none. -/
structure Unfinishes (poolId t : String) (e : Entry) (seq : Nat) : Prop where
  kind : e.kind = "subagent_worker_result"
  pool : (e.record seq).get "pool_id" = .str poolId
  task : (e.record seq).get "task_id" = .str t
  notOk : (e.record seq).get "ok" = .bool false

section

variable {j : ConversationJournal} {poolId t : String} {e : Entry}

theorem latestWorkers_write (h : j.Healthy) (he : Unfinishes poolId t e j.seq) (k : String) :
    (j.write e {}).1.latestWorkers k
      = if k = poolId then (j.latestWorkers k).set t (e.record j.seq) else j.latestWorkers k := by
  show List.foldl (workerEntry k) _ _ = _
  rw [h.subagentKind_write e workerResult_projected, if_pos he.kind, List.foldl_append,
    List.foldl_cons, List.foldl_nil, workerEntry, he.task]
  simp only [he.pool]
  by_cases hk : k = poolId
  · rw [if_pos (by rw [hk]), if_pos hk]
    rfl
  · have hk' : ¬ Json.str poolId = Json.str k := by
      intro heq
      cases heq
      exact hk rfl
    rw [if_neg hk', if_neg hk]
    rfl

theorem workerResults_write (h : j.Healthy) (he : Unfinishes poolId t e j.seq) (k t' : String) :
    ((j.write e {}).1.workerResults k t').length
      = (j.workerResults k t').length + if poolId = k ∧ t = t' then 1 else 0 := by
  rw [workerResults, h.subagentKind_write e workerResult_projected, if_pos he.kind,
    List.filter_append, List.length_append, List.filter_singleton, he.pool, he.task]
  by_cases hk : poolId = k ∧ t = t' <;> simp [workerResults, hk]

theorem settles_write (h : j.Healthy) (he : Unfinishes poolId t e j.seq)
    (ht : (j.latestWorkers poolId).get? t = none) : Settles poolId [t] j (j.write e {}).1 := by
  refine ⟨h.write e, ?_, fun t' => ?_, ?_, fun k hk t' => ?_, fun k hk => ?_⟩
  · rw [h.pools_write, if_neg]
    rw [he.kind]
    decide
  · rw [workerResults_write h he]
    by_cases htt : t = t'
    · subst htt
      have := latestWorkers_eq_none.mp ht
      rw [if_pos ⟨rfl, rfl⟩, if_pos (List.mem_singleton_self t)]
      omega
    · rw [if_neg fun hc => htt hc.2, if_neg fun hc => htt (List.mem_singleton.mp hc).symm,
        Nat.add_zero]
  · rw [latestWorkers_write h he, if_pos rfl, succeededWorkers, succeededWorkers, Dict.values,
      Dict.items_set_of_none _ ht, List.map_append, List.countP_append]
    simp [he.notOk, Dict.values]
  · rw [workerResults_write h he, if_neg fun hc => hk hc.1.symm, Nat.add_zero]
  · rw [latestWorkers_write h he, if_neg hk]

end

end ConversationJournal

open ConversationJournal

theorem unfinishes_unfinishedWorkerEntry (now zero : PyFloat)
    (poolId fingerprint taskId agentType : String) (index : Nat) (reason : String) (seq : Nat) :
    Unfinishes poolId taskId
      (unfinishedWorkerEntry now zero poolId fingerprint taskId agentType index reason) seq := by
  refine ⟨rfl, ?_, ?_, ?_⟩ <;>
    simp [unfinishedWorkerEntry, poolHead, Entry.record, Json.get, Json.getD, Json.get?,
      Json.lookup]

/-- The loop keeps its table of latest results in step with the journal. -/
structure Unfinished.Synced (poolId : String) (u : Unfinished) : Prop where
  healthy : u.journal.Healthy
  latest : u.latest = u.journal.latestWorkers poolId

/-- **One task** of the loop settles it. -/
theorem Unfinished.Synced.task (clock : Nat → PyFloat) {poolId : String} {u : Unfinished}
    (h : u.Synced poolId) (fingerprint reason : String) (task : Json) :
    (u.task clock poolId fingerprint reason task).Synced poolId
      ∧ Settles poolId (declaredTask task).toList u.journal
          (u.task clock poolId fingerprint reason task).journal := by
  obtain ⟨hh, hl⟩ := h
  unfold Unfinished.task
  split
  · rename_i taskId agentType htask hagent
    by_cases hempty : taskId = ""
    · have hnone : declaredTask task = none := by simp [declaredTask, htask, hagent, hempty]
      rw [hnone, if_pos hempty]
      exact ⟨⟨hh, hl⟩, settles_refl hh poolId⟩
    · have hsome : declaredTask task = some taskId := by
        simp [declaredTask, htask, hagent, hempty]
      rw [hsome, if_neg hempty, Option.toList_some]
      simp only
      cases hget : u.latest.get? taskId with
      | some w =>
          refine ⟨⟨hh, hl⟩, settles_present hh ?_⟩
          rw [← hl, hget]
          simp
      | none =>
          have he := unfinishes_unfinishedWorkerEntry (clock u.journal.seq) zeroFloat poolId
            fingerprint taskId agentType ((u.indices.get? agentType).getD 0 + 1) reason
            u.journal.seq
          refine ⟨⟨hh.write _, ?_⟩, settles_write hh he (hl ▸ hget)⟩
          rw [latestWorkers_write hh he, if_pos rfl, hl]
  · rename_i hno
    have hnone : declaredTask task = none := by
      unfold declaredTask
      split
      · rename_i htask hagent
        exact absurd hagent (hno _ _ htask)
      · rfl
    rw [hnone]
    exact ⟨⟨hh, hl⟩, settles_refl hh poolId⟩

theorem Unfinished.Synced.tasks (clock : Nat → PyFloat) {poolId : String}
    (fingerprint reason : String) (ts : List Json) : ∀ {u : Unfinished}, u.Synced poolId →
    (ts.foldl (Unfinished.task clock poolId fingerprint reason) u).Synced poolId
      ∧ Settles poolId (ts.filterMap declaredTask) u.journal
          (ts.foldl (Unfinished.task clock poolId fingerprint reason) u).journal := by
  induction ts with
  | nil => exact fun h => ⟨h, settles_refl h.healthy poolId⟩
  | cons t ts ih =>
      intro u h
      obtain ⟨hs, hone⟩ := h.task clock fingerprint reason t
      obtain ⟨hs', hrest⟩ := ih hs
      refine ⟨hs', ?_⟩
      have hids : (t :: ts).filterMap declaredTask
          = (declaredTask t).toList ++ ts.filterMap declaredTask := by
        rw [List.filterMap_cons]
        cases declaredTask t <;> rfl
      rw [hids]
      exact hone.trans hrest

/-- **`_record_unfinished_subagent_workers`** settles every declared task. -/
theorem settles_recordUnfinished (py : Interp) (clock : Nat → PyFloat) {j : ConversationJournal}
    (h : j.Healthy) {v : Lifecycle} {poolId : String} (hpool : v.get? "pool_id" = some (.str poolId))
    (reason : String) :
    Settles poolId v.declared j (recordUnfinishedSubagentWorkers py clock j v reason).1
      ∧ (recordUnfinishedSubagentWorkers py clock j v reason).2.total = v.tasks.length
      ∧ (recordUnfinishedSubagentWorkers py clock j v reason).2.succeeded
          = succeededWorkers (j.latestWorkers poolId) := by
  have hstart : (Unfinished.mk j (j.latestWorkers poolId) .empty).Synced poolId := ⟨h, rfl⟩
  obtain ⟨hsync, hsettles⟩ := hstart.tasks clock (pyStr py ((v.get? "fingerprint").getD (.str "")))
    reason v.tasks
  simp only [recordUnfinishedSubagentWorkers, hpool, Option.getD_some, pyStr_str]
  refine ⟨hsettles, trivial, ?_⟩
  rw [hsync.latest, hsettles.succeeded]

/-! ## 5. What a later record does to the pools -/

/-- Every pool stands under its own ID, which is not empty and not cut. -/
def PoolsKeyed (pools : Dict String Lifecycle) : Prop :=
  ∀ k v, pools.get? k = some v →
    k ≠ "" ∧ strTake 128 k = k ∧ v.get? "pool_id" = some (.str k)

/-- The states the journal reaches. -/
structure ConversationJournal.Sound (j : ConversationJournal) : Prop where
  healthy : j.Healthy
  keyed : PoolsKeyed j.pools

/-- A record of a pool behind its start. -/
structure LaterRecord (poolId : String) (e : Entry) : Prop where
  kind : e.kind ∈ LIFECYCLE_KINDS
  later : e.kind ≠ "subagent_pool_started"
  pool : Json.lookup "pool_id" e.fields = some (.str poolId)
  status : Json.lookup "status" e.fields = none

@[simp] theorem strTake_strTake (n : Nat) (s : String) : strTake n (strTake n s) = strTake n s := by
  simp [strTake, List.take_take]

theorem get_record (e : Entry) (seq : Nat) {key : String} (hseq : key ≠ "seq")
    (hkind : key ≠ "kind") : (e.record seq).get key = (Json.lookup key e.fields).getD .null := by
  have hs : ¬ "seq" = key := fun h => hseq h.symm
  have hk : ¬ "kind" = key := fun h => hkind h.symm
  rw [Json.get, Json.getD, Entry.record, Json.get?, Json.lookup, Json.lookup]
  cases Json.lookup key e.fields <;> simp [hs, hk]

section

variable {j : ConversationJournal} {poolId : String} {e : Entry}

theorem LaterRecord.get_pool (he : LaterRecord poolId e) (seq : Nat) :
    (e.record seq).get "pool_id" = .str poolId := by
  rw [get_record e seq (by decide) (by decide), he.pool]
  rfl

theorem LaterRecord.get?_pools (he : LaterRecord poolId e) (h : j.Sound) (k : String) :
    (j.write e {}).1.pools.get? k
      = if k = poolId then (j.pools.get? k).map fun v => v.advance (e.record j.seq)
        else j.pools.get? k := by
  rw [h.healthy.pools_write, if_pos he.kind]
  by_cases hk : k = poolId
  · subst hk
    rw [if_pos rfl]
    by_cases hempty : k = ""
    · subst hempty
      rw [lifecycleEntry_empty _ (he.get_pool j.seq)]
      cases hget : j.pools.get? "" with
      | none => rfl
      | some v => exact absurd rfl (h.keyed _ _ hget).1
    · refine get?_lifecycleEntry _ (he.get_pool j.seq) hempty ?_
      rw [show (e.record j.seq).get "kind" = .str e.kind from kindOf_record e j.seq]
      intro hs
      exact he.later (Json.str.inj hs)
  · rw [if_neg hk, get?_lifecycleEntry_ne _ (he.get_pool j.seq) hk]

theorem LaterRecord.field (he : LaterRecord poolId e) (v : Lifecycle) (seq : Nat) {key : String}
    (hkey : key ∉ ["seq", "kind", "status", "backgrounded"]) :
    (v.advance (e.record seq)).field key
      = ((Json.lookup key e.fields).or (v.get? key)).getD .null := by
  simp only [List.mem_cons, List.not_mem_nil, or_false, not_or] at hkey
  have hs : ¬ "seq" = key := fun h => hkey.1 h.symm
  have hk : ¬ "kind" = key := fun h => hkey.2.1 h.symm
  rw [v.field_advance e seq hkey.2.2.2 he.status, if_neg hkey.2.2.1]
  simp only [recordFields, Entry.record, Json.lookup]
  cases Json.lookup key e.fields <;> simp [hs, hk]

theorem LaterRecord.fieldStatus (he : LaterRecord poolId e) (v : Lifecycle) (seq : Nat) :
    (v.advance (e.record seq)).field "status" = Lifecycle.statusAfter e.kind (v.field "status") := by
  rw [v.field_advance e seq (by decide) he.status, if_pos rfl]

theorem field_eq_str {v : Lifecycle} {key k : String} (h : v.field key = .str k) :
    v.get? key = some (.str k) := by
  rw [Lifecycle.field] at h
  cases hget : v.get? key with
  | none => rw [hget] at h; cases h
  | some w => rw [hget] at h; rw [← h]; rfl

theorem LaterRecord.sound (he : LaterRecord poolId e) (h : j.Sound) : (j.write e {}).1.Sound := by
  refine ⟨h.healthy.write e, fun k v hv => ?_⟩
  rw [he.get?_pools h] at hv
  split at hv
  · rename_i hk
    rw [Option.map_eq_some_iff] at hv
    obtain ⟨w, hw, rfl⟩ := hv
    obtain ⟨hne, htake, -⟩ := h.keyed k w hw
    refine ⟨hne, htake, field_eq_str ?_⟩
    rw [he.field w j.seq (by decide), he.pool, hk]
    rfl
  · exact h.keyed k v hv

end

/-- A record that is not of the lifecycle leaves the pools alone. -/
theorem ConversationJournal.Sound.write_unrelated {j : ConversationJournal} (h : j.Sound) {e : Entry}
    (he : e.kind ∉ LIFECYCLE_KINDS) :
    (j.write e {}).1.Sound ∧ (j.write e {}).1.pools = j.pools := by
  have hp : (j.write e {}).1.pools = j.pools := by rw [h.healthy.pools_write, if_neg he]
  exact ⟨⟨h.healthy.write e, hp ▸ h.keyed⟩, hp⟩

theorem later_backgrounded (now : PyFloat) (poolId : String) (toolResult : List (String × Json)) :
    LaterRecord (strTake 128 poolId) (poolBackgroundedEntry now poolId toolResult) := by
  constructor <;> simp [poolBackgroundedEntry, poolHead, LIFECYCLE_KINDS, Json.lookup]

theorem lookup_valuesField (values : Option (List (List (String × Json)))) {key : String}
    (hkey : key ≠ "values") : Json.lookup key (valuesField values) = none := by
  have hkey' : ¬ "values" = key := fun h => hkey h.symm
  cases values <;> simp [valuesField, Json.lookup, hkey']

theorem later_finished (now : PyFloat) (poolId : String) (result : PoolResult) :
    LaterRecord (strTake 128 poolId) (poolFinishedEntry now poolId result) := by
  constructor <;>
    simp [poolFinishedEntry, poolHead, LIFECYCLE_KINDS, Json.lookup, lookup_valuesField]

theorem later_stopped (now : PyFloat) (poolId : String) (result : PoolResult) (reason : String) :
    LaterRecord (strTake 128 poolId) (poolStoppedEntry now poolId result reason) := by
  constructor <;>
    simp [poolStoppedEntry, poolHead, LIFECYCLE_KINDS, Json.lookup, lookup_valuesField]

theorem later_cancelled (now : PyFloat) (poolId reason : String) (a : Aggregate) :
    LaterRecord (strTake 128 poolId) (poolCancelledEntry now poolId reason a) := by
  constructor <;> simp [poolCancelledEntry, poolHead, LIFECYCLE_KINDS, Json.lookup]

theorem later_interrupted (now : PyFloat) (poolId : String) (a : Aggregate) :
    LaterRecord poolId (poolInterruptedEntry now poolId a) := by
  constructor <;> simp [poolInterruptedEntry, poolHead, LIFECYCLE_KINDS, Json.lookup]

/-! ## 6. Recovery -/

namespace ConversationJournal

/-- A pool that keeps its state and its results. -/
structure Untouched (j j' : ConversationJournal) (k : String) : Prop where
  pool : j'.pools.get? k = j.pools.get? k
  results : ∀ t, (j'.workerResults k t).length = (j.workerResults k t).length
  latest : j'.latestWorkers k = j.latestWorkers k

theorem Untouched.trans {a b c : ConversationJournal} {k : String} (hab : Untouched a b k)
    (hbc : Untouched b c k) : Untouched a c k :=
  ⟨hbc.pool.trans hab.pool, fun t => (hbc.results t).trans (hab.results t),
    hbc.latest.trans hab.latest⟩

/-- A pool whose state `v` recovery closed. -/
structure Interrupted (j j' : ConversationJournal) (k : String) (v : Lifecycle) : Prop where
  pool : ∃ v', j'.pools.get? k = some v' ∧ v'.field "pool_id" = .str k
    ∧ v'.field "status" = .str "interrupted" ∧ v'.field "total" = .int v.tasks.length
    ∧ v'.field "succeeded" = .int (succeededWorkers (j.latestWorkers k))
    ∧ v'.field "failed" = .int (max 0 ((v.tasks.length : Int) - succeededWorkers (j.latestWorkers k)))
  results : ∀ t ∈ v.declared,
    (j'.workerResults k t).length = max 1 (j.workerResults k t).length

theorem Interrupted.untouched {a b c : ConversationJournal} {k : String} {v : Lifecycle}
    (hab : Interrupted a b k v) (hbc : Untouched b c k) : Interrupted a c k v := by
  refine ⟨?_, fun t ht => (hbc.results t).trans (hab.results t ht)⟩
  rw [hbc.pool]
  exact hab.pool

theorem Untouched.interrupted {a b c : ConversationJournal} {k : String} {v : Lifecycle}
    (hab : Untouched a b k) (hbc : Interrupted b c k v) : Interrupted a c k v := by
  obtain ⟨v', hv'⟩ := hbc.pool
  rw [hab.latest] at hv'
  exact ⟨⟨v', hv'⟩, fun t ht => by rw [hbc.results t ht, hab.results t]⟩

/-- A record that is no worker result leaves the results alone. -/
theorem untouchedResults_write {j : ConversationJournal} (h : j.Healthy) {e : Entry}
    (he : e.kind ≠ "subagent_worker_result") (k : String) :
    (∀ t, (j.write e {}).1.workerResults k t = j.workerResults k t)
      ∧ (j.write e {}).1.latestWorkers k = j.latestWorkers k := by
  have hkind := h.subagentKind_write e workerResult_projected
  rw [if_neg he, List.append_nil] at hkind
  constructor
  · intro t
    rw [workerResults, workerResults, hkind]
  · rw [latestWorkers, latestWorkers, hkind]

variable (py : Interp) (clock : Nat → PyFloat)

/-- **One pool** of the recovery that is still active. -/
theorem recoverPool_active {j : ConversationJournal} (h : j.Sound) (ids : List String)
    {k : String} {v : Lifecycle} (hv : j.pools.get? k = some v) (hactive : v.active = true) :
    (recoverPool py clock (j, ids) v).1.Sound
      ∧ Interrupted j (recoverPool py clock (j, ids) v).1 k v
      ∧ ∀ k', k' ≠ k → Untouched j (recoverPool py clock (j, ids) v).1 k' := by
  obtain ⟨hne, -, hpool⟩ := h.keyed k v hv
  have hfield : v.field "pool_id" = .str k := by rw [Lifecycle.field, hpool]; rfl
  obtain ⟨hsettles, htotal, hsucceeded⟩ := settles_recordUnfinished py clock h.healthy hpool
    "interrupted by process restart"
  rw [recoverPool, if_pos hactive, hfield]
  simp only [hne, if_false]
  generalize recordUnfinishedSubagentWorkers py clock j v "interrupted by process restart" = w at *
  obtain ⟨j₁, a⟩ := w
  simp only at hsettles htotal hsucceeded ⊢
  have h₁ : j₁.Sound := ⟨hsettles.healthy, hsettles.pools ▸ h.keyed⟩
  have he := later_interrupted (clock j₁.seq) k a
  have hresults := untouchedResults_write h₁.healthy (e := poolInterruptedEntry (clock j₁.seq) k a)
    (by simp [poolInterruptedEntry])
  refine ⟨he.sound h₁, ⟨⟨v.advance ((poolInterruptedEntry (clock j₁.seq) k a).record j₁.seq), ?_, ?_,
    ?_, ?_, ?_, ?_⟩, fun t ht => ?_⟩, fun k' hk' => ⟨?_, fun t => ?_, ?_⟩⟩
  · rw [he.get?_pools h₁, if_pos rfl, hsettles.pools, hv]
    rfl
  · rw [he.field v j₁.seq (by decide), he.pool]
    rfl
  · rw [he.fieldStatus]
    rfl
  · rw [he.field v j₁.seq (by decide), ← htotal]
    simp [poolInterruptedEntry, poolHead, Json.lookup]
  · rw [he.field v j₁.seq (by decide), ← hsucceeded]
    simp [poolInterruptedEntry, poolHead, Json.lookup]
  · rw [he.field v j₁.seq (by decide), ← hsucceeded, ← htotal]
    simp [poolInterruptedEntry, poolHead, Json.lookup]
  · rw [(hresults k).1 t, hsettles.results, if_pos ht]
  · rw [he.get?_pools h₁, if_neg hk', hsettles.pools]
  · rw [(hresults k').1 t, hsettles.others k' hk']
  · rw [(hresults k').2, hsettles.othersLatest k' hk']

theorem recoverPool_inactive (r : ConversationJournal × List String) {v : Lifecycle}
    (hactive : v.active = false) : recoverPool py clock r v = r := by
  rw [recoverPool, hactive]
  rfl

/-- **The recovery of some pools**: the active ones are closed, everything
else stays. -/
theorem recover_pools (items : List (String × Lifecycle)) : ∀ {j : ConversationJournal}
    (ids : List String), j.Sound → (items.map Prod.fst).Nodup →
    (∀ p ∈ items, j.pools.get? p.1 = some p.2) →
    let j' := ((items.map Prod.snd).foldl (recoverPool py clock) (j, ids)).1
    j'.Sound ∧ (∀ k, k ∉ items.map Prod.fst → Untouched j j' k)
      ∧ (∀ p ∈ items, p.2.active = true → Interrupted j j' p.1 p.2)
      ∧ ∀ p ∈ items, p.2.active = false → Untouched j j' p.1 := by
  have hrefl : ∀ (j : ConversationJournal) k, Untouched j j k := fun j k => ⟨rfl, fun _ => rfl, rfl⟩
  induction items with
  | nil => exact fun ids h _ _ => ⟨h, fun k _ => hrefl _ k, by simp, by simp⟩
  | cons p items ih =>
      intro j ids h hnd hget
      obtain ⟨k, v⟩ := p
      rw [List.map_cons, List.nodup_cons] at hnd
      have hv : j.pools.get? k = some v := hget (k, v) (by simp)
      have hrest : ∀ q ∈ items, j.pools.get? q.1 = some q.2 := fun q hq => hget q (by simp [hq])
      have hfresh : ∀ q ∈ items, q.1 ≠ k := by
        intro q hq he
        exact hnd.1 (List.mem_map.mpr ⟨q, hq, he⟩)
      rw [List.map_cons, List.foldl_cons]
      cases hactive : v.active with
      | false =>
          rw [recoverPool_inactive py clock _ hactive]
          obtain ⟨hs, hother, hact, hinact⟩ := ih ids h hnd.2 hrest
          refine ⟨hs, fun k' hk' => hother k' fun hm => hk' (by simp [hm]), ?_, ?_⟩
          · intro q hq hqa
            rcases List.mem_cons.mp hq with rfl | hq
            · exact absurd (hactive.symm.trans hqa) (by decide)
            · exact hact q hq hqa
          · intro q hq hqa
            rcases List.mem_cons.mp hq with rfl | hq
            · exact hother k hnd.1
            · exact hinact q hq hqa
      | true =>
          obtain ⟨hs₁, hclosed, hkeep⟩ := recoverPool_active py clock h ids hv hactive
          generalize recoverPool py clock (j, ids) v = r at *
          obtain ⟨j₁, ids₁⟩ := r
          simp only at hs₁ hclosed hkeep
          have hrest₁ : ∀ q ∈ items, j₁.pools.get? q.1 = some q.2 := by
            intro q hq
            rw [(hkeep q.1 (hfresh q hq)).pool]
            exact hrest q hq
          obtain ⟨hs, hother, hact, hinact⟩ := ih ids₁ hs₁ hnd.2 hrest₁
          refine ⟨hs, fun k' hk' => ?_, ?_, ?_⟩
          · rw [List.map_cons, List.mem_cons, not_or] at hk'
            exact (hkeep k' hk'.1).trans (hother k' hk'.2)
          · intro q hq hqa
            rcases List.mem_cons.mp hq with rfl | hq
            · exact hclosed.untouched (hother k hnd.1)
            · exact (hkeep q.1 (hfresh q hq)).interrupted (hact q hq hqa)
          · intro q hq hqa
            rcases List.mem_cons.mp hq with rfl | hq
            · exact absurd (hactive.symm.trans hqa) (by decide)
            · exact (hkeep q.1 (hfresh q hq)).trans (hinact q hq hqa)

theorem recover_spec {j : ConversationJournal} (h : j.Sound) :
    let j' := (recoverInterruptedSubagentPools py clock j).1
    j'.Sound ∧ (∀ k v, j.pools.get? k = some v → v.active = true → Interrupted j j' k v)
      ∧ ∀ k, (∀ v, j.pools.get? k = some v → v.active = false) → Untouched j j' k := by
  obtain ⟨hs, hother, hact, hinact⟩ := recover_pools py clock j.pools.items [] h j.pools.nodup
    fun p hp => Dict.mem_items_iff.mp hp
  refine ⟨hs, fun k v hv ha => hact (k, v) (Dict.mem_items_iff.mpr hv) ha, fun k hk => ?_⟩
  by_cases hmem : k ∈ j.pools.items.map Prod.fst
  · obtain ⟨⟨k', v⟩, hp, rfl⟩ := List.mem_map.mp hmem
    exact hinact (k', v) hp (hk v (Dict.mem_items_iff.mp hp))
  · exact hother k hmem

theorem recover_inactive {j : ConversationJournal} (h : j.Sound) :
    ∀ v ∈ (recoverInterruptedSubagentPools py clock j).1.foldSubagentPoolLifecycle,
      v.active = false := by
  obtain ⟨-, hact, hkeep⟩ := recover_spec py clock h
  intro v' hv'
  obtain ⟨k, hk⟩ := Dict.mem_values_iff.mp hv'
  cases hget : j.pools.get? k with
  | none =>
      have hu := hkeep k (by simp [hget])
      rw [hu.pool, hget] at hk
      cases hk
  | some v =>
      cases ha : v.active with
      | true =>
          obtain ⟨w, hw, -, hstatus, -⟩ := (hact k v hget ha).pool
          obtain rfl : w = v' := Option.some.inj (hw.symm.trans hk)
          rw [Lifecycle.active, hstatus]
          decide
      | false =>
          have hu := hkeep k (by simp [hget, ha])
          rw [hu.pool, hget] at hk
          obtain rfl : v = v' := Option.some.inj hk
          exact ha

theorem recover_twice {j : ConversationJournal} (h : j.Sound) :
    recoverInterruptedSubagentPools py clock (recoverInterruptedSubagentPools py clock j).1
      = ((recoverInterruptedSubagentPools py clock j).1, []) := by
  have hnone := recover_inactive py clock h
  generalize (recoverInterruptedSubagentPools py clock j).1 = j' at hnone ⊢
  have hloop : ∀ (vs : List Lifecycle) (r : ConversationJournal × List String),
      (∀ v ∈ vs, v.active = false) → vs.foldl (recoverPool py clock) r = r := by
    intro vs
    induction vs with
    | nil => intro r _; rfl
    | cons v vs ih =>
        intro r hvs
        rw [List.foldl_cons, recoverPool_inactive py clock r (hvs v (by simp))]
        exact ih r fun w hw => hvs w (by simp [hw])
  exact hloop _ _ hnone

end ConversationJournal

/-! ## 7. When outcomes are final -/

namespace ConversationJournal

variable (py : Interp) (clock : Nat → PyFloat)

/-- The finish of an explicit retry of the pool. -/
def PoolOp.retries (k : String) : PoolOp → Prop
  | .finished poolId _ true => strTake 128 poolId = k
  | _ => False

/-- A pool that ended keeps its status, its counts and its text. -/
def OutcomeKept (j j' : ConversationJournal) (k : String) : Prop :=
  ∀ v, j.pools.get? k = some v → v.terminal = true →
    ∃ v', j'.pools.get? k = some v' ∧ v'.outcome = v.outcome

/-- What recovery owes the pools it finds active. -/
structure RecoverLaw (j : ConversationJournal) : Prop where
  idempotent :
    recoverInterruptedSubagentPools py clock (recoverInterruptedSubagentPools py clock j).1
      = ((recoverInterruptedSubagentPools py clock j).1, [])
  results : ∀ k v, j.pools.get? k = some v → v.active = true → ∀ t ∈ v.declared,
    (((recoverInterruptedSubagentPools py clock j).1.latestWorkers k).get? t).isSome = true
      ∧ ((recoverInterruptedSubagentPools py clock j).1.workerResults k t).length
        = max 1 (j.workerResults k t).length
  counts : ∀ k v, j.pools.get? k = some v → v.active = true →
    ∃ v' total succeeded failed, (recoverInterruptedSubagentPools py clock j).1.pools.get? k = some v'
      ∧ v'.field "status" = .str "interrupted" ∧ v'.field "total" = .int total
      ∧ v'.field "succeeded" = .int succeeded ∧ v'.field "failed" = .int failed
      ∧ total = succeeded + failed

/-- **The law of a run**: whatever is called later, an outcome stays; and each
recovery keeps its own law. -/
structure OutcomesFinal (j : ConversationJournal) (ops : List PoolOp) : Prop where
  outcome : ∀ pre mid post, ops = pre ++ mid ++ post → ∀ k, (∀ op ∈ mid, ¬ op.retries k) →
    OutcomeKept (pre.foldl (poolStep py clock) j) ((pre ++ mid).foldl (poolStep py clock) j) k
  recover : ∀ pre post, ops = pre ++ .recover :: post →
    RecoverLaw py clock (pre.foldl (poolStep py clock) j)

/-- The fold reports the pool as ended. -/
def Ended (j : ConversationJournal) (k : String) : Prop :=
  ∃ v, j.pools.get? k = some v ∧ v.terminal = true

/-- The outcome a finish records. -/
def PoolResult.outcome (result : PoolResult) : List Json :=
  [.str "completed", .int (max 0 result.total), .int (max 0 result.succeeded),
    .int (max 0 result.failed), .str result.text]

/-- The calls that cannot spoil an outcome: a start or a receipt of a pool that
has not ended, a finish that says again what is known, and a recovery of pools
with no more successes than tasks. -/
def PoolStepOk (j : ConversationJournal) : PoolOp → Prop
  | .started poolId _ _ _ => ¬ j.Ended (strTake 128 poolId)
  | .backgrounded poolId _ => ¬ j.Ended (strTake 128 poolId)
  | .finished poolId result retry => retry = true ∨ ∀ v,
      j.pools.get? (strTake 128 poolId) = some v → v.terminal = true →
        v.outcome = PoolResult.outcome result
  | .recover => ∀ k v, j.pools.get? k = some v → v.active = true →
      succeededWorkers (j.latestWorkers k) ≤ v.tasks.length
  | _ => True

theorem outcomeKept_of_eq {j j' : ConversationJournal} {k : String}
    (h : j'.pools.get? k = j.pools.get? k) : OutcomeKept j j' k :=
  fun v hv _ => ⟨v, h.trans hv, rfl⟩

theorem OutcomeKept.trans {a b c : ConversationJournal} {k : String} (hab : OutcomeKept a b k)
    (hbc : OutcomeKept b c k) : OutcomeKept a c k := by
  intro v hv ht
  obtain ⟨v', hv', ho⟩ := hab v hv ht
  obtain ⟨v'', hv'', ho'⟩ := hbc v' hv' ((Lifecycle.terminal_of_outcome ho).trans ht)
  exact ⟨v'', hv'', ho'.trans ho⟩

/-- What puts a pool back to active keeps the outcomes of pools that have not
ended, and no others. -/
theorem kept_iff_not_ended {j j' : ConversationJournal} {k₀ : String}
    (hother : ∀ k, k ≠ k₀ → j'.pools.get? k = j.pools.get? k)
    (hback : ∀ v, j.pools.get? k₀ = some v → ∃ v', j'.pools.get? k₀ = some v' ∧ v'.active = true) :
    (∀ k, OutcomeKept j j' k) ↔ ¬ j.Ended k₀ := by
  constructor
  · rintro hkept ⟨v, hv, ht⟩
    obtain ⟨w, hw, hactive⟩ := hback v hv
    obtain ⟨v', hv', ho⟩ := hkept k₀ v hv ht
    obtain rfl : w = v' := Option.some.inj (hw.symm.trans hv')
    have := Lifecycle.terminal_of_outcome ho
    rw [ht, Lifecycle.not_terminal_of_active hactive] at this
    cases this
  · intro hended k
    by_cases hk : k = k₀
    · subst hk
      exact fun v hv ht => absurd ⟨v, hv, ht⟩ hended
    · exact outcomeKept_of_eq (hother k hk)

/-! ### The writers that do not look -/

section

variable {j : ConversationJournal} (h : j.Sound)

/-- What a start leaves under its pool. -/
def startedLifecycle (e : Entry) (seq : Nat) : Lifecycle :=
  ((Dict.empty.update (recordFields (e.record seq))).set "status" (.str "running")).set
    "backgrounded" (.bool false)

theorem startedLifecycle_active (e : Entry) (seq : Nat) :
    (startedLifecycle e seq).active = true := by
  have hstatus : (startedLifecycle e seq).field "status" = .str "running" := by
    rw [startedLifecycle, Lifecycle.field_set, Lifecycle.field_set, if_neg (by decide), if_pos rfl]
  rw [Lifecycle.active, hstatus]
  rfl

theorem outcome_finished (now : PyFloat) (poolId : String) (result : PoolResult) (v : Lifecycle)
    (seq : Nat) : (v.advance ((poolFinishedEntry now poolId result).record seq)).outcome
      = PoolResult.outcome result := by
  have he := later_finished now poolId result
  simp only [Lifecycle.outcome, List.map_cons, List.map_nil, he.fieldStatus]
  rw [he.field v seq (by decide), he.field v seq (by decide), he.field v seq (by decide),
    he.field v seq (by decide)]
  simp [poolFinishedEntry, poolHead, Json.lookup, lookup_valuesField, PoolResult.outcome,
    Lifecycle.statusAfter, terminalStatus]

include h

theorem get?_pools_started (now : PyFloat) (poolId fingerprint parentRunId : String)
    (tasks : List (List (String × String))) (k : String) :
    let e := poolStartedEntry now poolId fingerprint parentRunId tasks
    (j.write e {}).1.pools.get? k
      = if k = strTake 128 poolId ∧ k ≠ "" then some (startedLifecycle e j.seq)
        else j.pools.get? k := by
  intro e
  have hpool : (e.record j.seq).get "pool_id" = .str (strTake 128 poolId) := by
    rw [get_record e j.seq (by decide) (by decide)]
    simp [e, poolStartedEntry, poolHead, Json.lookup]
  have hkind : (e.record j.seq).get "kind" = .str "subagent_pool_started" := kindOf_record e j.seq
  rw [h.healthy.pools_write, if_pos (by simp [e, poolStartedEntry, LIFECYCLE_KINDS])]
  by_cases hk : k = strTake 128 poolId
  · by_cases hempty : k = ""
    · rw [if_neg fun hc => hc.2 hempty, lifecycleEntry_empty]
      rw [hpool, ← hk, hempty]
    · rw [if_pos ⟨hk, hempty⟩, hk]
      exact get?_lifecycleEntry_started _ hpool (hk ▸ hempty) hkind
  · rw [if_neg fun hc => hk hc.1, get?_lifecycleEntry_ne _ hpool hk]

theorem sound_started (now : PyFloat) (poolId fingerprint parentRunId : String)
    (tasks : List (List (String × String))) :
    (j.write (poolStartedEntry now poolId fingerprint parentRunId tasks) {}).1.Sound := by
  refine ⟨h.healthy.write _, fun k v hv => ?_⟩
  rw [get?_pools_started h] at hv
  split at hv
  · rename_i hk
    obtain ⟨rfl, hne⟩ := hk
    refine ⟨hne, strTake_strTake _ _, ?_⟩
    obtain rfl := Option.some.inj hv
    rw [startedLifecycle, Dict.get?_set_ne _ _ (by decide), Dict.get?_set_ne _ _ (by decide),
      get?_update]
    simp [recordFields, Entry.record, poolStartedEntry, poolHead, Json.lookup]
  · exact h.keyed k v hv

theorem kept_started_iff (now : PyFloat) (poolId fingerprint parentRunId : String)
    (tasks : List (List (String × String))) :
    (∀ k, OutcomeKept j
        (j.write (poolStartedEntry now poolId fingerprint parentRunId tasks) {}).1 k)
      ↔ ¬ j.Ended (strTake 128 poolId) := by
  refine kept_iff_not_ended (fun k hk => ?_) fun v hv => ?_
  · rw [get?_pools_started h, if_neg fun hc => hk hc.1]
  · rw [get?_pools_started h, if_pos ⟨rfl, (h.keyed _ v hv).1⟩]
    exact ⟨_, rfl, startedLifecycle_active _ _⟩

theorem kept_backgrounded_iff (now : PyFloat) (poolId : String) (toolResult : List (String × Json)) :
    (∀ k, OutcomeKept j (j.write (poolBackgroundedEntry now poolId toolResult) {}).1 k)
      ↔ ¬ j.Ended (strTake 128 poolId) := by
  have he := later_backgrounded now poolId toolResult
  refine kept_iff_not_ended (fun k hk => ?_) fun v hv => ?_
  · rw [he.get?_pools h, if_neg hk]
  · rw [he.get?_pools h, if_pos rfl, hv]
    refine ⟨_, rfl, ?_⟩
    have hstatus := he.fieldStatus v j.seq
    rw [Lifecycle.active, hstatus]
    rfl

theorem kept_finished_iff (now : PyFloat) (poolId : String) (result : PoolResult) :
    (∀ k, OutcomeKept j (j.write (poolFinishedEntry now poolId result) {}).1 k)
      ↔ ∀ v, j.pools.get? (strTake 128 poolId) = some v → v.terminal = true →
          v.outcome = PoolResult.outcome result := by
  have he := later_finished now poolId result
  constructor
  · intro hkept v hv ht
    obtain ⟨v', hv', ho⟩ := hkept _ v hv ht
    rw [he.get?_pools h, if_pos rfl, hv] at hv'
    obtain rfl := Option.some.inj hv'
    rw [← ho, outcome_finished]
  · intro hsame k v hv ht
    rw [he.get?_pools h, hv]
    by_cases hk : k = strTake 128 poolId
    · subst hk
      rw [if_pos rfl]
      exact ⟨_, rfl, by rw [outcome_finished, hsame v hv ht]⟩
    · rw [if_neg hk]
      exact ⟨v, rfl, rfl⟩

theorem ended_finished (now : PyFloat) (poolId : String) (result : PoolResult) {v : Lifecycle}
    (hv : j.pools.get? (strTake 128 poolId) = some v) :
    (j.write (poolFinishedEntry now poolId result) {}).1.Ended (strTake 128 poolId) := by
  have he := later_finished now poolId result
  have hstatus := he.fieldStatus v j.seq
  refine ⟨v.advance ((poolFinishedEntry now poolId result).record j.seq), ?_, ?_⟩
  · rw [he.get?_pools h, if_pos rfl, hv]
    rfl
  · rw [Lifecycle.terminal, hstatus]
    rfl

/-! ### The writers that look at the status first -/

theorem findLifecycle_spec {poolId : String} {v : Lifecycle}
    (hfind : j.findLifecycle poolId = some v) : j.pools.get? poolId = some v := by
  have hmem := List.mem_of_find?_eq_some hfind
  have hid := List.find?_some hfind
  obtain ⟨k, hk⟩ := Dict.mem_values_iff.mp hmem
  rw [decide_eq_true_eq] at hid
  have hk' := (h.keyed k v hk).2.2
  rw [field_eq_str hid] at hk'
  cases hk'
  exact hk

theorem kept_closed {poolId : String} {v : Lifecycle} (hv : j.pools.get? poolId = some v)
    (hactive : v.active = true) (reason : String) (entry : ConversationJournal → Aggregate → Entry)
    (he : ∀ j₁ a, LaterRecord (strTake 128 poolId) (entry j₁ a)) :
    let w := recordUnfinishedSubagentWorkers py clock j v reason
    (w.1.write (entry w.1 w.2) {}).1.Sound
      ∧ ∀ k, OutcomeKept j (w.1.write (entry w.1 w.2) {}).1 k := by
  intro w
  obtain ⟨-, htake, hpool⟩ := h.keyed poolId v hv
  obtain ⟨hsettles, -⟩ := settles_recordUnfinished py clock h.healthy hpool reason
  have h₁ : w.1.Sound := ⟨hsettles.healthy, hsettles.pools ▸ h.keyed⟩
  refine ⟨(he w.1 w.2).sound h₁, fun k v' hv' ht => ?_⟩
  have hne : k ≠ strTake 128 poolId := by
    rintro rfl
    rw [htake, hv] at hv'
    obtain rfl := Option.some.inj hv'
    rw [Lifecycle.not_terminal_of_active hactive] at ht
    cases ht
  rw [(he w.1 w.2).get?_pools h₁, if_neg hne, hsettles.pools]
  exact ⟨v', hv', rfl⟩

theorem kept_stopped (poolId : String) (result : PoolResult) (reason : String) :
    (subagentPoolStopped py clock j poolId result reason).Sound
      ∧ ∀ k, OutcomeKept j (subagentPoolStopped py clock j poolId result reason) k := by
  unfold subagentPoolStopped
  cases hfind : j.findLifecycle poolId with
  | none => exact ⟨h, fun k => outcomeKept_of_eq rfl⟩
  | some v =>
      cases hactive : v.active with
      | false =>
          simp only [hactive, Bool.false_eq_true, if_false]
          exact ⟨h, fun k => outcomeKept_of_eq rfl⟩
      | true =>
          simp only [hactive, if_true]
          exact kept_closed py clock h (findLifecycle_spec h hfind) hactive _
            (fun j₁ _ => poolStoppedEntry (clock j₁.seq) poolId result reason)
            fun j₁ _ => later_stopped (clock j₁.seq) poolId result reason

theorem kept_cancelled (poolId reason : String) :
    (subagentPoolCancelled py clock j poolId reason).Sound
      ∧ ∀ k, OutcomeKept j (subagentPoolCancelled py clock j poolId reason) k := by
  unfold subagentPoolCancelled
  cases hfind : j.findLifecycle poolId with
  | none => exact ⟨h, fun k => outcomeKept_of_eq rfl⟩
  | some v =>
      cases hactive : v.active with
      | false =>
          simp only [hactive, Bool.false_eq_true, if_false]
          exact ⟨h, fun k => outcomeKept_of_eq rfl⟩
      | true =>
          simp only [hactive, if_true]
          exact kept_closed py clock h (findLifecycle_spec h hfind) hactive _
            (fun j₁ a => poolCancelledEntry (clock j₁.seq) poolId reason a)
            fun j₁ a => later_cancelled (clock j₁.seq) poolId reason a

theorem kept_recover (k : String) :
    OutcomeKept j (recoverInterruptedSubagentPools py clock j).1 k := by
  obtain ⟨-, -, hkeep⟩ := recover_spec py clock h
  intro v hv ht
  have hinactive : v.active = false := by
    by_contra hactive
    rw [Bool.not_eq_false] at hactive
    rw [Lifecycle.not_terminal_of_active hactive] at ht
    cases ht
  have hall : ∀ w, j.pools.get? k = some w → w.active = false := by
    intro w hw
    obtain rfl : v = w := Option.some.inj (hv.symm.trans hw)
    exact hinactive
  exact outcomeKept_of_eq (hkeep k hall).pool v hv ht

/-- Recovery keeps its law exactly when no pool has more successes than
tasks. -/
theorem recoverLaw_iff : RecoverLaw py clock j ↔ PoolStepOk j .recover := by
  obtain ⟨-, hact, -⟩ := recover_spec py clock h
  constructor
  · intro hlaw k v hv ha
    obtain ⟨v', total, succeeded, failed, hv', -, ht, hs, hf, hsum⟩ := hlaw.counts k v hv ha
    obtain ⟨w, hw, -, -, ht', hs', hf'⟩ := (hact k v hv ha).pool
    obtain rfl : v' = w := Option.some.inj (hv'.symm.trans hw)
    rw [ht] at ht'
    rw [hs] at hs'
    rw [hf] at hf'
    have h1 := Json.int.inj ht'
    have h2 := Json.int.inj hs'
    have h3 := Json.int.inj hf'
    omega
  · intro hok
    refine ⟨recover_twice py clock h, fun k v hv ha t ht => ?_, fun k v hv ha => ?_⟩
    · have hr := (hact k v hv ha).results t ht
      refine ⟨?_, hr⟩
      rw [Option.isSome_iff_ne_none, Ne, latestWorkers_eq_none]
      omega
    · obtain ⟨w, hw, -, hst, ht, hs, hf⟩ := (hact k v hv ha).pool
      have := hok k v hv ha
      exact ⟨w, _, _, _, hw, hst, ht, hs, hf, by omega⟩

/-! ### Steps and runs -/

theorem Sound.poolStep (op : PoolOp) : (poolStep py clock j op).Sound := by
  cases op with
  | started poolId fingerprint parentRunId tasks => exact sound_started h _ _ _ _ _
  | backgrounded poolId toolResult => exact (later_backgrounded _ poolId toolResult).sound h
  | finished poolId result retry => exact (later_finished _ poolId result).sound h
  | stopped poolId result reason => exact (kept_stopped py clock h poolId result reason).1
  | cancelled poolId reason => exact (kept_cancelled py clock h poolId reason).1
  | recover => exact (recover_spec py clock h).1
  | record e unrelated => exact (h.write_unrelated unrelated).1
  | writerBatch =>
      obtain ⟨hh, hp⟩ := h.healthy.drain
      exact ⟨hh, hp ▸ h.keyed⟩
  | restart =>
      obtain ⟨hh, hp⟩ := h.healthy.restart
      exact ⟨hh, hp ▸ h.keyed⟩

/-- What one call owes: the outcomes of the pools it is no retry of, and the
law of recovery. -/
def StepFinal (j : ConversationJournal) (op : PoolOp) : Prop :=
  (∀ k, ¬ op.retries k → OutcomeKept j (ConversationJournal.poolStep py clock j op) k)
    ∧ ∀ _ : op = .recover, RecoverLaw py clock j

/-- **One call** keeps its law exactly under the condition. -/
theorem Sound.stepFinal_iff (op : PoolOp) : StepFinal py clock j op ↔ PoolStepOk j op := by
  cases op with
  | started poolId fingerprint parentRunId tasks =>
      refine Iff.trans ?_ (kept_started_iff h (clock j.seq) poolId fingerprint parentRunId tasks)
      exact ⟨fun hf k => hf.1 k id, fun hk => ⟨fun k _ => hk k, fun he => by cases he⟩⟩
  | backgrounded poolId toolResult =>
      refine Iff.trans ?_ (kept_backgrounded_iff h (clock j.seq) poolId toolResult)
      exact ⟨fun hf k => hf.1 k id, fun hk => ⟨fun k _ => hk k, fun he => by cases he⟩⟩
  | finished poolId result retry =>
      have hiff := kept_finished_iff h (clock j.seq) poolId result
      cases retry with
      | true =>
          refine ⟨fun _ => Or.inl rfl, fun _ => ⟨fun k hk => outcomeKept_of_eq ?_, fun he => by cases he⟩⟩
          exact ((later_finished (clock j.seq) poolId result).get?_pools h k).trans
            (if_neg fun heq => hk heq.symm)
      | false =>
          constructor
          · exact fun hf => Or.inr (hiff.mp fun k => hf.1 k id)
          · intro hok
            have hsame := hok.resolve_left Bool.false_ne_true
            exact ⟨fun k _ => hiff.mpr hsame k, fun he => by cases he⟩
  | stopped poolId result reason =>
      exact ⟨fun _ => trivial, fun _ => ⟨fun k _ =>
        (kept_stopped py clock h poolId result reason).2 k, fun he => by cases he⟩⟩
  | cancelled poolId reason =>
      exact ⟨fun _ => trivial, fun _ => ⟨fun k _ =>
        (kept_cancelled py clock h poolId reason).2 k, fun he => by cases he⟩⟩
  | recover =>
      refine Iff.trans ?_ (recoverLaw_iff py clock h)
      exact ⟨fun hf => hf.2 rfl, fun hlaw => ⟨fun k _ => kept_recover py clock h k, fun _ => hlaw⟩⟩
  | record e unrelated =>
      exact ⟨fun _ => trivial, fun _ => ⟨fun k _ => outcomeKept_of_eq
        (congrArg (·.get? k) (h.write_unrelated unrelated).2), fun he => by cases he⟩⟩
  | writerBatch =>
      exact ⟨fun _ => trivial, fun _ => ⟨fun k _ => outcomeKept_of_eq
        (congrArg (·.get? k) h.healthy.drain.2), fun he => by cases he⟩⟩
  | restart =>
      exact ⟨fun _ => trivial, fun _ => ⟨fun k _ => outcomeKept_of_eq
        (congrArg (·.get? k) h.healthy.restart.2), fun he => by cases he⟩⟩

end

theorem sound_new : (opened []).Sound := by
  refine ⟨⟨[], [], numbered_new⟩, ?_⟩
  rw [pools, numbered_new.lifecycleRecords]
  intro k v hv
  cases hv

/-- The calls of a run in a row keep an outcome when each keeps it. -/
theorem outcomeKept_run {k : String} : ∀ (mid : List PoolOp) {j : ConversationJournal}, j.Sound →
    Runs.RunOk (ConversationJournal.poolStep py clock) PoolStepOk j mid →
    (∀ op ∈ mid, ¬ op.retries k) →
    OutcomeKept j (mid.foldl (ConversationJournal.poolStep py clock) j) k
  | [], j, _, _, _ => outcomeKept_of_eq rfl
  | op :: mid, j, h, hok, hretry => by
      have hone := ((h.stepFinal_iff py clock op).mpr hok.1).1 k (hretry op (by simp))
      exact hone.trans (outcomeKept_run mid (h.poolStep py clock op) hok.2
        fun op' hop => hretry op' (by simp [hop]))

/-- **Outcomes are final exactly in the runs whose calls all meet the
condition.** -/
theorem outcomesFinal_iff (ops : List PoolOp) : OutcomesFinal py clock (opened []) ops
    ↔ Runs.RunOk (ConversationJournal.poolStep py clock) PoolStepOk (opened []) ops := by
  have hsound : ∀ pre : List PoolOp,
      (pre.foldl (ConversationJournal.poolStep py clock) (opened [])).Sound :=
    fun pre => Runs.invariant (fun j op h => h.poolStep py clock op) pre sound_new
  constructor
  · intro hfinal
    rw [Runs.runOk_iff]
    intro pre op post heq
    refine ((hsound pre).stepFinal_iff py clock op).mp ⟨fun k hk => ?_, fun hop => ?_⟩
    · have hkept := hfinal.outcome pre [op] post (by rw [heq, List.append_assoc]; rfl) k
        (by simpa using hk)
      rwa [List.foldl_append] at hkept
    · subst hop
      exact hfinal.recover pre post heq
  · intro hok
    rw [Runs.runOk_iff] at hok
    refine ⟨fun pre mid post heq k hretry => ?_, fun pre post heq => ?_⟩
    · rw [List.foldl_append]
      refine outcomeKept_run py clock mid (hsound pre) (Runs.runOk_iff.mpr ?_) hretry
      intro pre' op post' heq'
      have := hok (pre ++ pre') op (post' ++ post) (by rw [heq, heq']; simp)
      rwa [List.foldl_append] at this
    · exact ((hsound pre).stepFinal_iff py clock .recover).mpr (hok pre .recover post heq) |>.2 rfl

end ConversationJournal

/-- A pool that finishes before its receipt is recorded. -/
def lateReceipt : List PoolOp :=
  [.started "p" "" "" [], .finished "p" { total := 1, succeeded := 1, failed := 0, text := "ok" } false,
    .backgrounded "p" []]

/-- The receipt puts the finished pool back to active. -/
theorem not_outcomesFinal_lateReceipt :
    ¬ OutcomesFinal plainInterp (fun _ => zeroFloat) (opened []) lateReceipt := by
  intro hfinal
  have h₁ := sound_new.poolStep plainInterp (fun _ => zeroFloat) (.started "p" "" "" [])
  have hpool := (get?_pools_started sound_new zeroFloat "p" "" "" [] "p").trans
    (if_pos (by decide))
  have hended := ended_finished h₁ zeroFloat "p" ⟨1, 1, 0, "ok", none⟩ hpool
  have hkept := hfinal.outcome (lateReceipt.take 2) [.backgrounded "p" []] [] rfl
  refine (kept_backgrounded_iff (h₁.poolStep plainInterp (fun _ => zeroFloat)
    (.finished "p" ⟨1, 1, 0, "ok", none⟩ false)) zeroFloat "p" []).mp (fun k => ?_) hended
  exact hkept k (by simp [PoolOp.retries])

end Agenthicc.Memory
