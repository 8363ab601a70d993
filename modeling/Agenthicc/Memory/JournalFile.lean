/-
Agenthicc.Memory.JournalFile — the file under the conversation journal: the
records, the handle that writes them and the loop that reads them.

The handle has two paths to the file. A durable record is written under the
lock and cut off again when the write or the `fsync` fails; an advisory one
is queued, and whoever next holds the lock writes the queue. Every operation
here is one section under that lock.

A fault says how many bytes `os.write` takes before it raises. An `fsync`
that raises on the advisory path is only logged, so it is no fault here.
-/
import Agenthicc.Python.Builtins
import Agenthicc.Python.JsonLines

namespace Agenthicc.Memory

open Python

/-! ## 1. Records -/

/-- A record as its writer builds it, without the sequence number. -/
structure Entry where
  kind : String
  fields : List (String × Json)
  /-- The keys are those of a dictionary display: "seq" and "kind" come first. -/
  own : ∀ p ∈ fields, p.1 ≠ "seq" ∧ p.1 ≠ "kind" := by simp

namespace Entry

/-- `{"seq": self._seq, "kind": kind, …}`. -/
def record (e : Entry) (seq : Nat) : Json :=
  .obj (("seq", .int seq) :: ("kind", .str e.kind) :: e.fields)

/-- The records of consecutive writes. -/
def records : Nat → List Entry → List Json
  | _, [] => []
  | seq, e :: es => e.record seq :: records (seq + 1) es

theorem lookup_eq_none {k : String} : ∀ {kvs : List (String × Json)}, (∀ p ∈ kvs, p.1 ≠ k) →
    Json.lookup k kvs = none
  | [], _ => rfl
  | (k', v) :: kvs, h => by
      have hrest : Json.lookup k kvs = none := lookup_eq_none fun p hp => h p (by simp [hp])
      simp [Json.lookup, hrest, h (k', v) (by simp)]

@[simp] theorem seq_record (e : Entry) (seq : Nat) :
    (e.record seq).get? "seq" = some (.int seq) := by
  have h : Json.lookup "seq" e.fields = none := lookup_eq_none fun p hp => (e.own p hp).1
  simp [record, Json.get?, Json.lookup, h]

@[simp] theorem kind_record (e : Entry) (seq : Nat) :
    (e.record seq).get? "kind" = some (.str e.kind) := by
  have h : Json.lookup "kind" e.fields = none := lookup_eq_none fun p hp => (e.own p hp).2
  simp [record, Json.get?, Json.lookup, h]

theorem isRecord_record (e : Entry) (seq : Nat) : IsRecord (e.record seq) := ⟨_, rfl⟩

theorem wordKeyed_record (e : Entry) (seq : Nat) : WordKeyed (e.record seq) :=
  ⟨'s', ['e', 'q'], by decide, by decide⟩

theorem isRecord_of_mem_records : ∀ {es : List Entry} {seq : Nat} {v : Json},
    v ∈ records seq es → IsRecord v
  | e :: es, seq, v, h => by
      rcases List.mem_cons.mp h with rfl | h
      · exact isRecord_record e seq
      · exact isRecord_of_mem_records h

@[simp] theorem length_records : ∀ (es : List Entry) (seq : Nat),
    (records seq es).length = es.length
  | [], _ => rfl
  | _ :: es, seq => by simp [records, length_records es]

theorem records_append : ∀ (es fs : List Entry) (seq : Nat),
    records seq (es ++ fs) = records seq es ++ records (seq + es.length) fs
  | [], _, _ => rfl
  | e :: es, fs, seq => by
      simp [records, records_append es fs, Nat.add_comm, Nat.add_left_comm]

theorem records_eq_append : ∀ {vs ws : List Json} {es : List Entry} {seq : Nat},
    records seq es = vs ++ ws → ∃ es₁ es₂, es = es₁ ++ es₂ ∧ vs = records seq es₁
      ∧ ws = records (seq + es₁.length) es₂
  | [], ws, es, seq, h => ⟨[], es, rfl, rfl, h.symm⟩
  | v :: vs, ws, [], seq, h => by cases h
  | v :: vs, ws, e :: es, seq, h => by
      rw [records, List.cons_append, List.cons.injEq] at h
      obtain ⟨rfl, h⟩ := h
      obtain ⟨es₁, es₂, rfl, rfl, rfl⟩ := records_eq_append h
      exact ⟨e :: es₁, es₂, rfl, rfl, by rw [List.length_cons, Nat.add_right_comm, Nat.add_assoc]⟩

end Entry

inductive Durability where
  | durable
  | advisory
  deriving DecidableEq

/-- How each record kind is written. -/
def RECORD_DURABILITY : List (String × Durability) :=
  [("agent_message_event", .durable), ("append", .durable), ("partial_fragment", .durable),
    ("reset", .durable), ("state_replace_commit", .durable), ("state_replace_prepare", .durable),
    ("step_committed", .durable), ("step_interrupted", .durable), ("step_started", .durable),
    ("subagent_pool_backgrounded", .durable), ("subagent_pool_cancelled", .durable),
    ("subagent_pool_finished", .durable), ("subagent_pool_interrupted", .durable),
    ("subagent_pool_notification_delivered", .durable), ("subagent_pool_result", .durable),
    ("subagent_pool_started", .durable), ("subagent_pool_stopped", .durable),
    ("subagent_worker_result", .durable), ("tool_exchange_aborted", .durable),
    ("tool_exchange_committed", .durable), ("tool_exchange_result_recorded", .durable),
    ("tool_exchange_started", .durable), ("tool_recorded", .durable), ("turn_aborted", .durable),
    ("turn_completed", .durable), ("turn_failed", .durable), ("turn_recovered", .durable),
    ("turn_recovery_started", .durable), ("turn_started", .durable),
    ("usage_record", .advisory), ("workflow_phase_boundary", .durable)]

/-- `RECORD_DURABILITY.get(kind, "durable")`. -/
def Entry.durability (e : Entry) : Durability := (RECORD_DURABILITY.lookup e.kind).getD .durable

/-! ## 2. The handle -/

/-- What the disk does to one call of `_write`. -/
structure Faults where
  /-- The bytes of the queue `os.write` takes before it raises. -/
  flush : Option Nat := none
  /-- The bytes of the record itself `os.write` takes before it raises. -/
  write : Option Nat := none
  /-- `os.fsync` raises. -/
  fsync : Bool := false

structure ConversationJournal where
  file : List Char
  seq : Nat
  pending : List (List Char) := []
  closed : Bool := false

namespace ConversationJournal

/-- `_count_existing`: the lines that are not blank. -/
def countExisting (file : List Char) : Nat := (decodeLines file).countP (· ≠ .blank)

/-- `ConversationJournal(path)` over a file. -/
def opened (file : List Char) : ConversationJournal := { file, seq := countExisting file }

/-- What a reader of the file sees once the queue is drained. -/
def text (j : ConversationJournal) : List Char := j.file ++ j.pending.flatten

/-- `_write_pending_locked`: the queue is emptied before the first write. -/
def writePending (j : ConversationJournal) (fault : Option Nat) :
    ConversationJournal × Except PyError Unit :=
  let batch := j.pending.flatten
  match fault with
  | none => ({ j with pending := [], file := j.file ++ batch }, .ok ())
  | some n =>
      if n < batch.length then
        ({ j with pending := [], file := j.file ++ batch.take n }, .error (.osError "os.write"))
      else ({ j with pending := [], file := j.file ++ batch }, .ok ())

/-- The durable half of `_write`, behind the queue. A failure truncates the
file to the offset the record started at. -/
def writeRecord (j : ConversationJournal) (payload : List Char) (faults : Faults) :
    ConversationJournal × Except PyError Unit :=
  let startOffset := j.file.length
  let cut (n : Nat) : ConversationJournal :=
    { j with file := (j.file ++ payload.take n).take startOffset }
  let landed : ConversationJournal × Except PyError Unit :=
    if faults.fsync then (cut payload.length, .error (.osError "os.fsync"))
    else ({ j with file := j.file ++ payload, seq := j.seq + 1 }, .ok ())
  match faults.write with
  | none => landed
  | some n => if n < payload.length then (cut n, .error (.osError "os.write")) else landed

/-- `_write`. -/
def write (j : ConversationJournal) (e : Entry) (faults : Faults) :
    ConversationJournal × Except PyError Unit :=
  let payload := jsonLine (e.record j.seq)
  match e.durability with
  | .advisory =>
      if j.closed then (j, .error (.osError "conversation journal is closed"))
      else ({ j with pending := j.pending ++ [payload], seq := j.seq + 1 }, .ok ())
  | .durable =>
      -- `self._fh.flush()` on a closed file
      if j.closed then (j, .error (.valueError "I/O operation on closed file."))
      else
        match j.writePending faults.flush with
        | (j, .error exc) => (j, .error exc)
        | (j, .ok ()) => j.writeRecord payload faults

/-- One batch of `_writer_loop`, or `_drain`: both write the queue if there is
one. The first logs a failure and the second raises it. -/
def drain (j : ConversationJournal) (fault : Option Nat) :
    ConversationJournal × Except PyError Unit :=
  if j.pending = [] then (j, .ok ()) else j.writePending fault

/-- `close`: what is still queued is written, and a failure is dropped. -/
def close (j : ConversationJournal) (fault : Option Nat) : ConversationJournal :=
  { (j.drain fault).1 with closed := true }

/-- Everything that touches the file, in sections under the lock. -/
inductive Op where
  | write (e : Entry) (faults : Faults)
  | writerBatch (fault : Option Nat)
  | drain (fault : Option Nat)
  | close (fault : Option Nat)
  /-- A new handle on the file; the queue of the old one is gone. -/
  | reopen

def step (j : ConversationJournal) : Op → ConversationJournal
  | .write e faults => (j.write e faults).1
  | .writerBatch fault => (j.drain fault).1
  | .drain fault => (j.drain fault).1
  | .close fault => j.close fault
  | .reopen => opened j.file

def run (j : ConversationJournal) (ops : List Op) : ConversationJournal := ops.foldl step j

/-- Writes that meet no fault. -/
def writeAll (j : ConversationJournal) (es : List Entry) : ConversationJournal :=
  es.foldl (fun j e => (j.write e {}).1) j

/-! ## 3. What one operation does -/

theorem take_append_take {α : Type} (s t : List α) (n : Nat) :
    (s ++ t.take n).take s.length = s := by
  rw [List.take_append_of_le_length (Nat.le_refl _), List.take_length]

theorem writeRecord_cases (j : ConversationJournal) (payload : List Char) (faults : Faults) :
    (j.writeRecord payload faults).1 = j
      ∧ (∃ exc, (j.writeRecord payload faults).2 = .error exc)
    ∨ (j.writeRecord payload faults)
        = ({ j with file := j.file ++ payload, seq := j.seq + 1 }, .ok ()) := by
  unfold writeRecord
  simp only [take_append_take]
  cases faults.write with
  | none =>
      cases faults.fsync with
      | false => exact Or.inr rfl
      | true => exact Or.inl ⟨rfl, _, rfl⟩
  | some n =>
      simp only
      split
      · exact Or.inl ⟨rfl, _, rfl⟩
      · cases faults.fsync with
        | false => exact Or.inr rfl
        | true => exact Or.inl ⟨rfl, _, rfl⟩

theorem writePending_fst (j : ConversationJournal) (fault : Option Nat) :
    (j.writePending fault).1
      = { j with
          pending := []
          file := j.file ++ j.pending.flatten.take (fault.getD j.pending.flatten.length) } := by
  unfold writePending
  cases fault with
  | none => rw [Option.getD_none, List.take_length]
  | some n =>
      simp only
      split
      · rfl
      · rename_i h
        rw [Option.getD_some, List.take_of_length_le (Nat.le_of_not_lt h)]

/-- A queue that is written whole leaves what a reader sees as it was. -/
theorem writePending_ok (j : ConversationJournal) :
    j.writePending none = ({ j with pending := [], file := j.text }, .ok ()) := rfl

@[simp] theorem text_opened (file : List Char) : (opened file).text = file := by
  simp [text, opened]

@[simp] theorem closed_opened (file : List Char) : (opened file).closed = false := rfl

/-- A write on an open handle whose queue meets no fault adds the record, or
raises and adds nothing. -/
theorem write_cases (j : ConversationJournal) (e : Entry) (faults : Faults)
    (hopen : j.closed = false) (hflush : faults.flush = none) :
    ((j.write e faults).1.text = j.text ∧ (j.write e faults).1.seq = j.seq
        ∧ (∃ exc, (j.write e faults).2 = .error exc)
      ∨ (j.write e faults).1.text = j.text ++ jsonLine (e.record j.seq)
        ∧ (j.write e faults).1.seq = j.seq + 1 ∧ (j.write e faults).2 = .ok ())
    ∧ (j.write e faults).1.closed = false := by
  obtain ⟨file, seq, pending, closed⟩ := j
  obtain rfl : closed = false := hopen
  unfold write
  cases e.durability with
  | advisory => simp [text]
  | durable =>
      simp only [Bool.false_eq_true, if_false, hflush, writePending_ok, text]
      generalize jsonLine (e.record seq) = payload
      rcases writeRecord_cases ⟨file ++ pending.flatten, seq, [], false⟩ payload faults with
        ⟨hj, exc, hexc⟩ | hok
      · exact ⟨Or.inl ⟨by rw [hj]; simp, by rw [hj], exc, hexc⟩, by rw [hj]⟩
      · exact ⟨Or.inr ⟨by rw [hok]; simp, by rw [hok], by rw [hok]⟩, by rw [hok]⟩

theorem write_ok (j : ConversationJournal) (e : Entry) (hopen : j.closed = false) :
    (j.write e {}).1.text = j.text ++ jsonLine (e.record j.seq)
      ∧ (j.write e {}).1.seq = j.seq + 1 ∧ (j.write e {}).2 = .ok ()
      ∧ (j.write e {}).1.closed = false := by
  unfold write
  cases e.durability with
  | advisory => simp [hopen, text]
  | durable => simp [hopen, writePending_ok, writeRecord, text]

/-- `os.write` raises at once, and the file is as it was. -/
def failing (failed : Bool) : Faults := if failed then { write := some 0 } else {}

theorem write_failed (j : ConversationJournal) {e : Entry} (hd : e.durability = .durable)
    (hopen : j.closed = false) : (j.write e (failing true)).1.text = j.text
      ∧ (j.write e (failing true)).1.seq = j.seq
      ∧ (∃ exc, (j.write e (failing true)).2 = .error exc)
      ∧ (j.write e (failing true)).1.closed = false := by
  have hpos : 0 < (jsonLine (e.record j.seq)).length := by simp [jsonLine]
  simp only [write, hd, hopen, Bool.false_eq_true, if_false, failing, if_true, writePending_ok,
    writeRecord, hpos, take_append_take]
  exact ⟨by simp [text], trivial, ⟨_, rfl⟩, trivial⟩

theorem writeAll_text : ∀ (es : List Entry) (j : ConversationJournal), j.closed = false →
    (j.writeAll es).text = j.text ++ jsonLines (Entry.records j.seq es)
  | [], j, _ => by simp [writeAll, Entry.records]
  | e :: es, j, hopen => by
      obtain ⟨htext, hseq, -, hclosed⟩ := write_ok j e hopen
      have ih := writeAll_text es (j.write e {}).1 hclosed
      rw [writeAll] at ih ⊢
      rw [List.foldl_cons, ih, htext, hseq, Entry.records, jsonLines_cons, List.append_assoc]

end ConversationJournal

/-! ## 4. The reading loop -/

/-- The loop every fold of the journal is: blank lines are passed over, and
the first line that does not decode ends it. -/
def readLoop {σ : Type} (body : σ → Json → Except PyError σ) : σ → List Line → Except PyError σ
  | s, [] => .ok s
  | s, .blank :: lines => readLoop body s lines
  | s, .corrupt :: _ => .ok s
  | s, .entry v :: lines => do readLoop body (← body s v) lines

/-- The entries the loop gets to. -/
def entriesOf : List Line → List Json
  | [] => []
  | .blank :: lines => entriesOf lines
  | .corrupt :: _ => []
  | .entry v :: lines => v :: entriesOf lines

def journalEntries (text : List Char) : List Json := entriesOf (decodeLines text)

theorem readLoop_eq {σ : Type} (body : σ → Json → Except PyError σ) :
    ∀ (lines : List Line) (s : σ), readLoop body s lines = (entriesOf lines).foldlM body s
  | [], _ => rfl
  | .blank :: lines, s => by rw [readLoop, entriesOf, readLoop_eq body lines]
  | .corrupt :: _, _ => rfl
  | .entry v :: lines, s => by
      rw [readLoop, entriesOf, List.foldlM_cons]
      congr 1
      funext s'
      exact readLoop_eq body lines s'

theorem entriesOf_entries : ∀ (vs : List Json) (lines : List Line),
    entriesOf (vs.map .entry ++ lines) = vs ++ entriesOf lines
  | [], _ => rfl
  | v :: vs, lines => by simp [entriesOf, entriesOf_entries vs]

theorem entriesOf_append : ∀ (lines rest : List Line), .corrupt ∉ lines →
    entriesOf (lines ++ rest) = entriesOf lines ++ entriesOf rest
  | [], _, _ => rfl
  | .blank :: lines, rest, h => by
      simp only [List.cons_append, entriesOf]
      exact entriesOf_append lines rest fun hm => h (by simp [hm])
  | .corrupt :: _, _, h => absurd (List.mem_cons_self) h
  | .entry v :: lines, rest, h => by
      simp only [List.cons_append, entriesOf]
      rw [entriesOf_append lines rest fun hm => h (by simp [hm])]

/-- A file of whole lines, none of them damaged. -/
structure Intact (file : List Char) : Prop where
  whole : WholeLines file
  decodes : .corrupt ∉ decodeLines file

theorem Intact.append_entries {file : List Char} (h : Intact file) (rest : List Char) :
    journalEntries (file ++ rest) = journalEntries file ++ journalEntries rest := by
  rw [journalEntries, decodeLines_wholeLines rest h.whole, entriesOf_append _ _ h.decodes]
  rfl

theorem intact_nil : Intact [] := ⟨Or.inl rfl, by decide⟩

theorem Intact.append {file : List Char} (h : Intact file) {vs : List Json}
    (hvs : ∀ v ∈ vs, IsRecord v) : Intact (file ++ jsonLines vs) := by
  refine ⟨h.whole.append (wholeLines_jsonLines vs), ?_⟩
  have hd := decodeLines_jsonLines vs [] hvs
  rw [List.append_nil] at hd
  rw [decodeLines_wholeLines _ h.whole, hd, List.mem_append, not_or]
  refine ⟨h.decodes, ?_⟩
  simp [show decodeLines [] = [] from rfl]

theorem journalEntries_jsonLines {vs : List Json} (h : ∀ v ∈ vs, IsRecord v)
    (rest : List Char) : journalEntries (jsonLines vs ++ rest) = vs ++ journalEntries rest := by
  rw [journalEntries, decodeLines_jsonLines vs rest h, entriesOf_entries]
  rfl

@[simp] theorem journalEntries_nil : journalEntries [] = [] := rfl

theorem journalEntries_all {vs : List Json} (h : ∀ v ∈ vs, IsRecord v) :
    journalEntries (jsonLines vs) = vs := by
  have hj := journalEntries_jsonLines h []
  rwa [List.append_nil, journalEntries_nil, List.append_nil] at hj

theorem journalEntries_records (seq : Nat) (es : List Entry) :
    journalEntries (jsonLines (Entry.records seq es)) = Entry.records seq es :=
  journalEntries_all fun _ hv => Entry.isRecord_of_mem_records hv

end Agenthicc.Memory
