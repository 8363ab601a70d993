/-
Agenthicc.Memory.CompactionTheorems — compaction loses no message of the live
conversation.

Only the commit touches the memory, and it is reached in one step from an
await. `Invariant` says what holds at the awaits: the memory is what the live
conversation made of it, and the calls in flight summarise a snapshot that was
taken at the wake-up. `commit_spec` covers all ways out of the commit.
-/
import Agenthicc.Library.Runs
import Agenthicc.Memory.Compaction
import Agenthicc.Memory.JournaledTheorems

namespace Agenthicc.Memory

open Python

/-! ## 1. The commit -/

namespace LiveMemory

/-- The journal folds to what is in memory. -/
def Durable : LiveMemory → Prop
  | .journaled m => m.Healthy ∧ m.Synced
  | _ => True

/-- The conversation is the same, in memory and where it is kept. -/
structure Untouched (before after : LiveMemory) : Prop where
  projection : after.projection = before.projection
  durable : before.Durable → after.Durable

theorem untouched_refl (memory : LiveMemory) : Untouched memory memory := ⟨rfl, id⟩

/-- The conversation is now `p`, in memory and where it is kept. -/
structure Replaced (p : Projection) (before after : LiveMemory) : Prop where
  projection : after.projection = p
  durable : before.Durable → after.Durable

end LiveMemory

open LiveMemory

theorem journaled_replaceState (m : JournaledShortTermMemory) (p : Projection)
    (disk : Compactor.Disk) :
    let w := m.replaceState disk.uuid p disk.fails
    (w.2 = .ok () ∧ (w.1.messages, w.1.summary) = p)
      ∨ ∃ exc, w.2 = .error exc ∧ (w.1.messages, w.1.summary) = (m.messages, m.summary) := by
  intro w
  simp only [w, JournaledShortTermMemory.replaceState]
  split
  · exact Or.inr ⟨_, rfl, rfl⟩
  · rw [JournaledShortTermMemory.commitState]
    split
    · exact Or.inr ⟨_, rfl, rfl⟩
    · exact Or.inl ⟨rfl, rfl⟩

theorem publish_spec (memory : LiveMemory) (p : Projection) (disk : Compactor.Disk) :
    ((Compactor.publish memory p disk).2 = .ok ()
        ∧ Replaced p memory (Compactor.publish memory p disk).1)
      ∨ ∃ err, (Compactor.publish memory p disk).2 = .error err
        ∧ Untouched memory (Compactor.publish memory p disk).1 := by
  cases memory with
  | journaled m =>
      have hdurable : m.Healthy ∧ m.Synced →
          (m.replaceState disk.uuid p disk.fails).1.Healthy
            ∧ (m.replaceState disk.uuid p disk.fails).1.Synced := by
        rintro ⟨hh, hs⟩
        obtain ⟨hh', hs'⟩ := JournaledShortTermMemory.replaceState_keeps hh disk.uuid p disk.fails
        exact ⟨hh', (hs' hs).mpr trivial⟩
      have hcases := journaled_replaceState m p disk
      rw [Compactor.publish]
      generalize m.replaceState disk.uuid p disk.fails = w at hdurable hcases ⊢
      obtain ⟨m', r⟩ := w
      rcases hcases with ⟨hr, hp⟩ | ⟨exc, hr, hp⟩
      · obtain rfl : r = .ok () := hr
        exact Or.inl ⟨rfl, hp, hdurable⟩
      · obtain rfl : r = .error exc := hr
        exact Or.inr ⟨_, rfl, hp, hdurable⟩
  | journalReset q => exact Or.inr ⟨_, rfl, untouched_refl _⟩
  | plain q => exact Or.inl ⟨rfl, rfl, id⟩

/-- **The compare-and-swap**: it publishes the candidate over a conversation
that equals the expected one, or it raises and publishes nothing. -/
theorem replaceState_spec (c : Compactor) (memory : LiveMemory) (p expected : Projection)
    (disk : Compactor.Disk) :
    ((c.replaceState memory p expected disk).2 = .ok ()
        ∧ c.sameConversation memory.projection expected = true
        ∧ Replaced p memory (c.replaceState memory p expected disk).1)
      ∨ ∃ err, (c.replaceState memory p expected disk).2 = .error err
        ∧ Untouched memory (c.replaceState memory p expected disk).1 := by
  unfold Compactor.replaceState
  cases c.firstIssue p c.memoryMaxTokens with
  | error exc => exact Or.inr ⟨_, rfl, untouched_refl _⟩
  | ok issue =>
      cases issue with
      | some code => exact Or.inr ⟨_, rfl, untouched_refl _⟩
      | none =>
          by_cases hsame : c.sameConversation memory.projection expected = true
          · simp only [hsame, if_true]
            rcases publish_spec memory p disk with ⟨hok, hrep⟩ | ⟨err, herr, hun⟩
            · exact Or.inl ⟨hok, trivial, hrep⟩
            · exact Or.inr ⟨err, herr, hun⟩
          · rw [if_neg hsame]
            exact Or.inr ⟨_, rfl, untouched_refl _⟩

/-- No outcome of these says that something was compacted. -/
def NotApplied (result : Except PyError CompactionOutcome) : Prop :=
  ∀ o, result = .ok o → o.applied = false

theorem notApplied_ok {o : CompactionOutcome} (h : o.applied = false) : NotApplied (.ok o) :=
  fun _ he => Except.ok.inj he ▸ h

theorem notApplied_error (exc : PyError) : NotApplied (.error exc) := fun _ he => by cases he

theorem notApplied_bind (tokens : Except PyError Int) {f : Int → CompactionOutcome}
    (h : ∀ n, (f n).applied = false) :
    NotApplied (do let after ← tokens; return f after) := by
  cases tokens with
  | error exc => exact notApplied_error exc
  | ok n => exact notApplied_ok (h n)

theorem summaryMissing_applied (before : Int) (hadTranscript : Bool) (r : SummaryResult) :
    (summaryMissing before hadTranscript r).applied = false := by
  cases hadTranscript <;> rfl

namespace Compaction

variable (c : Compactor)

/-- **Every way out of the commit**: the summary of the snapshot stands in the
place of an equal conversation, or the conversation is untouched. -/
theorem commit_spec (memory : LiveMemory) (before : Int) (snapshot : Projection)
    (hadTranscript : Bool) (r : SummaryResult) (disk : Compactor.Disk) :
    let w := commit c memory before snapshot hadTranscript r disk
    (∃ o, w.2 = .ok o ∧ o.status = .compacted_summary
        ∧ c.sameConversation memory.projection snapshot = true
        ∧ Replaced (summaryCandidate r.text, .null) memory w.1)
      ∨ NotApplied w.2 ∧ Untouched memory w.1 := by
  intro w
  simp only [w, commit]
  by_cases htext : r.text = ""
  · rw [if_pos htext]
    exact Or.inr ⟨notApplied_ok (summaryMissing_applied _ _ _), untouched_refl _⟩
  · rw [if_neg htext]
    cases htokens : c.memoryTokens (summaryCandidate r.text, .null) with
    | error exc => exact Or.inr ⟨notApplied_error exc, untouched_refl _⟩
    | ok tokens =>
        simp only
        by_cases hlarge : tokens ≥ before
        · rw [if_pos hlarge]
          exact Or.inr ⟨notApplied_ok rfl, untouched_refl _⟩
        · rw [if_neg hlarge]
          have hswap := replaceState_spec c memory (summaryCandidate r.text, .null) snapshot disk
          generalize c.replaceState memory (summaryCandidate r.text, .null) snapshot disk = v
            at hswap ⊢
          obtain ⟨memory', result⟩ := v
          rcases hswap with ⟨hok, hsame, hrep⟩ | ⟨err, herr, hun⟩
          · obtain rfl : result = .ok () := hok
            have hafter : c.memoryTokens memory'.projection = .ok tokens := by
              rw [hrep.projection, htokens]
            simp only [hafter]
            exact Or.inl ⟨_, rfl, rfl, hsame, hrep⟩
          · obtain rfl : result = .error err := herr
            refine Or.inr ⟨?_, ?_⟩
            · cases err with
              | concurrentUpdate => exact notApplied_bind _ fun _ => rfl
              | invalidCandidate code => exact notApplied_ok rfl
              | other exc => exact notApplied_ok rfl
            · cases err <;> exact hun

end Compaction

/-! ## 2. The local candidate -/

namespace Compactor

variable (c : Compactor)

/-- The tokens of the candidate are known. -/
def Counted (summary : Json) (candidate : List Json) (tokens : Int) : Prop :=
  c.memoryTokens (candidate, summary) = .ok tokens

theorem dropExchanges_counted (system nonSystem : List Json) (summary : Json) (target : Int)
    (starts : List Nat) : ∀ {candidate : List Json} {tokens : Int} {pruned : Bool}
      {candidate' : List Json} {tokens' : Int} {pruned' : Bool},
      c.Counted summary candidate tokens →
      c.dropExchanges system nonSystem summary target starts candidate tokens pruned
        = .ok (candidate', tokens', pruned') → c.Counted summary candidate' tokens' := by
  induction starts with
  | nil =>
      intro candidate tokens pruned candidate' tokens' pruned' h hres
      simp only [dropExchanges, Except.ok.injEq, Prod.mk.injEq] at hres
      obtain ⟨rfl, rfl, -⟩ := hres
      exact h
  | cons start starts ih =>
      intro candidate tokens pruned candidate' tokens' pruned' h hres
      rw [dropExchanges] at hres
      split at hres
      · obtain ⟨next, hcount, hrest⟩ := bind_ok hres
        exact ih hcount hrest
      · simp only [Except.ok.injEq, Prod.mk.injEq] at hres
        obtain ⟨rfl, rfl, -⟩ := hres
        exact h

theorem candidateFor_counted {messages : List Json} {summary : Json} {retained : Nat}
    {candidate : List Json} {tokens : Int} {changed : Bool}
    (h : c.candidateFor messages summary retained = .ok (candidate, tokens, changed)) :
    c.Counted summary candidate tokens := by
  obtain ⟨n, hcount, hres⟩ := bind_ok h
  simp only [pure, Except.pure, Except.ok.injEq, Prod.mk.injEq] at hres
  obtain ⟨rfl, rfl, -⟩ := hres
  exact hcount

/-- The best candidate so far is counted. -/
def BestCounted (summary : Json) (best : Option (List Json × Int)) : Prop :=
  ∀ p, best = some p → c.Counted summary p.1 p.2

theorem searchRetained_counted (messages : List Json) (summary : Json) (target before : Int)
    (rounds : Nat) : ∀ {low high : Int} {best best' : Option (List Json × Int)},
      c.BestCounted summary best →
      c.searchRetained messages summary target before rounds low high best = .ok best' →
      c.BestCounted summary best' := by
  induction rounds with
  | zero =>
      intro low high best best' hbest hres
      exact Except.ok.inj hres ▸ hbest
  | succ rounds ih =>
      intro low high best best' hbest hres
      rw [searchRetained] at hres
      split at hres
      · exact Except.ok.inj hres ▸ hbest
      · obtain ⟨⟨candidate, tokens, changed⟩, hcand, hrest⟩ := bind_ok hres
        simp only at hrest
        split at hrest
        · refine ih (fun p hp => ?_) hrest
          obtain rfl := Option.some.inj hp
          exact c.candidateFor_counted hcand
        · exact ih hbest hrest

theorem reduceToolOutput_counted {messages : List Json} {summary : Json} {target before : Int}
    {best : Option (List Json × Int)}
    (h : c.reduceToolOutputToTarget messages summary target before = .ok best) :
    c.BestCounted summary best := by
  have hnone : c.BestCounted summary none := fun p hp => by cases hp
  unfold reduceToolOutputToTarget at h
  simp only at h
  split at h
  · exact Except.ok.inj h ▸ hnone
  · obtain ⟨found, hsearch, hrest⟩ := bind_ok h
    cases found with
    | some found =>
        have hfound := c.searchRetained_counted messages summary target before 24 hnone hsearch
        exact Except.ok.inj hrest ▸ hfound
    | none =>
        obtain ⟨⟨candidate, tokens, changed⟩, hcand, hlast⟩ := bind_ok hrest
        simp only [pure, Except.pure, Except.ok.injEq] at hlast
        subst hlast
        intro p hp
        split at hp
        · obtain rfl := Option.some.inj hp
          exact c.candidateFor_counted hcand
        · cases hp

/-- What the preparation ends in: no candidate, or a candidate whose tokens are
known. -/
def Prepared (summary : Json) (prepared : PreparedLocalFallback) : Prop :=
  (prepared.messages = none ∧ prepared.outcome.applied = false)
    ∨ ∃ messages tokens, prepared.messages = some messages ∧ prepared.summary = summary
      ∧ prepared.outcome.status = .compacted_local_fallback ∧ c.Counted summary messages tokens

theorem prepared_blocked (summary : Json) (before : Int)
    (fallback : CompactionOutcome.FallbackResult) (reason : CompactionOutcome.RecoveryReason)
    (errorType : String) :
    c.Prepared summary (blockedFallback before fallback reason errorType) := Or.inl ⟨rfl, rfl⟩

theorem prepared_compacted {summary : Json} {messages : List Json} {tokens : Int}
    (h : c.Counted summary messages tokens) (before : Int)
    (fallback : CompactionOutcome.FallbackResult) :
    c.Prepared summary (compactedFallback before tokens fallback messages summary) :=
  Or.inr ⟨messages, tokens, rfl, rfl, rfl, h⟩

theorem localCandidate_prepared {p : Projection} {before target : Int}
    {prepared : PreparedLocalFallback} (h : c.localCandidate p before target = .ok prepared) :
    c.Prepared p.2 prepared := by
  unfold localCandidate at h
  simp only at h
  split at h
  · exact Except.ok.inj h ▸ c.prepared_blocked _ _ _ _ _
  · obtain ⟨tokens, hcount, h⟩ := bind_ok h
    obtain ⟨⟨candidate, tokens', pruned⟩, hdrop, h⟩ := bind_ok h
    have hcounted := c.dropExchanges_counted _ _ _ _ _ hcount hdrop
    simp only at h
    split at h
    · exact Except.ok.inj h ▸ c.prepared_compacted hcounted _ _
    · obtain ⟨best, hreduce, h⟩ := bind_ok h
      cases best with
      | some best =>
          have hbest := c.reduceToolOutput_counted hreduce best rfl
          exact Except.ok.inj h ▸ c.prepared_compacted hbest _ _
      | none => exact Except.ok.inj h ▸ c.prepared_blocked _ _ _ _ _

theorem prepareLocal_prepared {p : Projection} {targetTokens : Option Int}
    {prepared : PreparedLocalFallback}
    (h : c.prepareLocalCompactionFallback p targetTokens = .ok prepared) :
    c.Prepared p.2 prepared := by
  obtain ⟨before, -, h⟩ := bind_ok h
  split at h
  · exact Except.ok.inj h ▸ c.prepared_blocked _ _ _ _ _
  · simp only at h
    split at h
    · rename_i hcand
      exact Except.ok.inj h ▸ c.localCandidate_prepared hcand
    · exact Except.ok.inj h ▸ c.prepared_blocked _ _ _ _ _

/-- **The local fallback**: its candidate stands in the place of the
conversation it was made from, or the conversation is untouched. -/
theorem localCompactionFallback_spec (memory : LiveMemory) (disk : Disk) :
    let w := c.localCompactionFallback memory disk
    (∃ o prepared messages, w.2 = .ok o ∧ o.status = .compacted_local_fallback
        ∧ c.prepareLocalCompactionFallback memory.projection = .ok prepared
        ∧ prepared.messages = some messages
        ∧ Replaced (messages, prepared.summary) memory w.1)
      ∨ NotApplied w.2 ∧ Untouched memory w.1 := by
  intro w
  simp only [w, localCompactionFallback]
  split
  · exact Or.inr ⟨notApplied_error _, untouched_refl _⟩
  · exact Or.inr ⟨notApplied_error _, untouched_refl _⟩
  · rename_i before sourceIssue hbefore hissue
    by_cases hsource : sourceIssue ≠ ""
    · rw [if_pos hsource]
      exact Or.inr ⟨notApplied_ok rfl, untouched_refl _⟩
    · rw [if_neg hsource]
      cases hprep : c.prepareLocalCompactionFallback memory.projection with
      | error exc => exact Or.inr ⟨notApplied_error _, untouched_refl _⟩
      | ok prepared =>
          simp only
          rcases c.prepareLocal_prepared hprep with ⟨hnone, happlied⟩ |
            ⟨messages, tokens, hsome, hsummary, hstatus, hcounted⟩
          · rw [hnone]
            exact Or.inr ⟨notApplied_ok happlied, untouched_refl _⟩
          · rw [hsome, hsummary]
            simp only
            have hswap := replaceState_spec c memory (messages, memory.projection.2)
              memory.projection disk
            generalize c.replaceState memory (messages, memory.projection.2) memory.projection
              disk = v at hswap ⊢
            obtain ⟨memory', result⟩ := v
            rcases hswap with ⟨hok, -, hrep⟩ | ⟨err, herr, hun⟩
            · obtain rfl : result = .ok () := hok
              have hafter : c.memoryTokens memory'.projection = .ok tokens := by
                rw [hrep.projection]
                exact hcounted
              simp only [hafter]
              exact Or.inl ⟨_, prepared, messages, rfl, hstatus, rfl, hsome, hsummary ▸ hrep⟩
            · obtain rfl : result = .error err := herr
              refine Or.inr ⟨?_, ?_⟩
              · cases err with
                | concurrentUpdate => exact notApplied_bind _ fun _ => rfl
                | invalidCandidate code => exact notApplied_ok rfl
                | other exc => exact notApplied_ok rfl
              · cases err <;> exact hun

end Compactor

/-! ## 3. Runs on the event loop -/

/-- What the live conversation did, in order. -/
def liveOps (events : List Event) : List LiveMemory.Op :=
  events.filterMap fun
    | .live op => some op
    | _ => none

/-- The answers of the provider, in order. -/
def replies (events : List Event) : List Reply :=
  events.filterMap fun
    | .reply r _ => some r
    | _ => none

/-- The conversation as the concurrent operations left it. -/
def liveMemory (base : ShortTermMemory) (memory : LiveMemory) (events : List Event) : LiveMemory :=
  (liveOps events).foldl (LiveMemory.perform base) memory

/-- The answers lead the summariser of this snapshot to `next`. -/
def SummarisedTo (c : Compactor) (snapshot : Projection) (events : List Event)
    (next : Summarising.Next) : Prop :=
  ∃ transcript, summaryInput c.py snapshot = .ok transcript
    ∧ (replies events).foldl (Summarising.feed c.maxInputChars)
      (.inl (Summarising.start c.maxInputChars transcript)) = next

theorem replies_snoc (events : List Event) (e : Event) :
    replies (events ++ [e]) = replies events ++ replies [e] := List.filterMap_append

/-- An event that is no answer leaves the summariser where it is. -/
theorem SummarisedTo.snoc_other {c : Compactor} {snapshot : Projection} {events : List Event}
    {next : Summarising.Next} (h : SummarisedTo c snapshot events next) {e : Event}
    (he : replies [e] = []) : SummarisedTo c snapshot (events ++ [e]) next := by
  obtain ⟨transcript, hinput, hfeed⟩ := h
  refine ⟨transcript, hinput, ?_⟩
  rw [replies_snoc, he, List.append_nil]
  exact hfeed

theorem SummarisedTo.snoc_reply {c : Compactor} {snapshot : Projection} {events : List Event}
    {calls : Summarising} (h : SummarisedTo c snapshot events (.inl calls)) (r : Reply)
    (disk : Compactor.Disk) : SummarisedTo c snapshot (events ++ [.reply r disk])
      (calls.reply c.maxInputChars r) := by
  obtain ⟨transcript, hinput, hfeed⟩ := h
  refine ⟨transcript, hinput, ?_⟩
  rw [replies_snoc, List.foldl_append, hfeed]
  rfl

section

variable (c : Compactor) (base : ShortTermMemory) (memory : LiveMemory)

@[simp] theorem liveMemory_nil : liveMemory base memory [] = memory := rfl

theorem liveMemory_snoc_live (events : List Event) (op : LiveMemory.Op) :
    liveMemory base memory (events ++ [.live op])
      = (liveMemory base memory events).perform base op := by
  simp [liveMemory, liveOps]

theorem liveMemory_snoc_other (events : List Event) {e : Event} (he : liveOps [e] = []) :
    liveMemory base memory (events ++ [e]) = liveMemory base memory events := by
  have hops : liveOps (events ++ [e]) = liveOps events ++ liveOps [e] := List.filterMap_append
  rw [liveMemory, hops, he, List.append_nil, liveMemory]

namespace Compaction

/-- What holds at an await, after these events. -/
def Invariant (events : List Event) (s : Compaction) : Prop :=
  match s.phase with
  | .sleeping _ => s.memory = liveMemory base memory events
  | .summarising _ snapshot _ calls =>
      s.memory = liveMemory base memory events
        ∧ ∃ pre mid, events = pre ++ .wake :: mid
          ∧ snapshot = (liveMemory base memory pre).projection
          ∧ SummarisedTo c snapshot mid (.inl calls)
  | _ => True

/-- How a run ends, at the event `e` behind `events`. -/
def Lands (events : List Event) (e : Event) (s : Compaction) : Prop :=
  (∃ o pre mid result, s.phase = .returned o ∧ o.status = .compacted_summary
      ∧ events = pre ++ .wake :: mid
      ∧ SummarisedTo c (liveMemory base memory pre).projection (mid ++ [e]) (.inr result)
      ∧ c.sameConversation (liveMemory base memory events).projection
        (liveMemory base memory pre).projection = true
      ∧ Replaced (summaryCandidate result.text, .null) (liveMemory base memory events) s.memory)
    ∨ (∀ o, s.phase = .returned o → o.applied = false)
      ∧ Untouched (liveMemory base memory events) s.memory

theorem ended_phase (before : Int) (w : LiveMemory × Except PyError CompactionOutcome) :
    (ended before w).memory = w.1 ∧ (ended before w).running = false
      ∧ (NotApplied w.2 → ∀ o, (ended before w).phase = .returned o → o.applied = false) := by
  obtain ⟨memory, result⟩ := w
  cases result with
  | ok outcome =>
      refine ⟨rfl, rfl, fun h o ho => ?_⟩
      cases ho
      exact h outcome rfl
  | error exc =>
      refine ⟨rfl, rfl, fun _ o ho => ?_⟩
      cases ho
      rfl

/-- An exception before the commit ends the run with the conversation
untouched. -/
theorem lands_error (events : List Event) (e : Event) (before : Int) (exc : PyError) {m : LiveMemory}
    (hm : m = liveMemory base memory events) :
    Lands c base memory events e (ended before (m, .error exc)) := by
  obtain ⟨hmem, -, hnot⟩ := ended_phase before (m, .error exc)
  refine Or.inr ⟨hnot (notApplied_error exc), ?_⟩
  rw [hmem, hm]
  exact untouched_refl _

/-- The event leads on to an await under the invariant, or the run lands. -/
def Leads (events : List Event) (e : Event) (s : Compaction) : Prop :=
  Invariant c base memory (events ++ [e]) s ∧ (s.running = false → Lands c base memory events e s)

theorem leads_error (events : List Event) (e : Event) (before : Int) (exc : PyError) {m : LiveMemory}
    (hm : m = liveMemory base memory events) :
    Leads c base memory events e (ended before (m, .error exc)) :=
  ⟨trivial, fun _ => lands_error c base memory events e before exc hm⟩

theorem leads_cancelled (events : List Event) (e : Event) {m : LiveMemory}
    (hm : m = liveMemory base memory events) :
    Leads c base memory events e ⟨m, .cancelled⟩ := by
  refine ⟨trivial, fun _ => Or.inr ⟨fun o ho => ?_, ?_⟩⟩
  · cases ho
  · rw [← hm]
    exact untouched_refl _

/-- The wake-up takes the snapshot and makes the first call. -/
theorem leads_wakeUp (events : List Event) (before : Int) {m : LiveMemory}
    (hm : m = liveMemory base memory events) :
    Leads c base memory events .wake (wakeUp c m before) := by
  cases hinput : summaryInput c.py m.projection with
  | error exc =>
      have hw : wakeUp c m before = ended before (m, .error exc) := by simp only [wakeUp, hinput]
      rw [hw]
      exact leads_error c base memory events .wake before exc hm
  | ok transcript =>
      have hw : wakeUp c m before = ⟨m, .summarising before m.projection
          (stripText transcript ≠ "") (Summarising.start c.maxInputChars transcript)⟩ := by
        simp only [wakeUp, hinput]
      rw [hw]
      refine ⟨⟨?_, events, [], rfl, by rw [hm], transcript, hinput, rfl⟩, fun h => by cases h⟩
      rw [liveMemory_snoc_other base memory events rfl]
      exact hm

theorem leads_commit {events pre mid : List Event} (e : Event) (before : Int)
    (hadTranscript : Bool) (result : SummaryResult) (disk : Compactor.Disk) {m : LiveMemory}
    (hm : m = liveMemory base memory events) (hev : events = pre ++ .wake :: mid)
    (hsummary : SummarisedTo c (liveMemory base memory pre).projection (mid ++ [e]) (.inr result)) :
    Leads c base memory events e (ended before
      (commit c m before (liveMemory base memory pre).projection hadTranscript result disk)) := by
  have hcommit := commit_spec c m before (liveMemory base memory pre).projection hadTranscript
    result disk
  generalize commit c m before _ hadTranscript result disk = w at hcommit ⊢
  obtain ⟨hmem, -, hnot⟩ := ended_phase before w
  constructor
  · obtain ⟨m', res⟩ := w
    cases res <;> exact trivial
  · intro _
    rcases hcommit with ⟨o, ho, hstatus, hsame, hrep⟩ | ⟨hna, hun⟩
    · refine Or.inl ⟨o, pre, mid, result, ?_, hstatus, hev, hsummary, hm ▸ hsame, ?_⟩
      · obtain ⟨m', res⟩ := w
        obtain rfl : res = .ok o := ho
        rfl
      · rw [hmem, ← hm]
        exact hrep
    · refine Or.inr ⟨hnot hna, ?_⟩
      rw [hmem, ← hm]
      exact hun

/-- **One event** at an await. -/
theorem step_leads (events : List Event) {s : Compaction} (e : Event) (hrun : s.running = true)
    (hinv : Invariant c base memory events s) :
    Leads c base memory events e (step c base s e) := by
  obtain ⟨m, phase⟩ := s
  cases phase with
  | returned o => cases hrun
  | raised exc => cases hrun
  | cancelled => cases hrun
  | sleeping before =>
      have hm : m = liveMemory base memory events := hinv
      have hstay : liveOps [e] = [] → Leads c base memory events e ⟨m, .sleeping before⟩ := by
        intro hops
        refine ⟨?_, fun h => by cases h⟩
        show m = _
        rw [liveMemory_snoc_other base memory events hops, hm]
      cases e with
      | live op =>
          refine ⟨?_, fun h => by cases h⟩
          show m.perform base op = _
          rw [liveMemory_snoc_live, hm]
      | wake => exact leads_wakeUp c base memory events before hm
      | reply r disk => exact hstay rfl
      | escaped exc => exact hstay rfl
      | cancel => exact leads_cancelled c base memory events .cancel hm
  | summarising before snapshot hadTranscript calls =>
      obtain ⟨hm, pre, mid, hev, rfl, hsummary⟩ := hinv
      have hm : m = liveMemory base memory events := hm
      have hmid : ∀ e : Event, events ++ [e] = pre ++ .wake :: (mid ++ [e]) := by
        intro e
        rw [hev, List.append_assoc]
        rfl
      cases e with
      | live op =>
          refine ⟨⟨?_, pre, mid ++ [.live op], hmid _, rfl, hsummary.snoc_other rfl⟩,
            fun h => by cases h⟩
          show m.perform base op = _
          rw [liveMemory_snoc_live, hm]
      | wake =>
          refine ⟨⟨?_, pre, mid ++ [.wake], hmid _, rfl, hsummary.snoc_other rfl⟩,
            fun h => by cases h⟩
          rw [liveMemory_snoc_other base memory events rfl]
          exact hm
      | escaped exc => exact leads_error c base memory events (.escaped exc) before exc hm
      | cancel => exact leads_cancelled c base memory events .cancel hm
      | reply r disk =>
          have hnext := hsummary.snoc_reply r disk
          simp only [step]
          cases hreply : calls.reply c.maxInputChars r with
          | inl calls' =>
              refine ⟨⟨?_, pre, mid ++ [.reply r disk], hmid _, rfl, hreply ▸ hnext⟩,
                fun h => by cases h⟩
              rw [liveMemory_snoc_other base memory events rfl]
              exact hm
          | inr result =>
              exact leads_commit c base memory _ before hadTranscript result disk hm hev
                (hreply ▸ hnext)

/-! ## 4. The law -/

/-- What has ended only passes the live conversation through. -/
theorem step_ended {s : Compaction} (hdone : s.running = false) (e : Event) :
    (step c base s e).phase = s.phase
      ∧ (step c base s e).memory = (liveOps [e]).foldl (LiveMemory.perform base) s.memory := by
  obtain ⟨m, phase⟩ := s
  cases phase with
  | sleeping before => cases hdone
  | summarising before snapshot hadTranscript calls => cases hdone
  | returned o => cases e <;> exact ⟨rfl, rfl⟩
  | raised exc => cases e <;> exact ⟨rfl, rfl⟩
  | cancelled => cases e <;> exact ⟨rfl, rfl⟩

theorem start_spec : Invariant c base memory [] (start c memory)
    ∧ (start c memory).memory = memory
    ∧ ∀ o, (start c memory).phase = .returned o → o.applied = false := by
  unfold start
  split
  · exact ⟨trivial, rfl, fun o ho => by cases ho⟩
  · exact ⟨trivial, rfl, fun o ho => by cases ho⟩
  · split
    · exact ⟨rfl, rfl, fun o ho => by cases ho⟩
    · refine ⟨trivial, rfl, fun o ho => ?_⟩
      cases ho
      rfl

theorem run_snoc (events : List Event) (e : Event) :
    run c base memory (events ++ [e]) = step c base (run c base memory events) e := by
  rw [run, List.foldl_append]
  rfl

theorem running_invariant (events : List Event) :
    (run c base memory events).running = true →
      Invariant c base memory events (run c base memory events) := by
  induction events using List.reverseRecOn with
  | nil => exact fun _ => (start_spec c base memory).1
  | append_singleton events e ih =>
      intro hrun
      rw [run_snoc] at hrun ⊢
      cases hprev : (run c base memory events).running with
      | true => exact (step_leads c base memory events e hprev (ih hprev)).1
      | false =>
          have hphase := (step_ended c base hprev e).1
          rw [running, hphase] at hrun
          rw [running] at hprev
          rw [hprev] at hrun
          cases hrun

/-- **No concurrent message is lost**, for every interleaving of the events of
`compact_memory_with_result` with the live conversation. -/
structure KeepsConversation : Prop where
  /-- A call that ends before its first await changed nothing. -/
  refused : (start c memory).running = false → (start c memory).memory = memory
    ∧ ∀ o, (start c memory).phase = .returned o → o.applied = false
  /-- While the coroutine waits, the memory is what the live conversation made
  of it. -/
  waiting : ∀ events, (run c base memory events).running = true →
    (run c base memory events).memory = liveMemory base memory events
  /-- When it ends, a summary stands in the place of a conversation equal to
  its snapshot, or the conversation is untouched. -/
  lands : ∀ events e, (run c base memory events).running = true →
    (run c base memory (events ++ [e])).running = false →
      Lands c base memory events e (run c base memory (events ++ [e]))
  /-- What the live conversation does later it does to that memory. -/
  after : ∀ events later, (run c base memory events).running = false →
    (run c base memory (events ++ later)).phase = (run c base memory events).phase
      ∧ (run c base memory (events ++ later)).memory
        = liveMemory base (run c base memory events).memory later
  /-- `local_compaction_fallback`, which never waits. -/
  fallback : ∀ disk, let w := c.localCompactionFallback memory disk
    (∃ o prepared messages, w.2 = .ok o ∧ o.status = .compacted_local_fallback
        ∧ c.prepareLocalCompactionFallback memory.projection = .ok prepared
        ∧ prepared.messages = some messages
        ∧ Replaced (messages, prepared.summary) memory w.1)
      ∨ NotApplied w.2 ∧ Untouched memory w.1

theorem run_after (events later : List Event) (hdone : (run c base memory events).running = false) :
    (run c base memory (events ++ later)).phase = (run c base memory events).phase
      ∧ (run c base memory (events ++ later)).memory
        = liveMemory base (run c base memory events).memory later := by
  induction later using List.reverseRecOn with
  | nil => exact ⟨by rw [List.append_nil], by rw [List.append_nil]; rfl⟩
  | append_singleton later e ih =>
      obtain ⟨hphase, hmem⟩ := ih
      have hdone' : (run c base memory (events ++ later)).running = false := by
        rw [running, hphase]
        exact hdone
      obtain ⟨hphase', hmem'⟩ := step_ended c base hdone' e
      rw [← List.append_assoc, run_snoc]
      refine ⟨hphase'.trans hphase, hmem'.trans ?_⟩
      have hops : liveOps (later ++ [e]) = liveOps later ++ liveOps [e] := List.filterMap_append
      rw [hmem, liveMemory, liveMemory, hops, List.foldl_append]

theorem waiting_memory {events : List Event} {s : Compaction} (hrun : s.running = true)
    (hinv : Invariant c base memory events s) : s.memory = liveMemory base memory events := by
  obtain ⟨m, phase⟩ := s
  cases phase with
  | sleeping before => exact hinv
  | summarising before snapshot hadTranscript calls => exact hinv.1
  | _ => cases hrun

theorem keepsConversation : KeepsConversation c base memory where
  refused _ := (start_spec c base memory).2
  waiting events hrun :=
    waiting_memory c base memory hrun (running_invariant c base memory events hrun)
  lands events e hrun hdone := by
    rw [run_snoc] at hdone ⊢
    exact (step_leads c base memory events e hrun
      (running_invariant c base memory events hrun)).2 hdone
  after events later hdone := run_after c base memory events later hdone
  fallback disk := c.localCompactionFallback_spec memory disk

end Compaction

end

/-- A compactor for concrete runs: a message is one token. -/
def plainCompactor : Compactor where
  py := plainInterp
  tokenEstimate messages := .ok (.int messages.length)
  firstIssue _ _ := .ok none
  max_input_tokens := 0

def threeMessages : Projection :=
  ([textMessage "user" "a", textMessage "assistant" "b", textMessage "user" "c"], .null)

/-- A message that arrives while the summary is awaited is kept; without it the
summary is committed. -/
example :
    (Compaction.run plainCompactor JournaledShortTermMemory.plainBase (.plain threeMessages)
      [.wake, .live (.assign (threeMessages.1 ++ [textMessage "user" "d"], .null)),
        .reply (.completed "short" .empty_final) {}]).memory.projection
        = (threeMessages.1 ++ [textMessage "user" "d"], .null)
      ∧ (Compaction.run plainCompactor JournaledShortTermMemory.plainBase (.plain threeMessages)
        [.wake, .reply (.completed "short" .empty_final) {}]).memory.projection
        = (summaryCandidate "short", .null) := by decide

end Agenthicc.Memory
