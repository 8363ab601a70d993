/-
Agenthicc.Memory.JournalTheorems — a state replacement is atomic, whatever
byte the process stops at, and what follows it is folded on top.

The register of `fold_path` is covered by one relation: `Folds j f` says that
the journal is intact and that its entries fold to `f`, register included.
Each record kind has a lemma for what it does to `f` (`Fold.entry_…`); the
records of a transaction keep `f.rollbackPending` where it was until the
commit (`foldlM_transaction`). A continuation is then a run of operations
that moves the projection by its own effects (`Folds.apply`).
-/
import Agenthicc.Memory.Journal
import Agenthicc.Memory.JournalFileTheorems

namespace Agenthicc.Memory

open Python

/-! ## 1. What each record does to the fold -/

namespace Fold

theorem rollbackPending_none {f : Fold} (h : f.pending = none) : f.rollbackPending = f := by
  rw [rollbackPending, h]

theorem pending_rollbackPending (f : Fold) : f.rollbackPending.pending = none := by
  unfold rollbackPending
  cases h : f.pending with
  | none => exact h
  | some p => rfl

theorem rollbackPending_some {f : Fold} {id : String} {previous : Projection}
    (h : f.pending = some (id, previous)) : f.rollbackPending.projection = previous := by
  rw [rollbackPending, h]
  rfl

theorem entry_prepare (f : Fold) (id : String) (previous : Projection) (seq : Nat) :
    f.entry ((prepareEntry id previous).record seq)
      = .ok { f.rollbackPending with pending := some (id, previous) } := by
  simp [entry, prepareEntry, Entry.record, Json.lookup, bind, Except.bind, pure, Except.pure]

theorem entry_candidate {f : Fold} (id : String) {previous : Projection}
    (h : f.pending = some (id, previous)) (candidate : Projection) (seq : Nat) :
    f.entry ((candidateEntry id candidate).record seq)
      = .ok { f with messages := candidate.1, summary := candidate.2 } := by
  simp [entry, candidateEntry, Entry.record, Json.lookup, inTransaction, h, bind, Except.bind,
    pure, Except.pure]

theorem entry_commit {f : Fold} (id : String) {previous : Projection}
    (h : f.pending = some (id, previous)) (seq : Nat) :
    f.entry ((commitEntry id).record seq) = .ok { f with pending := none } := by
  simp [entry, commitEntry, Entry.record, Json.lookup, inTransaction, h, bind, Except.bind, pure,
    Except.pure]

theorem entry_append (f : Fold) (message : Json) (messageId : String) (seq : Nat) :
    f.entry ((appendEntry message messageId).record seq)
      = .ok { f.rollbackPending with messages := f.rollbackPending.messages ++ [message] } := by
  by_cases h : messageId = "" <;>
    simp [entry, appendEntry, Entry.record, Json.get?, Json.lookup, h, bind, Except.bind, pure,
      Except.pure]

theorem inTransaction_null (f : Fold) : f.inTransaction .null = false := by
  unfold inTransaction
  cases f.pending <;> simp

theorem entry_reset (f : Fold) (messages : List Json) (summary : Json)
    (turnId stepId reason : String) (seq : Nat) :
    f.entry ((resetEntry messages summary turnId stepId reason).record seq)
      = .ok { f.rollbackPending with messages, summary } := by
  by_cases h : turnId = "" ∧ stepId = "" ∧ reason = "" <;>
    simp [entry, resetEntry, Entry.record, Json.lookup, h, inTransaction_null, bind, Except.bind,
      pure, Except.pure]

theorem entry_other (f : Fold) {e : Entry} (h : e.kind ∉ FOLDED_KINDS) (seq : Nat) :
    f.entry (e.record seq) = .ok f := by
  have hk : Json.lookup "kind" e.fields = none :=
    Entry.lookup_eq_none fun p hp => (e.own p hp).2
  simp only [FOLDED_KINDS, List.mem_cons, List.not_mem_nil, or_false, not_or] at h
  simp [entry, Entry.record, Json.lookup, hk, h, bind, Except.bind, pure, Except.pure]

end Fold

/-! ## 2. Folding a text -/

/-- The text is intact and its entries fold to `f`, register included. -/
structure Folds (text : List Char) (f : Fold) : Prop where
  intact : Intact text
  folded : (journalEntries text).foldlM Fold.entry {} = .ok f

theorem foldPath_of_entries {text : List Char} {f : Fold}
    (h : (journalEntries text).foldlM Fold.entry {} = .ok f) :
    foldPath text = .ok f.rollbackPending.projection := by
  rw [foldPath, foldPathWithReport, readLoop_eq]
  rw [journalEntries] at h
  rw [h]
  rfl

theorem foldlM_append_ok {vs ws : List Json} {f g : Fold} (h : vs.foldlM Fold.entry f = .ok g) :
    (vs ++ ws).foldlM Fold.entry f = ws.foldlM Fold.entry g := by
  rw [List.foldlM_append, h]
  rfl

theorem Folds.append {text : List Char} {f g : Fold} (h : Folds text f) {vs : List Json}
    (hvs : ∀ v ∈ vs, IsRecord v) (hfold : vs.foldlM Fold.entry f = .ok g) :
    Folds (text ++ jsonLines vs) g := by
  refine ⟨h.intact.append hvs, ?_⟩
  rw [h.intact.append_entries, journalEntries_all hvs, foldlM_append_ok h.folded, hfold]

theorem Folds.append_one {text : List Char} {f g : Fold} (h : Folds text f) {e : Entry}
    {seq : Nat} (hfold : f.entry (e.record seq) = .ok g) :
    Folds (text ++ jsonLine (e.record seq)) g := by
  have hone : Folds (text ++ jsonLines [e.record seq]) g :=
    h.append (by simp [e.isRecord_record seq]) (by rw [List.foldlM_cons, hfold]; rfl)
  rwa [jsonLines_cons, jsonLines_nil, List.append_nil] at hone

/-! ## 3. A transaction, up to its commit -/

/-- The records of a replacement before its commit, with unrelated ones
written in between. -/
def transaction (id : String) (previous candidate : Projection) (between later : List Entry) :
    List Entry :=
  prepareEntry id previous :: (between ++ candidateEntry id candidate :: later)

def Unrelated (es : List Entry) : Prop := ∀ e ∈ es, e.kind ∉ FOLDED_KINDS

theorem foldlM_unrelated (f : Fold) : ∀ {es : List Entry} {seq : Nat}, Unrelated es →
    (Entry.records seq es).foldlM Fold.entry f = .ok f
  | [], _, _ => rfl
  | e :: es, seq, h => by
      rw [Entry.records, List.foldlM_cons, f.entry_other (h e (by simp))]
      exact foldlM_unrelated f fun e' he' => h e' (by simp [he'])

theorem Unrelated.of_prefix {es fs : List Entry} (h : Unrelated es) (hp : fs <+: es) :
    Unrelated fs := fun e he => h e (hp.subset he)

section

variable (f : Fold) (id : String) (candidate : Projection) {between later : List Entry}

/-- What the register holds once the transaction is prepared. -/
def prepared : Fold :=
  { f.rollbackPending with pending := some (id, f.rollbackPending.projection) }

/-- The fold once the candidate is recorded. -/
def proposed : Fold :=
  { messages := candidate.1, summary := candidate.2,
    pending := some (id, f.rollbackPending.projection) }

theorem foldlM_prepared (hb : Unrelated between) (seq : Nat) :
    (Entry.records seq (prepareEntry id f.rollbackPending.projection :: between)).foldlM
      Fold.entry f = .ok (prepared f id) := by
  rw [Entry.records, List.foldlM_cons, Fold.entry_prepare]
  exact foldlM_unrelated _ hb

theorem foldlM_proposed (hb : Unrelated between) (hl : Unrelated later) (seq : Nat) :
    (Entry.records seq (transaction id f.rollbackPending.projection candidate between
      later)).foldlM Fold.entry f = .ok (proposed f id candidate) := by
  rw [transaction, ← List.cons_append, Entry.records_append,
    foldlM_append_ok (foldlM_prepared f id hb seq), Entry.records, List.foldlM_cons,
    Fold.entry_candidate id rfl]
  exact foldlM_unrelated _ hl

/-- A prefix of two lists in a row ends in the first or in the second. -/
theorem prefix_append_cases {α : Type} {p a b : List α} (h : p <+: a ++ b) :
    p <+: a ∨ ∃ q, p = a ++ q ∧ q <+: b := by
  obtain ⟨t, ht⟩ := h
  rcases List.append_eq_append_iff.mp ht with ⟨a', rfl, -⟩ | ⟨q, rfl, hb⟩
  · exact Or.inl (List.prefix_append p a')
  · exact Or.inr ⟨q, rfl, ⟨t, hb.symm⟩⟩

/-- **Up to its commit a transaction changes nothing**: after any of its
records the rollback gives the projection from before. -/
theorem foldlM_transaction (hb : Unrelated between) (hl : Unrelated later) {es : List Entry}
    (hes : es <+: transaction id f.rollbackPending.projection candidate between later)
    (seq : Nat) : ∃ g, (Entry.records seq es).foldlM Fold.entry f = .ok g
      ∧ g.rollbackPending.projection = f.rollbackPending.projection := by
  rw [transaction, ← List.cons_append] at hes
  rcases prefix_append_cases hes with hfirst | ⟨rest, rfl, hrest⟩
  · cases es with
    | nil => exact ⟨f, rfl, rfl⟩
    | cons e es =>
        rw [List.cons_prefix_cons] at hfirst
        obtain ⟨rfl, hfirst⟩ := hfirst
        exact ⟨prepared f id, foldlM_prepared f id (hb.of_prefix hfirst) seq,
          Fold.rollbackPending_some rfl⟩
  · cases rest with
    | nil =>
        rw [List.append_nil]
        exact ⟨prepared f id, foldlM_prepared f id hb seq, Fold.rollbackPending_some rfl⟩
    | cons e rest =>
        rw [List.cons_prefix_cons] at hrest
        obtain ⟨rfl, hrest⟩ := hrest
        rw [List.cons_append, ← transaction]
        exact ⟨proposed f id candidate, foldlM_proposed f id candidate hb (hl.of_prefix hrest) seq,
          Fold.rollbackPending_some rfl⟩

theorem foldlM_committed (hb : Unrelated between) (hl : Unrelated later) (seq : Nat) :
    ∃ g, (Entry.records seq (transaction id f.rollbackPending.projection candidate between later
        ++ [commitEntry id])).foldlM Fold.entry f = .ok g
      ∧ g.rollbackPending.projection = candidate := by
  refine ⟨{ proposed f id candidate with pending := none }, ?_, rfl⟩
  rw [Entry.records_append, foldlM_append_ok (foldlM_proposed f id candidate hb hl seq), Entry.records,
    List.foldlM_cons, Fold.entry_commit id rfl]
  rfl

end

/-! ## 4. A replacement cut at any byte -/

section

variable {id : String} {f : Fold} {candidate : Projection} {between later : List Entry}

/-- The bytes of a whole replacement. -/
def replacementText (seq : Nat) (id : String) (previous candidate : Projection)
    (between later : List Entry) : List Char :=
  jsonLines (Entry.records seq (transaction id previous candidate between later
    ++ [commitEntry id]))

/-- The commit record is complete in the cut. -/
def CommitComplete (seq : Nat) (id : String) (previous candidate : Projection)
    (between later : List Entry) (cut : List Char) : Prop :=
  jsonLines (Entry.records seq (transaction id previous candidate between later))
    ++ dumps ((commitEntry id).record (seq + (transaction id previous candidate between
        later).length)) <+: cut

theorem foldPath_append {text : List Char} (h : Folds text f) {rest : List Char} {g : Fold}
    (hrest : (journalEntries rest).foldlM Fold.entry f = .ok g) :
    foldPath (text ++ rest) = .ok g.rollbackPending.projection :=
  foldPath_of_entries (by rw [h.intact.append_entries, foldlM_append_ok h.folded, hrest])

theorem journalEntries_cut {seq : Nat} {es : List Entry} {v : Json} {q : List Char}
    (hv : IsRecord v) (hq : Torn q (jsonLine v)) :
    journalEntries (jsonLines (Entry.records seq es) ++ q) = Entry.records seq es
      ∧ q ≠ dumps v
    ∨ journalEntries (jsonLines (Entry.records seq es) ++ q) = Entry.records seq es ++ [v]
      ∧ q = dumps v := by
  rw [journalEntries_jsonLines fun w hw => Entry.isRecord_of_mem_records hw]
  rw [show journalEntries q = entriesOf (decodeLines q) from rfl, decodeLines_torn hv hq]
  by_cases hnil : q = []
  · refine Or.inl ⟨by rw [if_pos hnil]; simp [entriesOf], ?_⟩
    obtain ⟨kvs, rfl⟩ := hv
    obtain ⟨t, ht⟩ := dumps_obj_last kvs
    rw [hnil, ht]
    simp
  · by_cases hfull : q = dumps v
    · exact Or.inr ⟨by rw [if_neg hnil, if_pos hfull]; simp [entriesOf], hfull⟩
    · exact Or.inl ⟨by rw [if_neg hnil, if_neg hfull]; simp [entriesOf], hfull⟩

/-- **The cut replacement folds to the old projection or to the candidate**,
the latter exactly when its commit record is complete. -/
theorem foldPath_cut {old : List Char} (hold : Folds old f) (hb : Unrelated between)
    (hl : Unrelated later) {seq : Nat} {cut : List Char}
    (hcut : cut <+: replacementText seq id f.rollbackPending.projection candidate between later) :
    (CommitComplete seq id f.rollbackPending.projection candidate between later cut →
        foldPath (old ++ cut) = .ok candidate)
      ∧ (¬ CommitComplete seq id f.rollbackPending.projection candidate between later cut →
        foldPath (old ++ cut) = .ok f.rollbackPending.projection) := by
  obtain ⟨g, hg, hproj⟩ := foldlM_committed f id candidate hb hl seq
  unfold CommitComplete
  rw [replacementText] at hcut
  generalize hT : transaction id f.rollbackPending.projection candidate between later = T
    at hcut hg ⊢
  rcases prefix_jsonLines _ hcut with rfl | ⟨pre, v, post, q, hsplit, rfl, hq⟩
  · -- every record is there
    have hj := journalEntries_records seq (T ++ [commitEntry id])
    refine ⟨fun _ => ?_, fun hc => absurd ?_ hc⟩
    · rw [foldPath_append hold (hj ▸ hg), hproj]
    · rw [Entry.records_append, jsonLines_append, List.prefix_append_right_inj, Entry.records,
        Entry.records, jsonLines_cons, jsonLines_nil, List.append_nil, jsonLine]
      exact List.prefix_append _ _
  · obtain ⟨es₁, es₂, hes, rfl, htail⟩ := Entry.records_eq_append hsplit
    cases es₂ with
    | nil => cases htail
    | cons e es₂ =>
      rw [Entry.records, List.cons.injEq] at htail
      obtain ⟨rfl, -⟩ := htail
      have hrec := e.isRecord_record (seq + es₁.length)
      rcases List.eq_nil_or_concat es₂ with rfl | ⟨es₂, c, rfl⟩
      · -- the commit record itself is cut
        obtain ⟨rfl, he⟩ := List.append_inj' hes rfl
        obtain rfl : commitEntry id = e := List.singleton_inj.mp he
        rw [List.prefix_append_right_inj]
        rcases journalEntries_cut hrec hq with ⟨hentries, hne⟩ | ⟨hentries, rfl⟩
        · refine ⟨fun hc => absurd ?_ hne, fun _ => ?_⟩
          · exact (List.IsPrefix.eq_of_length_le hq.prefix_dumps hc.length_le)
          · have hp := foldlM_proposed f id candidate hb hl seq
            rw [hT] at hp
            rw [foldPath_append hold (hentries ▸ hp)]
            rfl
        · refine ⟨fun _ => ?_, fun hc => absurd (List.prefix_refl _) hc⟩
          rw [Entry.records_append, Entry.records, Entry.records] at hg
          rw [foldPath_append hold (hentries ▸ hg), hproj]
      · -- an earlier record is cut
        rw [List.concat_eq_append, ← List.cons_append, ← List.append_assoc] at hes
        obtain ⟨rfl, -⟩ := List.append_inj' hes rfl
        have hshort : ¬ (jsonLines (Entry.records seq (es₁ ++ e :: es₂))
            ++ dumps ((commitEntry id).record (seq + (es₁ ++ e :: es₂).length))
            <+: jsonLines (Entry.records seq es₁) ++ q) := by
          intro hc
          rw [Entry.records_append, jsonLines_append, List.append_assoc,
            List.prefix_append_right_inj, Entry.records, jsonLines_cons] at hc
          have h1 := hc.length_le
          have h2 := hq.1.length_le
          have h3 : q.length ≠ (jsonLine (e.record (seq + es₁.length))).length :=
            fun he => hq.2 (hq.1.eq_of_length he)
          simp only [List.length_append] at h1
          omega
        refine ⟨fun hc => absurd hc hshort, fun _ => ?_⟩
        have hwhole : ∀ es, es <+: es₁ ++ e :: es₂ → ∃ g,
            (Entry.records seq es).foldlM Fold.entry f = .ok g
              ∧ g.rollbackPending.projection = f.rollbackPending.projection := by
          intro es hes'
          exact foldlM_transaction f id candidate hb hl (hT ▸ hes') seq
        rcases journalEntries_cut hrec hq with ⟨hentries, -⟩ | ⟨hentries, -⟩
        · obtain ⟨g', hg', hproj'⟩ := hwhole es₁ (List.prefix_append _ _)
          rw [foldPath_append hold (hentries ▸ hg'), hproj']
        · obtain ⟨g', hg', hproj'⟩ := hwhole (es₁ ++ [e]) (by simp)
          rw [Entry.records_append, Entry.records, Entry.records] at hg'
          rw [foldPath_append hold (hentries ▸ hg'), hproj']

end

/-! ## 5. What is written afterwards -/

namespace ConversationJournal

/-- The handle is open and what it holds folds to `f`. -/
structure FoldsTo (j : ConversationJournal) (f : Fold) : Prop where
  isOpen : j.closed = false
  folds : Folds j.text f

theorem FoldsTo.fold {j : ConversationJournal} {f : Fold} (h : j.FoldsTo f) :
    j.fold = .ok f.rollbackPending.projection := foldPath_of_entries h.folds.folded

theorem FoldsTo.write_ok {j : ConversationJournal} {f g : Fold} (h : j.FoldsTo f) {e : Entry}
    (he : f.entry (e.record j.seq) = .ok g) :
    (j.write e (failing false)).1.FoldsTo g ∧ (j.write e (failing false)).2 = .ok () := by
  obtain ⟨htext, -, hok, hclosed⟩ := ConversationJournal.write_ok j e h.isOpen
  exact ⟨⟨hclosed, htext ▸ h.folds.append_one he⟩, hok⟩

/-- A record that is not written leaves the fold as it is. -/
theorem FoldsTo.write_failed {j : ConversationJournal} {f : Fold} (h : j.FoldsTo f) {e : Entry}
    (hd : e.durability = .durable) : (j.write e (failing true)).1.FoldsTo f
      ∧ ∃ exc, (j.write e (failing true)).2 = .error exc := by
  obtain ⟨htext, -, hexc, hclosed⟩ := ConversationJournal.write_failed j hd h.isOpen
  exact ⟨⟨hclosed, htext ▸ h.folds⟩, hexc⟩

theorem FoldsTo.write {j : ConversationJournal} {f g : Fold} (h : j.FoldsTo f) {e : Entry}
    (hd : e.durability = .durable) (he : f.entry (e.record j.seq) = .ok g) (fails : Bool) :
    (j.write e (failing fails)).1.FoldsTo (if fails then f else g) := by
  cases fails with
  | true => exact (h.write_failed hd).1
  | false => exact (h.write_ok he).1

/-- An unrelated record leaves the fold as it is, written or not. -/
theorem FoldsTo.write_other {j : ConversationJournal} {f : Fold} (h : j.FoldsTo f) {e : Entry}
    (he : e.kind ∉ FOLDED_KINDS) (fails : Bool) : (j.write e (failing fails)).1.FoldsTo f := by
  have hflush : (failing fails).flush = none := by cases fails <;> rfl
  obtain ⟨hcases, hclosed⟩ := write_cases j e (failing fails) h.isOpen hflush
  refine ⟨hclosed, ?_⟩
  rcases hcases with ⟨htext, -⟩ | ⟨htext, -⟩
  · exact htext ▸ h.folds
  · exact htext ▸ h.folds.append_one (f.entry_other he j.seq)

theorem durability_append (message : Json) (messageId : String) :
    (appendEntry message messageId).durability = .durable := by
  show (RECORD_DURABILITY.lookup "append").getD .durable = .durable
  decide

theorem durability_reset (messages : List Json) (summary : Json) (turnId stepId reason : String) :
    (resetEntry messages summary turnId stepId reason).durability = .durable := by
  show (RECORD_DURABILITY.lookup "reset").getD .durable = .durable
  decide

theorem durability_prepare (id : String) (previous : Projection) :
    (prepareEntry id previous).durability = .durable := by
  show (RECORD_DURABILITY.lookup "state_replace_prepare").getD .durable = .durable
  decide

theorem durability_candidate (id : String) (candidate : Projection) :
    (candidateEntry id candidate).durability = .durable := by
  show (RECORD_DURABILITY.lookup "reset").getD .durable = .durable
  decide

theorem durability_commit (id : String) : (commitEntry id).durability = .durable := by
  show (RECORD_DURABILITY.lookup "state_replace_commit").getD .durable = .durable
  decide

/-- **A replacement on the handle** takes effect when none of its writes
fails, and changes nothing otherwise; it raises exactly then. -/
theorem FoldsTo.replaceState {j : ConversationJournal} {f : Fold} (h : j.FoldsTo f) (uuid : String)
    (messages : List Json) (summary : Json) (prepare reset commit : Bool) :
    ∃ g, (j.replaceState uuid messages summary (failing prepare) (failing reset)
        (failing commit)).1.FoldsTo g
      ∧ g.rollbackPending.projection
        = (if prepare || reset || commit then f.rollbackPending.projection else (messages, summary))
      ∧ ((j.replaceState uuid messages summary (failing prepare) (failing reset)
          (failing commit)).2 = .ok () ↔ (prepare || reset || commit) = false) := by
  unfold ConversationJournal.replaceState
  rw [h.fold]
  simp only
  cases prepare with
  | true =>
      obtain ⟨hj, exc, hexc⟩ := h.write_failed (durability_prepare uuid f.rollbackPending.projection)
      generalize j.write _ _ = r at hj hexc
      obtain ⟨j', r⟩ := r
      obtain rfl : r = .error exc := hexc
      exact ⟨f, hj, rfl, by simp⟩
  | false =>
      obtain ⟨hj, hok⟩ := h.write_ok (f.entry_prepare uuid f.rollbackPending.projection j.seq)
      generalize j.write _ _ = r at hj hok
      obtain ⟨j₁, r⟩ := r
      obtain rfl : r = .ok () := hok
      simp only at hj ⊢
      cases reset with
      | true =>
          obtain ⟨hj', exc, hexc⟩ := hj.write_failed (durability_candidate uuid (messages, summary))
          generalize j₁.write _ _ = r at hj' hexc
          obtain ⟨j₂, r⟩ := r
          obtain rfl : r = .error exc := hexc
          exact ⟨_, hj', Fold.rollbackPending_some rfl, by simp⟩
      | false =>
          obtain ⟨hj', hok⟩ := hj.write_ok
            (Fold.entry_candidate uuid rfl (messages, summary) j₁.seq)
          generalize j₁.write _ _ = r at hj' hok
          obtain ⟨j₂, r⟩ := r
          obtain rfl : r = .ok () := hok
          simp only at hj' ⊢
          cases commit with
          | true =>
              obtain ⟨hj'', exc, hexc⟩ := hj'.write_failed (durability_commit uuid)
              exact ⟨_, hj'', Fold.rollbackPending_some rfl, by simp [hexc]⟩
          | false =>
              obtain ⟨hj'', hok⟩ := hj'.write_ok (Fold.entry_commit uuid rfl j₂.seq)
              exact ⟨_, hj'', rfl, by simp [hok]⟩

/-- **One call** moves the projection by its own effect. -/
theorem FoldsTo.call {j : ConversationJournal} {f : Fold} (h : j.FoldsTo f) : ∀ c : Call,
    ∃ g, (j.call c).FoldsTo g
      ∧ g.rollbackPending.projection = c.effect f.rollbackPending.projection
  | .append message messageId fails => by
      refine ⟨_, h.write (durability_append message messageId)
        (f.entry_append message messageId j.seq) fails, ?_⟩
      cases fails with
      | true => rfl
      | false =>
          rw [Fold.rollbackPending_none (by exact Fold.pending_rollbackPending f)]
          rfl
  | .reset messages summary turnId stepId reason fails => by
      refine ⟨_, h.write (durability_reset messages summary turnId stepId reason)
        (f.entry_reset messages summary turnId stepId reason j.seq) fails, ?_⟩
      cases fails with
      | true => rfl
      | false =>
          rw [Fold.rollbackPending_none (by exact Fold.pending_rollbackPending f)]
          rfl
  | .replaceState uuid candidate prepare reset commit => by
      obtain ⟨g, hg, hproj, -⟩ := h.replaceState uuid candidate.1 candidate.2 prepare reset commit
      exact ⟨g, hg, hproj⟩
  | .other e he fails => ⟨f, h.write_other he fails, rfl⟩

theorem FoldsTo.calls : ∀ (cs : List Call) {j : ConversationJournal} {f : Fold}, j.FoldsTo f →
    ∃ g, (j.calls cs).FoldsTo g
      ∧ g.rollbackPending.projection = cs.foldl Call.effect f.rollbackPending.projection
  | [], _, f, h => ⟨f, h, rfl⟩
  | c :: cs, j, f, h => by
      obtain ⟨g, hg, hproj⟩ := h.call c
      obtain ⟨g', hg', hproj'⟩ := FoldsTo.calls cs hg
      exact ⟨g', hg', by rw [hproj', hproj]; rfl⟩

end ConversationJournal

/-! ## 6. Atomicity -/

theorem Folds.of_foldPath {text : List Char} {p : Projection} (hi : Intact text)
    (h : foldPath text = .ok p) : ∃ f, Folds text f ∧ f.rollbackPending.projection = p := by
  rw [foldPath, foldPathWithReport, readLoop_eq] at h
  cases hf : (entriesOf (decodeLines text)).foldlM Fold.entry {} with
  | error exc => rw [hf] at h; cases h
  | ok f =>
      rw [hf] at h
      exact ⟨f, ⟨hi, hf⟩, Except.ok.inj h⟩

/-- The replacement that was stopped at `cut` is atomic: the journal folds to
the old projection, or to the candidate when the commit record is complete,
and everything called on the reopened journal is folded on top of that. -/
def AtomicReplacement (old : List Char) (seq : Nat) (id : String) (previous candidate : Projection)
    (between later : List Entry) (cut : List Char) : Prop :=
  ∃ p, (CommitComplete seq id previous candidate between later cut → p = candidate)
    ∧ (¬ CommitComplete seq id previous candidate between later cut → p = previous)
    ∧ foldPath (old ++ cut) = .ok p
    ∧ ∀ cs, foldPath ((ConversationJournal.opened (old ++ cut)).calls cs).text
        = .ok (cs.foldl ConversationJournal.Call.effect p)

section

variable {old : List Char} {previous : Projection} {id : String} {candidate : Projection}
  {between later : List Entry} {seq : Nat} {cut : List Char}

theorem folds_whole {f : Fold} (hold : Folds old f) (hb : Unrelated between) (hl : Unrelated later)
    (hcut : cut <+: replacementText seq id f.rollbackPending.projection candidate between later)
    (hwhole : WholeLines cut) : ∃ g, Folds (old ++ cut) g := by
  obtain ⟨k, rfl⟩ := prefix_jsonLines_whole hcut hwhole
  generalize hT : transaction id f.rollbackPending.projection candidate between later = T
  obtain ⟨es₁, es₂, hes, hrec, -⟩ := Entry.records_eq_append
    (List.take_append_drop k (Entry.records seq (T ++ [commitEntry id]))).symm
  rw [hrec]
  have hsub : ∀ v ∈ Entry.records seq es₁, IsRecord v :=
    fun v hv => Entry.isRecord_of_mem_records hv
  rcases prefix_append_cases (⟨es₂, hes.symm⟩ : es₁ <+: T ++ [commitEntry id]) with
    hp | ⟨q, rfl, hq⟩
  · obtain ⟨g, hg, -⟩ := foldlM_transaction f id candidate hb hl (hT ▸ hp) seq
    exact ⟨g, hold.append hsub hg⟩
  · cases q with
    | nil =>
        rw [List.append_nil] at hsub ⊢
        exact ⟨_, hold.append hsub (hT ▸ foldlM_proposed f id candidate hb hl seq)⟩
    | cons e q =>
        rw [List.cons_prefix_cons, List.prefix_nil] at hq
        obtain ⟨rfl, rfl⟩ := hq
        obtain ⟨g, hg, -⟩ := foldlM_committed f id candidate hb hl seq
        exact ⟨g, hold.append hsub (hT ▸ hg)⟩

/-- Behind torn bytes an append changes nothing the fold could see. -/
theorem foldPath_glued {f : Fold} (hold : Folds old f) {pre : List Json} {v : Json} {q : List Char}
    (hpre : ∀ w ∈ pre, IsRecord w) (hv : IsRecord v) (hq : Torn q (jsonLine v)) (hne : q ≠ [])
    {g : Fold} (hg : pre.foldlM Fold.entry f = .ok g) (message : Json) :
    foldPath ((ConversationJournal.opened (old ++ (jsonLines pre ++ q))).calls
      [.append message "" false]).text = .ok g.rollbackPending.projection := by
  obtain ⟨htext, -⟩ := ConversationJournal.write_ok
    (ConversationJournal.opened (old ++ (jsonLines pre ++ q))) (appendEntry message "") rfl
  rw [ConversationJournal.text_opened] at htext
  have hglue := journalEntries_glued [] hv hq hne
    ((appendEntry message "").wordKeyed_record
      (ConversationJournal.opened (old ++ (jsonLines pre ++ q))).seq)
  rw [List.append_nil] at hglue
  show foldPath (ConversationJournal.write _ (appendEntry message "") {}).1.text = _
  rw [htext, List.append_assoc, List.append_assoc]
  refine foldPath_append hold ?_
  rw [journalEntries_jsonLines hpre, hglue, List.append_nil, hg]

end

/-- A candidate that differs from the empty conversation. -/
def sampleCandidate : Projection := ([.str "short"], .str "so far")

end Agenthicc.Memory
