/-
Agenthicc.Background.InboxPublicationTheorems — when a published request is
answered.

A reconcile that looks up a session between the registration of an item and
the session's transition takes a live request for a stale one, and a waiter
whose deadline is over writes `expired` without a look at what it leaves.
`never_dropped` is for the runs without these two; the last section is one run
for each.
-/
import Agenthicc.Background.InboxTheorems

namespace Agenthicc.Background.Inbox

open Python Tables Tasks

variable {env : Env} {s t u : Store} {item row : InboxItem} {item_id : String} {p q : Nat}

/-! ## 1. What a publication keeps -/

/-- The item belongs to the attempt and the lease of its session. -/
def Live (env : Env) (sessions : String → Option Session) (item : InboxItem) : Prop :=
  ∃ session, sessions item.session_id = some session ∧ session.attempt = item.attempt
    ∧ ownerHash env session = item.owner_hash

/-- The session of the item waits for it. -/
abbrev Waited (env : Env) (s : Store) (item : InboxItem) : Prop :=
  currentOwner env (s.sessions item.session_id) item = .ok ()

/-- The statuses of the items of a publication. -/
def publicationStatuses : List InboxStatus := [.publishing, .pending, .accepted, .expired, .failed]

/-- What a waiter has returned is what became of the item. -/
def Answered (s : Store) (item_id : String) : Option Payload → Prop
  | none => ∃ item, s.items.find? item_id = some item ∧ item.status ∈ [.expired, .failed]
  | some answer => ∃ item, s.items.find? item_id = some item ∧ item.status = .accepted
      ∧ item.response = some answer

structure PublicationSound (env : Env) (s : Store) : Prop where
  live : ∀ item_id item, s.items.find? item_id = some item → Live env s.sessions item
  status : ∀ item_id item, s.items.find? item_id = some item → item.status ∈ publicationStatuses
  waited : ∀ item_id item, s.items.find? item_id = some item →
    item.status ∈ [.pending, .accepted] → Waited env s item
  response : ∀ item_id item, s.items.find? item_id = some item →
    (item.response ≠ none ↔ item.status = .accepted)
  returned : ∀ item_id answer, (item_id, answer) ∈ s.returns → Answered s item_id answer

/-- A look at the owner of an open item finds that the session waits for it,
and a waiter gives up on an item that is not answered. -/
def Timely (env : Env) (_p : Nat) (s : Store) : Op → Prop
  | .owner item => ∀ row, s.items.find? item.item_id = some row →
      row.status ∈ [.publishing, .pending, .accepted] → Waited env s row
  | .giveUp item_id _ _ => ∀ item, s.items.find? item_id = some item → item.status ≠ .accepted
  | _ => True

/-- What a process promises of its operations. -/
def Publishing (env : Env) (_p : Nat) (s : Store) : Op → Prop
  | .insert r current _ => ∃ session, s.sessions r.session_id = some session
      ∧ session.attempt = r.attempt ∧ session.lease_token = current.lease_token
  | .activate item_id _ => ∀ item, s.items.find? item_id = some item → Waited env s item
  | .setTerminal item_id .stale _ _ => ∀ item, s.items.find? item_id = some item →
      item.status ∉ [.publishing, .pending, .accepted]
  | .returned item_id answer => Answered s item_id answer
  | .closeExpired _ _ _ _ | .markDelivered _ _ | .expire _ _ _ _ _ | .move _ _ => False
  | _ => True

/-! ### One operation -/

/-- A permitted move. -/
structure PublicationMove (env : Env) (s : Store) (item row : InboxItem) : Prop where
  move : Move item row
  status : row.status ∈ [.pending, .accepted, .expired, .failed]
  waited : row.status ∈ [.pending, .accepted] → Waited env s item
  response : row.status = .accepted → row.response ≠ none

inductive PublicationItems (env : Env) (s : Store) :
    Table InboxItem String (·.item_id) → Prop where
  | same : PublicationItems env s s.items
  | inserted {row : InboxItem} (hnew : s.items.find? row.item_id = none)
      (hstatus : row.status = .publishing) (hresponse : row.response = none)
      (hlive : Live env s.sessions row) : PublicationItems env s (s.items.set row)
  | moved {item row : InboxItem} (hitem : s.items.find? item.item_id = some item)
      (hmove : PublicationMove env s item row) : PublicationItems env s (s.items.set row)

/-- Sessions keep their attempt and lease; they leave `running` only. -/
def Entered (before after : String → Option Session) : Prop :=
  ∀ session_id session, before session_id = some session → ∃ session', after session_id = some session'
    ∧ session'.attempt = session.attempt ∧ session'.lease_token = session.lease_token
    ∧ (session.status ≠ .running → session' = session)

theorem Entered.refl (sessions : String → Option Session) : Entered sessions sessions :=
  fun _ session h => ⟨session, h, rfl, rfl, fun _ => rfl⟩

theorem Entered.trans {a b c : String → Option Session} (h : Entered a b) (h' : Entered b c) :
    Entered a c := by
  intro session_id session hsession
  obtain ⟨mid, hmid, hattempt, hlease, hsame⟩ := h session_id session hsession
  obtain ⟨last, hlast, hattempt', hlease', hsame'⟩ := h' session_id mid hmid
  refine ⟨last, hlast, hattempt'.trans hattempt, hlease'.trans hlease, fun hstatus => ?_⟩
  have hmid_eq := hsame hstatus
  subst hmid_eq
  exact hsame' hstatus

theorem Entered.live {a b : String → Option Session} (h : Entered a b) (hlive : Live env a item) :
    Live env b item := by
  obtain ⟨session, hsession, hattempt, howner⟩ := hlive
  obtain ⟨session', hsession', hattempt', hlease, -⟩ := h item.session_id session hsession
  refine ⟨session', hsession', hattempt'.trans hattempt, ?_⟩
  rw [ownerHash, hlease]
  exact howner

theorem Entered.waited (h : Entered s.sessions t.sessions) (hwaited : Waited env s item) :
    Waited env t item := by
  obtain ⟨session, hsession, hstatus, -⟩ := currentOwner_ok hwaited
  obtain ⟨session', hsession', -, -, hsame⟩ := h item.session_id session hsession
  have hrunning : session.status ≠ .running := by
    rw [hstatus]
    cases item.kind <;> decide
  rw [Waited, hsession', hsame hrunning, ← hsession]
  exact hwaited

structure PublicationEffect (env : Env) (s : Store) (o : Op) (t : Store) : Prop where
  items : PublicationItems env s t.items
  sessions : Entered s.sessions t.sessions
  returns : t.returns = s.returns
    ∨ ∃ item_id answer, o = .returned item_id answer ∧ t.returns = (item_id, answer) :: s.returns

/-- The session that waits depends on what the item is about. -/
theorem currentOwner_congr {session : Option Session} (h : row.identity = item.identity) :
    currentOwner env session row = currentOwner env session item := by
  obtain ⟨hid, hsession, hattempt, howner, hkind⟩ : row.item_id = item.item_id
      ∧ row.session_id = item.session_id ∧ row.attempt = item.attempt
      ∧ row.owner_hash = item.owner_hash ∧ row.kind = item.kind := by
    simpa [InboxItem.identity] using h
  simp only [currentOwner, assertCurrent, hid, hsession, hattempt, howner, hkind]

theorem Waited.of_identity (h : row.identity = item.identity) (hwaited : Waited env s item) :
    Waited env s row := by
  have hsession : row.session_id = item.session_id := congrArg (·.2.1) h
  rw [Waited, hsession, currentOwner_congr h]
  exact hwaited

section Transactions

variable {now : ℚ}

theorem publication_resolved {status : InboxStatus} {reason : String}
    (hitem : s.items.find? item_id = some item) (hopen : item.status ∈ [.publishing, .pending])
    (hstatus : status ∈ [.expired, .failed]) :
    PublicationItems env s (s.put (item.resolved status reason now)).items := by
  have hlegal : ∀ a ∈ [InboxStatus.publishing, .pending], ∀ b ∈ [InboxStatus.expired, .failed],
      (a, b) ∈ legalMoves ∧ b ∈ [InboxStatus.pending, .accepted, .expired, .failed]
        ∧ b ∉ [InboxStatus.pending, .accepted] := by decide
  obtain ⟨hmove, hmem, hclosed⟩ := hlegal _ hopen _ hstatus
  refine .moved (found hitem) ⟨.resolved hmove, hmem, fun h => absurd h hclosed, fun h => ?_⟩
  have haccepted : status = .accepted := h
  rw [haccepted] at hclosed
  exact absurd (by decide) hclosed

theorem publication_setTerminal {status : Store.Terminal} {reason : String}
    (h : status = .stale → ∀ item, s.items.find? item_id = some item →
      item.status ∉ [.publishing, .pending, .accepted]) :
    PublicationItems env s (s.setTerminal item_id status reason now).1.items := by
  unfold Store.setTerminal
  split
  · exact .same
  · rename_i item hitem
    split
    · rename_i hallowed
      cases status with
      | stale =>
          have hperm : ∀ a ∈ Store.Terminal.stale.allowed,
              a ∈ [InboxStatus.publishing, .pending, .accepted] := by decide
          exact absurd (hperm _ hallowed) (h rfl item hitem)
      | expired =>
          have hperm : ∀ a ∈ Store.Terminal.expired.allowed,
              a ∈ [InboxStatus.publishing, .pending] := by decide
          exact publication_resolved hitem (hperm _ hallowed) (by decide)
      | failed =>
          have hperm : ∀ a ∈ Store.Terminal.failed.allowed,
              a ∈ [InboxStatus.publishing, .pending] := by decide
          exact publication_resolved hitem (hperm _ hallowed) (by decide)
    · exact .same

theorem publication_activate
    (h : ∀ item, s.items.find? item_id = some item → Waited env s item) :
    PublicationItems env s (s.activate item_id now).1.items := by
  unfold Store.activate
  split
  · exact .same
  · rename_i item hitem
    split
    · rename_i hstatus
      have hlegal : (item.status, InboxStatus.pending) ∈ legalMoves := by rw [hstatus]; decide
      have hmem : (item.moved .pending now).status ∈
          [InboxStatus.pending, .accepted, .expired, .failed] := List.mem_cons_self
      exact .moved (found hitem) ⟨.moved hlegal, hmem, fun _ => h item hitem, fun h => nomatch h⟩
    · exact .same

theorem publication_respond {response : Payload} {version : Int} {key : String}
    (h : ∀ item, s.items.find? item_id = some item → item.status = .pending → Waited env s item) :
    PublicationItems env s (s.respond env item_id response version key now).1.items := by
  unfold Store.respond
  split
  · exact .same
  · split
    · exact .same
    · dsimp only
      split
      · exact .same
      · rename_i item hitem
        split
        · split <;> exact .same
        · split
          · exact .same
          · rename_i hpending
            have hstatus : item.status = .pending := by
              by_contra hne
              exact hpending (.inl hne)
            have hwaited := h item hitem hstatus
            split
            · exact publication_resolved hitem (by rw [hstatus]; decide) (by decide)
            · split
              · exact .same
              · rw [hwaited]
                have hlegal : (item.status, InboxStatus.accepted) ∈ legalMoves := by
                  rw [hstatus]
                  decide
                refine .moved (found hitem) ⟨⟨hlegal, rfl, rfl, fun h => absurd rfl h⟩, ?_,
                  fun _ => hwaited, fun _ h => by cases h⟩
                exact List.mem_cons_of_mem _ List.mem_cons_self

theorem publication_insert {r : Registration} {current : Session} {created : ℚ}
    (h : ∃ session, s.sessions r.session_id = some session ∧ session.attempt = r.attempt
      ∧ session.lease_token = current.lease_token) :
    PublicationItems env s (s.insert env (r.row env current created)).1.items := by
  unfold Store.insert
  split
  · split <;> exact .same
  · rename_i hnew
    obtain ⟨session, hsession, hattempt, hlease⟩ := h
    exact .inserted hnew rfl rfl ⟨session, hsession, hattempt, congrArg env.sha256 hlease⟩

theorem entered_waiting (s : Store) (session_id : String) (kind : InboxKind) (item_id : String) :
    Entered s.sessions (s.waiting session_id kind item_id).1.sessions := by
  unfold Store.waiting
  split
  · exact .refl _
  · rename_i session hsession
    split
    · exact .refl _
    · rename_i hrunning
      intro id other hother
      dsimp only
      by_cases hid : id = session_id
      · subst hid
        rw [hsession, Option.some.injEq] at hother
        subst hother
        rw [Function.update_self]
        exact ⟨_, rfl, rfl, rfl, fun hne => absurd (not_not.mp hrunning) hne⟩
      · rw [Function.update_of_ne hid]
        exact ⟨other, hother, rfl, rfl, fun _ => rfl⟩

/-- A transaction on the items leaves the sessions and what was returned. -/
def OnItems (s t : Store) : Prop := t.sessions = s.sessions ∧ t.returns = s.returns

theorem onItems_setTerminal {status : Store.Terminal} {reason : String} :
    OnItems s (s.setTerminal item_id status reason now).1 := by
  unfold Store.setTerminal
  split
  · exact ⟨rfl, rfl⟩
  · split <;> exact ⟨rfl, rfl⟩

theorem onItems_activate : OnItems s (s.activate item_id now).1 := by
  unfold Store.activate
  split
  · exact ⟨rfl, rfl⟩
  · split <;> exact ⟨rfl, rfl⟩

theorem onItems_insert : OnItems s (s.insert env item).1 := by
  unfold Store.insert
  split
  · split <;> exact ⟨rfl, rfl⟩
  · exact ⟨rfl, rfl⟩

theorem onItems_respond {response : Payload} {version : Int} {key : String} :
    OnItems s (s.respond env item_id response version key now).1 := by
  unfold Store.respond
  split
  · exact ⟨rfl, rfl⟩
  · split
    · exact ⟨rfl, rfl⟩
    · dsimp only
      split
      · exact ⟨rfl, rfl⟩
      · split
        · split <;> exact ⟨rfl, rfl⟩
        · split
          · exact ⟨rfl, rfl⟩
          · split
            · exact ⟨rfl, rfl⟩
            · split
              · exact ⟨rfl, rfl⟩
              · split <;> exact ⟨rfl, rfl⟩

theorem onItems_waiting {session_id : String} {kind : InboxKind} :
    (s.waiting session_id kind item_id).1.returns = s.returns := by
  unfold Store.waiting
  split
  · rfl
  · split <;> rfl

end Transactions

theorem PublicationEffect.of_items {o : Op} (hitems : PublicationItems env s t.items)
    (h : OnItems s t) : PublicationEffect env s o t :=
  ⟨hitems, h.1 ▸ .refl _, .inl h.2⟩

theorem apply_publication {o : Op}
    (hwaited : ∀ item_id item, s.items.find? item_id = some item → item.status = .pending →
      Waited env s item) (h : Publishing env p s o) :
    PublicationEffect env s o (apply env s o).1 := by
  cases o with
  | insert r current created => exact .of_items (publication_insert h) onItems_insert
  | activate item_id now => exact .of_items (publication_activate h) onItems_activate
  | setTerminal item_id status reason now =>
      refine .of_items (publication_setTerminal fun hstale => ?_) onItems_setTerminal
      subst hstale
      exact h
  | giveUp item_id reason now =>
      exact .of_items (publication_setTerminal fun h => nomatch h) onItems_setTerminal
  | respond item_id response version key now =>
      exact .of_items (publication_respond (hwaited item_id)) onItems_respond
  | waiting session_id kind item_id =>
      have hitems : (apply env s (.waiting session_id kind item_id)).1.items = s.items :=
        (waiting_items s session_id kind item_id).1
      exact ⟨hitems ▸ .same, entered_waiting s session_id kind item_id, .inl onItems_waiting⟩
  | returned item_id answer => exact ⟨.same, .refl _, .inr ⟨item_id, answer, rfl, rfl⟩⟩
  | closeExpired => exact h.elim
  | markDelivered => exact h.elim
  | expire => exact h.elim
  | move => exact h.elim
  | _ => exact .of_items .same ⟨rfl, rfl⟩

theorem PublicationEffect.ticked {n : Nat} {o : Op}
    (h : PublicationEffect env { s with ticks := n } o t) : PublicationEffect env s o t := by
  refine ⟨?_, h.sessions, h.returns⟩
  have hitems := h.items
  generalize t.items = items at hitems ⊢
  cases hitems with
  | same => exact .same
  | inserted hnew hstatus hresponse hlive => exact .inserted hnew hstatus hresponse hlive
  | moved hitem hmove =>
      exact .moved hitem ⟨hmove.move, hmove.status, hmove.waited, hmove.response⟩

theorem publication_effect {o : Op} (hsound : PublicationSound env s)
    (h : Publishing env p s o) : PublicationEffect env s o (perform env p s o).1 := by
  have happly : PublicationEffect env { s with ticks := s.ticks + 1 } o
      (apply env { s with ticks := s.ticks + 1 } o).1 :=
    apply_publication (p := p) (fun item_id item hitem hpending =>
      hsound.waited item_id item hitem (by rw [hpending]; decide)) (by
        cases o <;> exact h)
  exact happly.ticked

/-! ## 2. The argument -/

/-- What the others leave of what a process knows: an item is about the same,
and an accepted, expired or failed one stays as it is. -/
structure Kept (s t : Store) : Prop where
  items : ∀ item_id item, s.items.find? item_id = some item → ∃ row,
    t.items.find? item_id = some row ∧ row.identity = item.identity
      ∧ (item.status ∈ [.accepted, .expired, .failed] → row = item)
  sessions : Entered s.sessions t.sessions

theorem Kept.refl (s : Store) : Kept s s :=
  ⟨fun _ item h => ⟨item, h, rfl, fun _ => rfl⟩, .refl _⟩

theorem Kept.trans (h : Kept s t) (h' : Kept t u) : Kept s u := by
  refine ⟨fun item_id item hitem => ?_, h.sessions.trans h'.sessions⟩
  obtain ⟨mid, hmid, hidentity, hsame⟩ := h.items item_id item hitem
  obtain ⟨row, hrow, hidentity', hsame'⟩ := h'.items item_id mid hmid
  refine ⟨row, hrow, hidentity'.trans hidentity, fun hstatus => ?_⟩
  have hmid_eq := hsame hstatus
  subst hmid_eq
  exact hsame' hstatus

theorem Kept.answered {answer : Option Payload} (h : Kept s t) (hanswered : Answered s item_id answer) :
    Answered t item_id answer := by
  cases answer with
  | none =>
      obtain ⟨item, hitem, hstatus⟩ := hanswered
      obtain ⟨row, hrow, -, hsame⟩ := h.items item_id item hitem
      have hclosed : ∀ a ∈ [InboxStatus.expired, .failed],
          a ∈ [InboxStatus.accepted, .expired, .failed] := by decide
      exact ⟨item, hsame (hclosed _ hstatus) ▸ hrow, hstatus⟩
  | some answer =>
      obtain ⟨item, hitem, hstatus, hresponse⟩ := hanswered
      obtain ⟨row, hrow, -, hsame⟩ := h.items item_id item hitem
      exact ⟨item, hsame (by rw [hstatus]; decide) ▸ hrow, hstatus, hresponse⟩

/-- An item that a publication moves was not closed or answered. -/
theorem PublicationMove.unanswered (h : PublicationMove env s item row) :
    item.status ∉ [.accepted, .expired, .failed] := by
  have hmoves : ∀ m ∈ legalMoves, m.2 ∈ [InboxStatus.pending, .accepted, .expired, .failed] →
      m.1 ∉ [InboxStatus.accepted, .expired, .failed] := by decide
  exact hmoves _ h.move.legal h.status

theorem PublicationEffect.step {o : Op} (h : PublicationEffect env s o t)
    (hitem : s.items.find? item_id = some item) : ∃ row, t.items.find? item_id = some row
      ∧ (row = item ∨ PublicationMove env s item row) := by
  have hitems := h.items
  generalize t.items = items at hitems ⊢
  cases hitems with
  | same => exact ⟨item, hitem, .inl rfl⟩
  | @inserted row hnew hstatus hresponse hlive =>
      have hne : row.item_id ≠ item_id := by
        rintro rfl
        rw [hnew] at hitem
        cases hitem
      exact ⟨item, by rw [Table.find?_set_ne _ hne, hitem], .inl rfl⟩
  | @moved found row hfound hmove =>
      by_cases heq : found.item_id = item_id
      · rw [heq, hitem, Option.some.injEq] at hfound
        subst hfound
        refine ⟨row, ?_, .inr hmove⟩
        rw [Table.find?_set, if_pos (hmove.move.item_id.trans heq)]
      · have hne : row.item_id ≠ item_id := fun h => heq (hmove.move.item_id.symm.trans h)
        exact ⟨item, by rw [Table.find?_set_ne _ hne, hitem], .inl rfl⟩

theorem PublicationEffect.source {o : Op} (h : PublicationEffect env s o t)
    (hrow : t.items.find? item_id = some row) :
    s.items.find? item_id = some row
      ∨ (row.status = .publishing ∧ row.response = none ∧ Live env s.sessions row)
      ∨ ∃ item, s.items.find? item_id = some item ∧ PublicationMove env s item row := by
  have hitems := h.items
  generalize t.items = items at hitems hrow
  cases hitems with
  | same => exact .inl hrow
  | @inserted row' hnew hstatus hresponse hlive =>
      rw [Table.find?_set] at hrow
      split at hrow
      · cases hrow
        exact .inr (.inl ⟨hstatus, hresponse, hlive⟩)
      · exact .inl hrow
  | @moved found row' hfound hmove =>
      rw [Table.find?_set] at hrow
      split at hrow
      · rename_i hid
        cases hrow
        have hfound_id : found.item_id = item_id := hmove.move.item_id.symm.trans hid
        exact .inr (.inr ⟨found, hfound_id ▸ hfound, hmove⟩)
      · exact .inl hrow

theorem kept_effect {o : Op} (h : PublicationEffect env s o t) : Kept s t := by
  refine ⟨fun item_id item hitem => ?_, h.sessions⟩
  obtain ⟨row, hrow, rfl | hmove⟩ := h.step hitem
  · exact ⟨row, hrow, rfl, fun _ => rfl⟩
  · exact ⟨row, hrow, hmove.move.identity, fun hstatus => absurd hstatus hmove.unanswered⟩

theorem Live.of_identity {sessions : String → Option Session} (h : row.identity = item.identity)
    (hlive : Live env sessions item) : Live env sessions row := by
  obtain ⟨-, hsession, hattempt, howner, -⟩ : row.item_id = item.item_id
      ∧ row.session_id = item.session_id ∧ row.attempt = item.attempt
      ∧ row.owner_hash = item.owner_hash ∧ row.kind = item.kind := by
    simpa [InboxItem.identity] using h
  rw [Live, hsession, hattempt, howner]
  exact hlive

theorem publication_sound {o : Op} (hsound : PublicationSound env s)
    (h : PublicationEffect env s o t) (hpublishing : Publishing env p s o) :
    PublicationSound env t := by
  have hkept := kept_effect h
  refine ⟨fun item_id row hrow => ?_, fun item_id row hrow => ?_, fun item_id row hrow hopen => ?_,
    fun item_id row hrow => ?_, fun item_id answer hmem => ?_⟩
  · rcases h.source hrow with hold | ⟨-, -, hlive⟩ | ⟨item, hitem, hmove⟩
    · exact h.sessions.live (hsound.live item_id row hold)
    · exact h.sessions.live hlive
    · exact (h.sessions.live (hsound.live item_id item hitem)).of_identity hmove.move.identity
  · rcases h.source hrow with hold | ⟨hstatus, -, -⟩ | ⟨item, hitem, hmove⟩
    · exact hsound.status item_id row hold
    · rw [hstatus]
      decide
    · exact List.mem_cons_of_mem _ hmove.status
  · rcases h.source hrow with hold | ⟨hstatus, -, -⟩ | ⟨item, hitem, hmove⟩
    · exact h.sessions.waited (hsound.waited item_id row hold hopen)
    · rw [hstatus] at hopen
      exact absurd hopen (by decide)
    · exact (h.sessions.waited (hmove.waited hopen)).of_identity hmove.move.identity
  · rcases h.source hrow with hold | ⟨hstatus, hresponse, -⟩ | ⟨item, hitem, hmove⟩
    · exact hsound.response item_id row hold
    · simp [hstatus, hresponse]
    · constructor
      · intro hsome
        by_contra hother
        rw [hmove.move.response hother] at hsome
        have haccepted := (hsound.response item_id item hitem).mp hsome
        exact hmove.unanswered (by rw [haccepted]; decide)
      · exact hmove.response
  · rcases h.returns with hsame | ⟨id, answer', rfl, hcons⟩
    · rw [hsame] at hmem
      exact hkept.answered (hsound.returned item_id answer hmem)
    · rw [hcons] at hmem
      rcases List.mem_cons.mp hmem with heq | hold
      · cases heq
        exact hkept.answered hpublishing
      · exact hkept.answered (hsound.returned item_id answer hold)

/-- The rely/guarantee argument for publications. -/
def publishing (env : Env) : Discipline (publicationSystem env) where
  Inv := PublicationSound env
  Idle _ _ := True
  Ok := Timely env
  Rely _ := Kept
  Guar := Publishing env
  rely_refl _ := Kept.refl
  rely_trans := Kept.trans
  idle_rely _ _ := trivial
  guar_inv h _ hpublishing := publication_sound h (publication_effect h hpublishing) hpublishing
  guar_rely _ h _ hpublishing := kept_effect (publication_effect h hpublishing)
  died_inv h := h
  died_rely _ _ := Kept.refl _

/-! ## 3. What the calls promise -/

section Calls

variable {α : Type} {Q : α → Store → Prop}

/-- Operations that promise nothing. -/
abbrev Harmless (o : Op) : Prop := ∀ (env : Env) p s, Publishing env p s o

theorem wp_harmless {prog : Prog α} (h : prog.Calls Harmless) :
    (publishing env).Wp p prog (fun _ _ => True) s :=
  Discipline.Wp.of_calls (P := Harmless) (J := fun _ => True) (fun _ _ => trivial)
    (fun _ _ _ _ => trivial) (fun s _ ho => ho env p s) h trivial

/-- A process knows of an item what it is about. -/
def Known (item_id : String) (item : InboxItem) (s : Store) : Prop :=
  ∃ row, s.items.find? item_id = some row ∧ row.identity = item.identity

theorem stable_known : (publishing env).Stable p (Known item_id item) := by
  rintro s t hr ⟨row, hrow, hidentity⟩
  obtain ⟨row', hrow', hidentity', -⟩ := hr.items item_id row hrow
  exact ⟨row', hrow', hidentity'.trans hidentity⟩

/-- The session waits for the item. -/
def Awaited (env : Env) (item_id : String) (s : Store) : Prop :=
  ∃ row, s.items.find? item_id = some row ∧ Waited env s row

theorem stable_awaited : (publishing env).Stable p (Awaited env item_id) := by
  rintro s t hr ⟨row, hrow, hwaited⟩
  obtain ⟨row', hrow', hidentity, -⟩ := hr.items item_id row hrow
  exact ⟨row', hrow', (hr.sessions.waited hwaited).of_identity hidentity⟩

theorem stable_answered {answer : Option Payload} :
    (publishing env).Stable p fun s => Answered s item_id answer := fun hr h => hr.answered h

/-- What the others keep, the operations of the process keep too. -/
theorem wp_keep {prog : Prog α} {J : Store → Prop} (hJ : ∀ {q}, (publishing env).Stable q J)
    (hw : (publishing env).Wp p prog Q s) (h : J s) :
    (publishing env).Wp p prog (fun a s => Q a s ∧ J s) s :=
  Discipline.Wp.keep hJ (fun hinv _ hguar hs =>
    hJ (q := p) (kept_effect (publication_effect (p := p) hinv hguar)) hs) hw h

theorem stable_true : (publishing env).Stable p fun _ => True := fun _ _ => trivial

theorem harmless_setTerminal {status : Store.Terminal} {reason : String} {now : ℚ}
    (h : status ≠ .stale) : Harmless (.setTerminal item_id status reason now) := by
  intro env p s
  cases status with
  | stale => exact absurd rfl h
  | expired => trivial
  | failed => trivial

theorem calls_currentTime (now : Option ℚ) : (currentTime now).Calls Harmless := by
  cases now with
  | some now => trivial
  | none => exact .ask fun _ _ _ => trivial

theorem wp_currentTime {now : Option ℚ} {f : ℚ → Prog α} {J : Store → Prop}
    (hJ : (publishing env).Stable p J) (htick : ∀ s, J s → J { s with ticks := s.ticks + 1 })
    (h : J s) (hf : ∀ now s, J s → (publishing env).Wp p (f now) Q s) :
    (publishing env).Wp p (currentTime now >>= f) Q s := by
  cases now with
  | some now => exact hf now s h
  | none => exact Discipline.Wp.call hJ h fun s hs _ _ => ⟨trivial, hf _ _ (htick s hs)⟩

/-! ### Looking up owners -/

theorem staleReason_none_iff {session : Option Session} :
    staleReason env session item = none ↔ currentOwner env session item = .ok () := by
  cases session with
  | none => simp [staleReason, currentOwner]
  | some session =>
      simp only [staleReason, currentOwner]
      cases assertCurrent env session item with
      | error reason => simp
      | ok u => simp

/-- The item is closed without an answer. -/
def Closed (item_id : String) (s : Store) : Prop :=
  ∃ row, s.items.find? item_id = some row ∧ row.status ∈ [.expired, .failed]

/-- A look at the owner of an item finds that it waits, or the item is
closed. -/
theorem wp_owner {next : Option Session → Prog α} (hknown : Known item.item_id item s)
    (hstale : ∀ session s, staleReason env session item ≠ none → Closed item.item_id s →
      (publishing env).Wp p (next session) Q s)
    (hwaits : ∀ session s, staleReason env session item = none → Awaited env item.item_id s →
      (publishing env).Wp p (next session) Q s) :
    (publishing env).Wp p (.call (.owner item) next) Q s := by
  refine Discipline.Wp.call stable_known hknown fun s hs hinv hok => ⟨trivial, ?_⟩
  obtain ⟨row, hrow, hidentity⟩ := hs
  have hsession : row.session_id = item.session_id := congrArg (·.2.1) hidentity
  have hreply : ((publicationSystem env).perform p s (.owner item)).2
      = s.sessions item.session_id := rfl
  rw [hreply]
  have hrow_owner : currentOwner env (s.sessions row.session_id) row
      = currentOwner env (s.sessions item.session_id) item := by
    rw [hsession, currentOwner_congr hidentity]
  by_cases hreason : staleReason env (s.sessions item.session_id) item = none
  · refine hwaits _ _ hreason ⟨row, hrow, ?_⟩
    exact hrow_owner.trans (staleReason_none_iff.mp hreason)
  · refine hstale _ _ hreason ⟨row, hrow, ?_⟩
    have hnot : row.status ∉ [.publishing, .pending, .accepted] := fun hopen =>
      hreason (staleReason_none_iff.mpr (hrow_owner.symm.trans (hok row hrow hopen)))
    have hall : ∀ st ∈ publicationStatuses, st ∉ [InboxStatus.publishing, .pending, .accepted] →
        st ∈ [InboxStatus.expired, .failed] := by decide
    exact hall _ (hinv.status _ row hrow) hnot

theorem stable_closed : (publishing env).Stable p (Closed item_id) :=
  fun hr (h : Answered _ item_id none) => hr.answered h

theorem wp_setStale {reason : String} {now : Option ℚ} (h : Closed item_id s) :
    (publishing env).Wp p (setTerminal item_id .stale reason now) (fun _ _ => True) s := by
  refine wp_currentTime stable_closed (fun _ h => h) h fun now s hs => ?_
  refine Discipline.Wp.call stable_closed hs fun s hs _ _ => ⟨fun item hitem => ?_, trivial⟩
  obtain ⟨row, hrow, hclosed⟩ := hs
  rw [hitem, Option.some.injEq] at hrow
  subst hrow
  have hnot : ∀ st ∈ [InboxStatus.expired, .failed],
      st ∉ [InboxStatus.publishing, .pending, .accepted] := by decide
  exact hnot _ hclosed

theorem wp_after {β : Type} {prog : Prog α} {f : α → Prog β}
    (h : (publishing env).Wp p prog (fun _ _ => True) s)
    (hf : ∀ a, (f a).Calls Harmless) :
    (publishing env).Wp p (prog >>= f) (fun _ _ => True) s :=
  Discipline.Wp.bind (h.imp fun a _ _ => wp_harmless (hf a))

theorem wp_activate (h : Awaited env item_id s) :
    (publishing env).Wp p (activate item_id) (fun _ => Awaited env item_id) s := by
  have hwp : (publishing env).Wp p (activate item_id) (fun _ _ => True) s := by
    simp only [activate, Task.bind_ask]
    refine Discipline.Wp.call stable_awaited h fun s hs _ _ => ⟨trivial, ?_⟩
    refine Discipline.Wp.call stable_awaited hs fun s hs _ _ => ⟨fun item hitem => ?_, trivial⟩
    obtain ⟨row, hrow, hwaited⟩ := hs
    rw [hitem, Option.some.injEq] at hrow
    exact hrow ▸ hwaited
  exact (wp_keep stable_awaited hwp h).imp fun _ _ hs => hs.2

theorem wp_reconcileRow {now : ℚ} (h : Known item.item_id item s) :
    (publishing env).Wp p (reconcileRow env now item) (fun _ _ => True) s := by
  simp only [reconcileRow, Task.bind_ask]
  refine wp_owner h (fun session s hstale hclosed => ?_) (fun session s hcurrent hwaits => ?_)
  · obtain ⟨reason, hreason⟩ := Option.ne_none_iff_exists'.mp hstale
    rw [hreason]
    refine wp_after (wp_setStale hclosed) fun result => ?_
    cases result <;> trivial
  · rw [hcurrent]
    dsimp only
    split
    · refine wp_after (wp_harmless ?_) fun result => ?_
      · exact .bind (calls_currentTime _) fun _ => .ask (harmless_setTerminal (by decide))
      · cases result <;> trivial
    · split
      · refine wp_after ((wp_activate hwaits).imp fun _ _ _ => trivial) fun result => ?_
        cases result <;> trivial
      · trivial

theorem known_select {query : Store.Query} (hmem : item ∈ s.select query) :
    Known item.item_id item s := by
  have hrow : item ∈ s.items.rows := (List.mem_filter.mp (mem_of_mem_window hmem)).1
  exact ⟨item, Table.find?_key hrow, rfl⟩

/-- The items of a list are known. -/
def AllKnown (items : List InboxItem) (s : Store) : Prop :=
  ∀ item ∈ items, Known item.item_id item s

theorem stable_allKnown {items : List InboxItem} : (publishing env).Stable p (AllKnown items) :=
  fun hr h item hitem => stable_known hr (h item hitem)

theorem wp_reconcile {now : Option ℚ} :
    (publishing env).Wp p (reconcile env now) (fun _ _ => True) s := by
  refine wp_currentTime stable_true (fun _ h => h) trivial fun current_time s _ => ?_
  simp only [Task.bind_ask]
  refine Discipline.Wp.call stable_true trivial fun s _ _ _ => ⟨trivial, ?_⟩
  have hknown : AllKnown (s.select { statuses := [.publishing, .pending, .accepted] })
      { s with ticks := s.ticks + 1 } := fun item hitem => known_select hitem
  change (publishing env).Wp p (Task.each (reconcileRow env current_time)
    (s.select { statuses := [.publishing, .pending, .accepted] })) _ { s with ticks := s.ticks + 1 }
  generalize s.select { statuses := [.publishing, .pending, .accepted] } = rows at hknown ⊢
  refine (Discipline.Wp.each (J := AllKnown rows) (fun item hitem s hs => ?_) hknown).imp
    fun _ _ _ => trivial
  exact (wp_keep stable_allKnown (wp_reconcileRow (hs item hitem)) hs).imp fun _ _ h => h.2

/-! ### Listing -/

theorem wp_markIfStale (h : Known item.item_id item s) :
    (publishing env).Wp p (markIfStale env item) (fun _ _ => True) s := by
  simp only [markIfStale, Task.bind_ask]
  refine wp_owner h (fun session s hstale hclosed => ?_) (fun session s hcurrent hwaits => ?_)
  · obtain ⟨reason, hreason⟩ := Option.ne_none_iff_exists'.mp hstale
    rw [hreason]
    refine wp_after (wp_setStale hclosed) fun result => ?_
    cases result <;> trivial
  · rw [hcurrent]
    trivial

theorem wp_withoutStale (items : List InboxItem) (h : AllKnown items s) :
    (publishing env).Wp p (withoutStale env items) (fun _ _ => True) s := by
  induction items generalizing s with
  | nil => trivial
  | cons item items ih =>
      have hrest : AllKnown items s := fun item hitem => h item (List.mem_cons_of_mem _ hitem)
      simp only [withoutStale]
      split
      · refine wp_after (ih hrest) fun result => ?_
        cases result <;> trivial
      · refine Discipline.Wp.bind ((wp_keep stable_allKnown
          (wp_markIfStale (h item List.mem_cons_self)) hrest).imp fun stale s hs => ?_)
        cases stale with
        | error exc => trivial
        | ok stale =>
            refine wp_after (ih hs.2) fun result => ?_
            cases result <;> trivial

theorem wp_listItems {l : Listing} :
    (publishing env).Wp p (listItems env l) (fun _ _ => True) s := by
  unfold listItems
  split
  · trivial
  · have hcutoff : l.cutoff.Calls Harmless := by
      unfold Listing.cutoff
      split
      · trivial
      · exact .bind (calls_currentTime _) fun _ => trivial
    refine Discipline.Wp.bind ((wp_harmless hcutoff).imp fun cutoff s _ => ?_)
    simp only [Task.bind_ask]
    refine Discipline.Wp.call stable_true trivial fun s _ _ _ => ⟨trivial, ?_⟩
    split
    · exact wp_withoutStale _ fun item hitem => known_select hitem
    · trivial

/-! ### Publishing and waiting -/

theorem calls_respond {response : Payload} {version : Int} {key : String} {now : Option ℚ} :
    (respond item_id response version key now).Calls Harmless :=
  .bind (calls_currentTime now) fun _ => .ask fun _ _ _ => trivial

/-- The items with an ID are about one session and kind. -/
def Registered (item_id session_id : String) (kind : InboxKind) (s : Store) : Prop :=
  ∃ row, s.items.find? item_id = some row ∧ row.session_id = session_id ∧ row.kind = kind

theorem stable_registered {session_id : String} {kind : InboxKind} :
    (publishing env).Stable p (Registered item_id session_id kind) := by
  rintro s t hr ⟨row, hrow, hsession, hkind⟩
  obtain ⟨row', hrow', hidentity, -⟩ := hr.items item_id row hrow
  exact ⟨row', hrow', (congrArg (·.2.1) hidentity).trans hsession,
    (congrArg (·.2.2.2.2) hidentity).trans hkind⟩

/-- The session runs under the attempt and the lease, or has done so. -/
def Owned (session_id : String) (attempt : Int) (lease_token : String) (s : Store) : Prop :=
  ∃ session, s.sessions session_id = some session ∧ session.attempt = attempt
    ∧ session.lease_token = lease_token

theorem stable_owned {session_id : String} {attempt : Int} {lease_token : String} :
    (publishing env).Stable p (Owned session_id attempt lease_token) := by
  rintro s t hr ⟨session, hsession, hattempt, hlease⟩
  obtain ⟨session', hsession', hattempt', hlease', -⟩ := hr.sessions session_id session hsession
  exact ⟨session', hsession', hattempt'.trans hattempt, hlease'.trans hlease⟩

theorem wp_register {r : Registration} {now : Option ℚ} :
    (publishing env).Wp p (register env r now) (fun result s => ∀ item, result = .ok item →
      Registered item.item_id r.session_id r.kind s) s := by
  unfold register
  split
  · exact fun _ h => nomatch h
  · simp only [Task.bind_ask]
    refine Discipline.Wp.call stable_true trivial fun s _ _ _ => ⟨trivial, ?_⟩
    have hreply : ((publicationSystem env).perform p s (.session r.session_id)).2
        = s.sessions r.session_id := rfl
    rw [hreply]
    cases hsession : s.sessions r.session_id with
    | none => exact fun _ h => nomatch h
    | some current =>
        dsimp only
        split
        · rename_i hfits
          have howned : Owned r.session_id r.attempt current.lease_token
              { s with ticks := s.ticks + 1 } := by
            simp only [Registration.fits, Bool.and_eq_true, decide_eq_true_eq] at hfits
            exact ⟨current, hsession, hfits.1, rfl⟩
          refine wp_currentTime stable_owned (fun _ h => h) howned fun created s hs => ?_
          refine Discipline.Wp.call stable_owned hs fun s hs _ _ => ⟨hs, fun item hitem => ?_⟩
          have hspec : ∀ (t : Store) item, (t.insert env (r.row env current created)).2 = .ok item →
              Registered item.item_id r.session_id r.kind
                (t.insert env (r.row env current created)).1 := by
            intro t item
            unfold Store.insert
            split
            · rename_i row hrow
              split
              · exact fun h => nomatch h
              · rename_i hsame
                push Not at hsame
                intro h
                cases h
                exact ⟨item, found hrow, hsame.1, hsame.2.2.2.1⟩
            · intro h
              cases h
              exact ⟨r.row env current created, Table.find?_set_self _ _, rfl, rfl⟩
          exact hspec { s with ticks := s.ticks + 1 } item hitem
        · exact fun _ h => nomatch h

theorem wp_transition {session_id : String} {kind : InboxKind}
    (h : Registered item_id session_id kind s) :
    (publishing env).Wp p (transitionToWaiting session_id kind item_id)
      (fun result s => result = .ok () → Awaited env item_id s) s := by
  simp only [transitionToWaiting, Task.bind_ask]
  refine Discipline.Wp.call stable_registered h fun s hs _ _ => ⟨trivial, ?_⟩
  split
  · exact fun h => by cases h
  · split
    · exact fun h => by cases h
    · split
      · exact fun h => by cases h
      · refine Discipline.Wp.call stable_registered hs fun s hs hinv _ => ⟨trivial, fun hok => ?_⟩
        obtain ⟨row, hrow, hsession_id, hkind⟩ := hs
        have hlive := hinv.live item_id row hrow
        have hid : row.item_id = item_id := Table.key_of_find? hrow
        have hspec : ∀ t : Store, t.items = s.items → t.sessions = s.sessions →
            (t.waiting session_id kind item_id).2 = .ok () →
            (t.waiting session_id kind item_id).1.items.find? item_id = some row
              ∧ currentOwner env ((t.waiting session_id kind item_id).1.sessions row.session_id) row
                = .ok () := by
          intro t hitems hsessions
          unfold Store.waiting
          split
          · exact fun h => by cases h
          · rename_i session hsession
            split
            · exact fun h => by cases h
            · intro _
              obtain ⟨session', hsession', hattempt, howner⟩ := hlive
              rw [← hsessions, hsession_id, hsession, Option.some.injEq] at hsession'
              subst hsession'
              refine ⟨(congrArg (·.find? item_id) hitems).trans hrow, ?_⟩
              dsimp only
              rw [hsession_id, Function.update_self]
              have hdeleted : waitingStatus kind ≠ .deleted := by cases kind <;> decide
              have howner' : env.sha256 session.lease_token = row.owner_hash := howner
              cases kind <;>
                simp [currentOwner, assertCurrent, hkind, waitingStatus, currentItemId, hid,
                  hattempt, ownerHash, howner']
        exact ⟨row, hspec { s with ticks := s.ticks + 1 } rfl rfl hok⟩

theorem wp_acceptedAnswer (h : Awaited env item_id s) :
    (publishing env).Wp p (acceptedAnswer env item_id) (fun result s => ∀ answer,
      result = .ok (some answer) → Answered s item_id (some answer)) s := by
  simp only [acceptedAnswer, Task.bind_ask]
  refine Discipline.Wp.call stable_awaited h fun s hs hinv _ => ⟨trivial, ?_⟩
  obtain ⟨row, hrow, hwaited⟩ := hs
  have hreply : ((publicationSystem env).perform p s (.row item_id)).2 = some row := hrow
  rw [hreply]
  dsimp only
  split
  · exact fun _ h => nomatch h
  · rename_i haccepted
    have hstatus : row.status = .accepted := not_not.mp haccepted
    obtain ⟨answer, hanswer⟩ := Option.ne_none_iff_exists'.mp
      ((hinv.response item_id row hrow).mpr hstatus)
    have hknown : Answered { s with ticks := s.ticks + 1 } item_id (some answer)
        ∧ (∃ row', { s with ticks := s.ticks + 1 }.items.find? item_id = some row'
          ∧ row'.identity = row.identity ∧ Waited env { s with ticks := s.ticks + 1 } row') :=
      ⟨⟨row, hrow, hstatus, hanswer⟩, row, hrow, rfl, hwaited⟩
    have hstable : (publishing env).Stable p fun s => Answered s item_id (some answer)
        ∧ ∃ row', s.items.find? item_id = some row' ∧ row'.identity = row.identity
          ∧ Waited env s row' := by
      rintro s t hr ⟨hanswered, row', hrow', hidentity, hwaited⟩
      obtain ⟨row'', hrow'', hidentity', -⟩ := hr.items item_id row' hrow'
      exact ⟨hr.answered hanswered, row'', hrow'', hidentity'.trans hidentity,
        (hr.sessions.waited hwaited).of_identity hidentity'⟩
    refine Discipline.Wp.call hstable hknown fun s hs _ _ => ⟨trivial, ?_⟩
    obtain ⟨hanswered, row', hrow', hidentity, hwaited⟩ := hs
    have hsession : row'.session_id = row.session_id := congrArg (·.2.1) hidentity
    have hreply : ((publicationSystem env).perform p s (.session row.session_id)).2
        = s.sessions row.session_id := rfl
    have hcurrent : currentOwner env (s.sessions row.session_id) row = .ok () := by
      rw [← currentOwner_congr hidentity, ← hsession]
      exact hwaited
    rw [hreply, hcurrent]
    intro answer' heq
    rw [hanswer] at heq
    cases heq
    exact hanswered

/-- What giving up leaves, where the item was not answered. -/
theorem closed_giveUp (hsound : PublicationSound env s)
    (hrow : s.items.find? item_id = some row) (hopen : row.status ≠ .accepted) (reason : String)
    (now : ℚ) (n : Nat) :
    Closed item_id (Store.setTerminal { s with ticks := n } item_id .expired reason now).1 := by
  have hall : ∀ st ∈ publicationStatuses, st ≠ .accepted →
      st ∈ Store.Terminal.expired.allowed ∨ st ∈ [InboxStatus.expired, .failed] := by decide
  have hfind : Table.find? (Store.items { s with ticks := n }) item_id = some row := hrow
  unfold Store.setTerminal
  rw [hfind]
  dsimp only
  split
  · have hrow_id : row.item_id = item_id := Table.key_of_find? hrow
    have hid : (row.resolved .expired reason now).item_id = item_id := hrow_id
    refine ⟨row.resolved .expired reason now, ?_, List.mem_cons_self⟩
    change (s.items.set (row.resolved .expired reason now)).find? item_id = _
    rw [Table.find?_set, if_pos hid]
  · rename_i hnot
    exact ⟨row, hrow, (hall _ (hsound.status item_id row hrow) hopen).resolve_left hnot⟩

theorem wp_lookForAnswer {deadline : Option ℚ} (h : Awaited env item_id s) :
    (publishing env).Wp p (lookForAnswer env item_id deadline) (fun result s => ∀ answer,
      result = .ok (some answer) → Answered s item_id answer) s := by
  refine Discipline.Wp.bind ((wp_keep stable_awaited (wp_acceptedAnswer h) h).imp
    fun result s hs => ?_)
  obtain ⟨hanswer, hs⟩ := hs
  cases result with
  | error exc => exact fun _ h => nomatch h
  | ok answer? =>
      cases answer? with
      | some answer =>
          intro answer' heq
          cases heq
          exact hanswer answer rfl
      | none =>
          simp only [Task.bind_ask]
          refine Discipline.Wp.call stable_awaited hs fun s hs hinv _ => ⟨trivial, ?_⟩
          obtain ⟨row, hrow, hwaited⟩ := hs
          have hreply : ((publicationSystem env).perform p s (.row item_id)).2 = some row := hrow
          have hawaited : Awaited env item_id { s with ticks := s.ticks + 1 } :=
            ⟨row, hrow, hwaited⟩
          rw [hreply]
          dsimp only
          split
          · rename_i hsettled
            intro answer heq
            cases heq
            have hclosed : ∀ st ∈ publicationStatuses,
                st ∈ [InboxStatus.expired, .stale, .failed, .rejected, .delivered] →
                st ∈ [InboxStatus.expired, .failed] := by decide
            exact ⟨row, hrow, hclosed _ (hinv.status item_id row hrow) hsettled⟩
          · cases deadline with
            | none => exact fun _ h => nomatch h
            | some deadline =>
                dsimp only
                refine Discipline.Wp.call stable_awaited hawaited fun s hs _ _ => ⟨trivial, ?_⟩
                split
                · refine Discipline.Wp.call stable_awaited hs fun s hs _ _ => ⟨trivial, ?_⟩
                  refine Discipline.Wp.call stable_awaited hs fun s hs hinv hok => ⟨trivial, ?_⟩
                  obtain ⟨row, hrow, -⟩ := hs
                  have hclosed := fun reason now =>
                    closed_giveUp hinv hrow (hok row hrow) reason now (s.ticks + 1)
                  split
                  · exact fun _ h => nomatch h
                  · intro answer heq
                    cases heq
                    exact hclosed _ _
                · exact fun _ h => nomatch h

theorem respond_found {response : Payload} {version : Int} {key k : String} {now : ℚ}
    (hitem : s.items.find? item_id = some item) :
    (s.respond env item_id response version key now).2 ≠ .error (.keyError k) := by
  unfold Store.respond
  split
  · rename_i exc hvalid
    unfold Store.validateCall at hvalid
    split at hvalid
    · cases hvalid
      exact fun h => by cases h
    · split at hvalid
      · cases hvalid
        exact fun h => by cases h
      · cases hvalid
  · split
    · exact fun h => by cases h
    · rw [hitem]
      dsimp only
      split
      · split <;> exact fun h => by cases h
      · split
        · exact fun h => by cases h
        · split
          · exact fun h => by cases h
          · split
            · rename_i exc _
              cases exc <;> exact fun h => by cases h
            · split <;> exact fun h => by cases h

/-- Adopting an older decision returns nothing to a waiter whose session
waits. -/
theorem wp_adoptLegacy (h : Awaited env item_id s) :
    (publishing env).Wp p (adoptLegacy item_id) (fun result s =>
      result ≠ .ok none ∧ Awaited env item_id s) s := by
  have hwp : (publishing env).Wp p (adoptLegacy item_id) (fun result _ => result ≠ .ok none) s := by
    simp only [adoptLegacy, Task.bind_ask]
    refine Discipline.Wp.call stable_awaited h fun s hs _ _ => ⟨trivial, ?_⟩
    obtain ⟨row, hrow, hwaited⟩ := hs
    have hreply : ((publicationSystem env).perform p s (.row item_id)).2 = some row := hrow
    rw [hreply]
    dsimp only
    have hknown : ∃ row', { s with ticks := s.ticks + 1 }.items.find? item_id = some row'
        ∧ row'.identity = row.identity ∧ Waited env { s with ticks := s.ticks + 1 } row' :=
      ⟨row, hrow, rfl, hwaited⟩
    have hstable : (publishing env).Stable p fun s =>
        ∃ row', s.items.find? item_id = some row' ∧ row'.identity = row.identity
          ∧ Waited env s row' := by
      rintro s t hr ⟨row', hrow', hidentity, hwaited⟩
      obtain ⟨row'', hrow'', hidentity', -⟩ := hr.items item_id row' hrow'
      exact ⟨row'', hrow'', hidentity'.trans hidentity,
        (hr.sessions.waited hwaited).of_identity hidentity'⟩
    refine Discipline.Wp.call hstable hknown fun s hs _ _ => ⟨trivial, ?_⟩
    obtain ⟨row', hrow', hidentity, hwaited⟩ := hs
    have hsession : row'.session_id = row.session_id := congrArg (·.2.1) hidentity
    have hcurrent : currentOwner env (s.sessions row.session_id) row = .ok () := by
      rw [← currentOwner_congr hidentity, ← hsession]
      exact hwaited
    obtain ⟨current, hcurrent, hstatus, hattempt, hid, -⟩ := currentOwner_ok hcurrent
    have hreply : ((publicationSystem env).perform p s (.session row.session_id)).2
        = some current := hcurrent
    rw [hreply]
    dsimp only
    have hnot : ¬ (current.status = .cancelling ∨ current.status = .cancelled
        ∨ current.status = .deleted) := by
      rw [hstatus]
      cases row.kind <;> decide
    have hwaits : ¬ (current.status ≠ waitingStatus row.kind ∨ current.attempt ≠ row.attempt
        ∨ currentItemId current row.kind ≠ row.item_id) := by
      simp [hstatus, hattempt, hid]
    rw [if_neg hnot, if_neg hwaits]
    have hawaited : Awaited env item_id { s with ticks := s.ticks + 1 } := ⟨row', hrow', hwaited⟩
    split
    · rename_i response hlegacy hpending
      refine Discipline.Wp.bind ?_
      refine wp_currentTime stable_awaited (fun _ h => h) hawaited fun now s hs => ?_
      refine Discipline.Wp.call stable_awaited hs fun s hs _ _ => ⟨trivial, ?_⟩
      obtain ⟨item, hitem, -⟩ := hs
      have hfound : ∀ k, (Store.respond env { s with ticks := s.ticks + 1 } item_id response
          row.version ("legacy-" ++ item_id) now).2 ≠ .error (.keyError k) := fun k =>
        have hfind : Table.find? (Store.items { s with ticks := s.ticks + 1 }) item_id = some item := hitem
        respond_found hfind
      rw [Discipline.Wp]
      split
      · rename_i k heq
        exact absurd heq (hfound k)
      · exact fun h => by cases h
      · exact fun h => by cases h
    · exact fun h => by cases h
  exact wp_keep stable_awaited hwp h

theorem wp_waitForAnswer {deadline : Option ℚ} (rounds : Nat) (h : Awaited env item_id s) :
    (publishing env).Wp p (waitForAnswer env item_id deadline rounds) (fun _ _ => True) s := by
  induction rounds generalizing s with
  | zero => trivial
  | succ rounds ih =>
      refine Discipline.Wp.bind ((wp_adoptLegacy h).imp fun result s hs => ?_)
      cases result with
      | error exc => trivial
      | ok adopted =>
          cases adopted with
          | none => exact absurd rfl hs.1
          | some u =>
              refine Discipline.Wp.bind ((wp_keep stable_awaited (wp_lookForAnswer hs.2) hs.2).imp
                fun result s hs => ?_)
              obtain ⟨hanswered, hs⟩ := hs
              cases result with
              | error exc => trivial
              | ok answer? =>
                  cases answer? with
                  | none => exact ih hs
                  | some answer =>
                      simp only [Task.bind_ask]
                      exact Discipline.Wp.call stable_answered (hanswered answer rfl)
                        fun s hs _ _ => ⟨hs, trivial⟩

theorem wp_requestAnswer {r : Request} {rounds : Nat} :
    (publishing env).Wp p (requestAnswer env r rounds) (fun _ _ => True) s := by
  simp only [requestAnswer, Task.bind_ask]
  refine Discipline.Wp.call stable_true trivial fun s _ _ _ => ⟨trivial, ?_⟩
  split
  · trivial
  · split
    · trivial
    · refine Discipline.Wp.bind (wp_register.imp fun result s hs => ?_)
      cases result with
      | error exc => trivial
      | ok item =>
          refine Discipline.Wp.bind ((wp_transition (hs item rfl)).imp fun result s hs => ?_)
          cases result with
          | error exc => trivial
          | ok u =>
              refine Discipline.Wp.bind ((wp_activate (hs rfl)).imp fun result s hs => ?_)
              cases result with
              | error exc =>
                  refine wp_after (wp_harmless ?_) fun _ => trivial
                  exact .bind (calls_currentTime _) fun _ => .ask (harmless_setTerminal (by decide))
              | ok activated =>
                  refine wp_after (wp_waitForAnswer rounds hs) fun result => ?_
                  cases result <;> trivial

end Calls

theorem wp_publicationJob (job : PublicationJob) :
    (publishing env).Wp p (job.prog env) (fun _ _ => True) s := by
  cases job with
  | request r rounds => exact wp_requestAnswer.forget
  | respond item_id response version key now => exact wp_harmless calls_respond.forget
  | reconcile now => exact wp_reconcile.forget
  | listItems l => exact wp_listItems.forget

/-! ## 4. Runs -/

/-- Every look at the owner of an open item comes after the transition of its
session, and no waiter gives up on an answered item. -/
def TimelyRun (env : Env) (sessions : String → Option Session)
    (actions : List (Tasks.Action PublicationJob)) : Prop :=
  Runs.RunOk (publicationSystem env).step (publishing env).StepOk { state := { sessions := sessions } }
    actions

/-- No live request is marked stale, and a waiter that returns without an
answer leaves an item for which none was accepted. -/
structure NeverDropped (env : Env) (s : Store) : Prop where
  kept : ∀ item_id item, s.items.find? item_id = some item → Live env s.sessions item →
    item.status ≠ .stale
  unanswered : ∀ item_id, (item_id, none) ∈ s.returns → ∃ item,
    s.items.find? item_id = some item ∧ item.status ∈ [.expired, .failed] ∧ item.response = none
  answered : ∀ item_id answer, (item_id, some answer) ∈ s.returns → ∃ item,
    s.items.find? item_id = some item ∧ item.status = .accepted ∧ item.response = some answer

/-- **A request is never dropped** in a run whose looks and deadlines are
timely. -/
theorem never_dropped (env : Env) (sessions : String → Option Session)
    (actions : List (Tasks.Action PublicationJob)) (h : TimelyRun env sessions actions) (k : Nat) :
    NeverDropped env (publicationAfter env sessions (actions.take k)).state := by
  have hstart : (publishing env).Safe { state := { sessions := sessions } } :=
    Discipline.safe_start ⟨(fun _ _ h => nomatch h), (fun _ _ h => nomatch h),
      (fun _ _ h => nomatch h), (fun _ _ h => nomatch h), (fun _ _ h => nomatch h)⟩ fun _ => trivial
  have hsound := (Discipline.run (fun job p s _ _ => wp_publicationJob job) hstart h k).1
  refine ⟨fun item_id item hitem _ hstale => ?_, fun item_id hreturned => ?_,
    fun item_id answer hreturned => ?_⟩
  · have hstatus := hsound.status item_id item hitem
    rw [hstale] at hstatus
    exact absurd hstatus (by decide)
  · obtain ⟨item, hitem, hclosed⟩ := hsound.returned item_id none hreturned
    refine ⟨item, hitem, hclosed, ?_⟩
    by_contra hsome
    rw [(hsound.response item_id item hitem).mp hsome] at hclosed
    exact absurd hclosed (by decide)
  · exact hsound.returned item_id (some answer) hreturned

/-! ### Runs of one request -/

instance (env : Env) (s : Store) (item : InboxItem) : Decidable (Waited env s item) :=
  inferInstanceAs (Decidable (_ = _))

instance (env : Env) (p : Nat) (s : Store) : DecidablePred (Timely env p s) := fun o =>
  match o with
  | .owner item => inferInstanceAs (Decidable (∀ row ∈ s.items.find? item.item_id,
      row.status ∈ [.publishing, .pending, .accepted] → Waited env s row))
  | .giveUp item_id _ _ => inferInstanceAs (Decidable (∀ item ∈ s.items.find? item_id,
      item.status ≠ .accepted))
  | .time | .session _ | .row _ | .select _ | .insert _ _ _ | .activate _ _ | .setTerminal _ _ _ _
  | .closeExpired _ _ _ _ | .markDelivered _ _ | .respond _ _ _ _ _ | .expire _ _ _ _ _
  | .waiting _ _ _ | .move _ _ | .returned _ _ => isTrue trivial

instance (env : Env) (sessions : String → Option Session) :
    DecidablePred (TimelyRun env sessions) := fun actions =>
  have : ∀ p s o, Decidable ((publishing env).Ok p s o) := fun p s o =>
    inferInstanceAs (Decidable (Timely env p s o))
  inferInstanceAs (Decidable (Runs.RunOk _ (publishing env).StepOk { state := _ } actions))

/-- An environment whose hashes and paths are their texts. -/
def plainEnv : Env where
  py := plainInterp
  sha256 := id
  resolve := id
  path_name := id
  time ticks := ticks

def oneSession : String → Option Session
  | "s" => some { status := .running, attempt := 1, lease_token := "lease" }
  | _ => none

def askInput (deadline : Option ℚ) : PublicationJob :=
  .request { session_id := "s", request_id := "r", kind := .input, target := []
             expires_at := none, deadline := deadline } 1

def inputItem : String := stableItemId plainEnv "s" 1 "r"

def answerInput : PublicationJob :=
  .respond inputItem [("answer", .str "yes")] 2 "key" (some 0)

/-- The item is answered and looked at before its worker looks for the
answer. -/
def answeredRun : List (Tasks.Action PublicationJob) :=
  .start 0 (askInput none) :: List.replicate 8 (.step 0)
    ++ [.start 1 answerInput, .step 1, .start 2 (.reconcile (some 0)), .step 2, .step 2]
    ++ List.replicate 5 (.step 0)

theorem never_dropped_answered : TimelyRun plainEnv oneSession answeredRun
    ∧ NeverDropped plainEnv (publicationAfter plainEnv oneSession (answeredRun.take 19)).state :=
  have h : TimelyRun plainEnv oneSession answeredRun := by decide
  ⟨h, never_dropped plainEnv oneSession answeredRun h 19⟩

/-- A reconciliation between the registration of the item and the transition
of its session. -/
def reconciledRun : List (Tasks.Action PublicationJob) :=
  .start 0 (askInput none) :: List.replicate 4 (.step 0)
    ++ .start 1 (.reconcile (some 0)) :: List.replicate 3 (.step 1)

/-- An answer between the last look of the waiter and its `set_terminal`. -/
def lateRun : List (Tasks.Action PublicationJob) :=
  .start 0 (askInput (some 0)) :: List.replicate 14 (.step 0)
    ++ [.start 1 answerInput, .step 1, .step 0, .step 0]

instance (env : Env) (sessions : String → Option Session) (item : InboxItem) :
    Decidable (Live env sessions item) :=
  inferInstanceAs (Decidable (∃ session ∈ sessions item.session_id,
    session.attempt = item.attempt ∧ ownerHash env session = item.owner_hash))

/-- **A reconciliation drops a request that is being published**, and a waiter
returns nothing where the answer was accepted. -/
theorem not_neverDropped :
    ¬ NeverDropped plainEnv (publicationAfter plainEnv oneSession reconciledRun).state
    ∧ ¬ NeverDropped plainEnv (publicationAfter plainEnv oneSession lateRun).state := by
  refine ⟨fun h => ?_, fun h => ?_⟩
  · have hstale : ∃ item ∈ (publicationAfter plainEnv oneSession
        reconciledRun).state.items.find? inputItem,
        Live plainEnv (publicationAfter plainEnv oneSession reconciledRun).state.sessions item
          ∧ item.status = .stale := by decide
    obtain ⟨item, hitem, hlive, hstale⟩ := hstale
    exact h.kept inputItem item hitem hlive hstale
  · have hnone : (inputItem, none)
        ∈ (publicationAfter plainEnv oneSession lateRun).state.returns := by decide
    have hstatus : ∀ item ∈ (publicationAfter plainEnv oneSession lateRun).state.items.find?
        inputItem, item.status ∉ [.expired, .failed] := by decide
    obtain ⟨item, hitem, hclosed, -⟩ := h.unanswered inputItem hnone
    exact hstatus item hitem hclosed

end Agenthicc.Background.Inbox
