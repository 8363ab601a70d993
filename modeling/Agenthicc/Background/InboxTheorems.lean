/-
Agenthicc.Background.InboxTheorems — what holds of an inbox item in every run.

Every operation changes at most one item, by a legal move, and uses at most
one idempotency key that was free. `inbox_law` follows by induction over runs,
whatever the processes do.
-/
import Agenthicc.Background.Inbox

namespace Agenthicc.Background.Inbox

open Python Tables Tasks

variable {env : Env} {s t : Store} {item row : InboxItem}

/-! ## 1. Moves -/

/-- The status changes of an item. -/
def legalMoves : List (InboxStatus × InboxStatus) :=
  [(.publishing, .pending), (.publishing, .expired), (.publishing, .stale), (.publishing, .failed),
    (.pending, .accepted), (.pending, .expired), (.pending, .stale), (.pending, .failed),
    (.accepted, .delivered), (.accepted, .rejected), (.accepted, .stale),
    (.expired, .delivered), (.expired, .rejected)]

/-- The statuses that an item keeps. -/
def settledStatuses : List InboxStatus := [.delivered, .rejected, .stale, .failed]

/-- What an item is about. -/
def InboxItem.identity (item : InboxItem) : String × String × Int × String × InboxKind :=
  (item.item_id, item.session_id, item.attempt, item.owner_hash, item.kind)

/-- A row after one status change. -/
structure Move (item row : InboxItem) : Prop where
  legal : (item.status, row.status) ∈ legalMoves
  version : row.version = item.version + 1
  identity : row.identity = item.identity
  response : row.status ≠ .accepted → row.response = item.response

theorem Move.moved {status : InboxStatus} {now : ℚ} (h : (item.status, status) ∈ legalMoves) :
    Move item (item.moved status now) := ⟨h, rfl, rfl, fun _ => rfl⟩

theorem Move.resolved {status : InboxStatus} {reason : String} {now : ℚ}
    (h : (item.status, status) ∈ legalMoves) : Move item (item.resolved status reason now) :=
  ⟨h, rfl, rfl, fun _ => rfl⟩

theorem Move.item_id (h : Move item row) : row.item_id = item.item_id :=
  congrArg Prod.fst h.identity

theorem Move.not_settled (h : Move item row) : item.status ∉ settledStatuses := by
  have hmoves : ∀ m ∈ legalMoves, m.1 ∉ settledStatuses := by decide
  exact hmoves _ h.legal

theorem Move.from_expired (h : Move item row) (hexpired : item.status = .expired) :
    row.status ∈ [.delivered, .rejected] := by
  have hmoves : ∀ m ∈ legalMoves, m.1 = .expired → m.2 ∈ [.delivered, .rejected] := by decide
  exact hmoves _ h.legal hexpired

theorem Move.to_accepted (h : Move item row) (haccepted : row.status = .accepted) :
    item.status = .pending := by
  have hmoves : ∀ m ∈ legalMoves, m.2 = .accepted → m.1 = .pending := by decide
  exact hmoves _ h.legal haccepted

/-- No item goes back: neither to `pending` once it was answered. -/
theorem Move.answered (h : Move item row)
    (hanswered : item.status ∉ [.publishing, .pending]) :
    row.status ∉ [.publishing, .pending, .accepted] := by
  have hmoves : ∀ m ∈ legalMoves, m.1 ∉ [InboxStatus.publishing, .pending] →
      m.2 ∉ [.publishing, .pending, .accepted] := by decide
  exact hmoves _ h.legal hanswered

/-! ## 2. One operation -/

/-- What an operation does to the items. -/
inductive ItemsEffect (env : Env) (s : Store) : Table InboxItem String (·.item_id) → Prop where
  | same : ItemsEffect env s s.items
  | inserted (row : InboxItem) (hnew : s.items.find? row.item_id = none)
      (hstatus : row.status = .publishing) (hresponse : row.response = none) :
      ItemsEffect env s (s.items.set row)
  | moved {item row : InboxItem} (hitem : s.items.find? item.item_id = some item)
      (hmove : Move item row)
      (haccepted : row.status = .accepted →
        currentOwner env (s.sessions item.session_id) item = .ok ()) :
      ItemsEffect env s (s.items.set row)

theorem ItemsEffect.step (hitem : s.items.find? item.item_id = some item) (hmove : Move item row)
    (hne : row.status ≠ .accepted) : ItemsEffect env s (s.items.set row) :=
  .moved hitem hmove fun h => absurd h hne

section Transactions

variable {item_id : String} {now : ℚ}

theorem found (h : s.items.find? item_id = some item) :
    s.items.find? item.item_id = some item := (Table.key_of_find? h).symm ▸ h

theorem activate_effect (s : Store) (item_id : String) (now : ℚ) :
    ItemsEffect env s (s.activate item_id now).1.items := by
  unfold Store.activate
  split
  · exact .same
  · rename_i item hitem
    split
    · rename_i hstatus
      have hlegal : (item.status, InboxStatus.pending) ∈ legalMoves := by rw [hstatus]; decide
      exact .step (found hitem) (.moved hlegal) (fun h => nomatch h)
    · exact .same

theorem setTerminal_effect (s : Store) (item_id : String) (status : Store.Terminal)
    (reason : String) (now : ℚ) :
    ItemsEffect env s (s.setTerminal item_id status reason now).1.items := by
  unfold Store.setTerminal
  split
  · exact .same
  · rename_i item hitem
    split
    · rename_i hallowed
      have hlegal : ∀ (st : Store.Terminal), ∀ from_ ∈ st.allowed,
          (from_, st.status) ∈ legalMoves := by
        intro st
        cases st <;> decide
      have hne : status.status ≠ .accepted := by cases status <;> decide
      exact .step (found hitem) (.resolved (hlegal status _ hallowed)) hne
    · exact .same

theorem closeExpired_effect (s : Store) (item_id : String) (status : Store.Closing)
    (reason : String) (now : ℚ) :
    ItemsEffect env s (s.closeExpired item_id status reason now).1.items := by
  unfold Store.closeExpired
  split
  · exact .same
  · rename_i item hitem
    split
    · rename_i hstatus
      have hlegal : (item.status, status.status) ∈ legalMoves := by
        rw [hstatus]
        cases status <;> decide
      have hne : status.status ≠ .accepted := by cases status <;> decide
      exact .step (found hitem) (.resolved hlegal) hne
    · exact .same

theorem markDelivered_effect (s : Store) (item_id : String) (now : ℚ) :
    ItemsEffect env s (s.markDelivered item_id now).1.items := by
  unfold Store.markDelivered
  split
  · exact .same
  · rename_i item hitem
    split
    · rename_i hstatus
      have hmove : ∀ status ∈ [InboxStatus.rejected, .delivered],
          ItemsEffect env s (s.items.set (item.moved status now)) := by
        intro status hmem
        have hlegal : (item.status, status) ∈ legalMoves := by
          rw [hstatus]
          revert status
          decide
        have hne : status ≠ .accepted := by
          rintro rfl
          exact absurd hmem (by decide)
        exact .step (found hitem) (.moved hlegal) hne
      dsimp only
      split
      · exact hmove .rejected (by decide)
      · exact hmove .delivered (by decide)
    · exact .same

theorem insert_effect (s : Store) (hstatus : item.status = .publishing)
    (hresponse : item.response = none) : ItemsEffect env s (s.insert env item).1.items := by
  unfold Store.insert
  split
  · split <;> exact .same
  · rename_i hnew
    exact .inserted item hnew hstatus hresponse

theorem respond_effect (s : Store) (item_id : String) (response : Payload) (expected_version : Int)
    (idempotency_key : String) (now : ℚ) : ItemsEffect env s
      (s.respond env item_id response expected_version idempotency_key now).1.items := by
  unfold Store.respond
  split
  · exact .same
  · split
    · exact .same
    · dsimp only
      split
      · exact .same
      · rename_i item hitem
        split
        · split <;> exact .same
        · split
          · exact .same
          · rename_i hpending
            have hstatus : item.status = .pending := by
              by_contra hne
              exact hpending (.inl hne)
            split
            · have hlegal : (item.status, InboxStatus.expired) ∈ legalMoves := by
                rw [hstatus]
                decide
              exact .step (found hitem) (.resolved hlegal) (fun h => by cases h)
            · split
              · exact .same
              · split
                · have hlegal : (item.status, InboxStatus.stale) ∈ legalMoves := by
                    rw [hstatus]
                    decide
                  exact .step (found hitem) (.resolved hlegal) (fun h => by cases h)
                · rename_i hcurrent
                  have hlegal : (item.status, InboxStatus.accepted) ∈ legalMoves := by
                    rw [hstatus]
                    decide
                  exact .moved (found hitem) ⟨hlegal, rfl, rfl, fun h => absurd rfl h⟩
                    fun _ => hcurrent

theorem expire_effect (s : Store) (item_id : String) (expected_version : Int)
    (idempotency_key reason : String) (now : ℚ) : ItemsEffect env s
      (s.expire env item_id expected_version idempotency_key reason now).1.items := by
  unfold Store.expire
  split
  · exact .same
  · dsimp only
    split
    · exact .same
    · rename_i item hitem
      split
      · split <;> exact .same
      · split
        · exact .same
        · rename_i hpending
          have hstatus : item.status = .pending := by
            by_contra hne
            exact hpending (.inl hne)
          split
          · have hlegal : (item.status, InboxStatus.stale) ∈ legalMoves := by
              rw [hstatus]
              decide
            exact .step (found hitem) (.resolved hlegal) (fun h => nomatch h)
          · have hlegal : (item.status, InboxStatus.expired) ∈ legalMoves := by
              rw [hstatus]
              decide
            exact .step (found hitem) (.resolved hlegal) (fun h => nomatch h)

theorem waiting_items (s : Store) (session_id : String) (kind : InboxKind) (item_id : String) :
    (s.waiting session_id kind item_id).1.items = s.items
      ∧ (s.waiting session_id kind item_id).1.keys = s.keys := by
  unfold Store.waiting
  split
  · exact ⟨rfl, rfl⟩
  · split <;> exact ⟨rfl, rfl⟩

end Transactions

theorem apply_effect (env : Env) (s : Store) (o : Op) :
    ItemsEffect env s (apply env s o).1.items := by
  cases o with
  | insert r current created =>
      have hrow : (r.row env current created).status = .publishing := rfl
      exact insert_effect s hrow rfl
  | activate item_id now => exact activate_effect s item_id now
  | setTerminal item_id status reason now => exact setTerminal_effect s item_id status reason now
  | giveUp item_id reason now => exact setTerminal_effect s item_id .expired reason now
  | closeExpired item_id status reason now => exact closeExpired_effect s item_id status reason now
  | markDelivered item_id now => exact markDelivered_effect s item_id now
  | respond item_id response version key now =>
      exact respond_effect s item_id response version key now
  | expire item_id version key reason now => exact expire_effect s item_id version key reason now
  | waiting session_id kind item_id =>
      have hsame : (apply env s (.waiting session_id kind item_id)).1.items = s.items :=
        (waiting_items s session_id kind item_id).1
      exact hsame ▸ .same
  | _ => exact .same

theorem ItemsEffect.ticked {n : Nat} {items : Table InboxItem String (·.item_id)}
    (h : ItemsEffect env { s with ticks := n } items) : ItemsEffect env s items := by
  cases h with
  | same => exact .same
  | inserted row hnew hstatus hresponse => exact .inserted row hnew hstatus hresponse
  | moved hitem hmove haccepted => exact .moved hitem hmove haccepted

theorem items_effect (env : Env) (p : Nat) (s : Store) (o : Op) :
    ItemsEffect env s (perform env p s o).1.items :=
  (apply_effect env { s with ticks := s.ticks + 1 } o).ticked

/-! ### Idempotency keys -/

/-- The item, the key and the content of a call with an idempotency key. -/
def submission : Op → Option (String × String × String)
  | .respond item_id response _ idempotency_key _ =>
      some (item_id, idempotency_key, canonicalText response)
  | .expire item_id _ idempotency_key reason _ => some (item_id, idempotency_key, Store.expiryText reason)
  | _ => none

/-- Such a call returns. -/
def Succeeds : (o : Op) → o.Reply → Prop
  | .respond _ _ _ _ _, reply => ∃ result, reply = .ok result
  | .expire _ _ _ _ _, reply => ∃ item, reply = .ok item
  | _, _ => False

variable {o : Op} {item_id key text : String}

/-- A call with a used key changes nothing, and fails where its content has
another digest. -/
structure Repeated (env : Env) (s : Store) (o : Op) (prior : IdempotencyKey) (text : String) :
    Prop where
  unchanged : (apply env s o).1 = s
  refused : env.sha256 text ≠ prior.response_hash → ¬ Succeeds o (apply env s o).2

theorem repeated_of_submission {prior : IdempotencyKey}
    (hsub : submission o = some (item_id, key, text))
    (hprior : s.keys.find? (item_id, key) = some prior) : Repeated env s o prior text := by
  cases o with
  | respond id response version k now =>
      cases hsub
      have hspec : (s.respond env item_id response version key now).1 = s
          ∧ (env.sha256 (canonicalText response) ≠ prior.response_hash →
            ∀ result, (s.respond env item_id response version key now).2 ≠ .ok result) := by
        unfold Store.respond
        split
        · exact ⟨rfl, fun _ _ h => by cases h⟩
        · split
          · exact ⟨rfl, fun _ _ h => by cases h⟩
          · dsimp only
            split
            · exact ⟨rfl, fun _ _ h => by cases h⟩
            · rw [hprior]
              dsimp only
              split
              · exact ⟨rfl, fun _ _ h => by cases h⟩
              · rename_i hsame
                exact ⟨rfl, fun hne => absurd (not_not.mp hsame).symm hne⟩
      refine ⟨hspec.1, ?_⟩
      rintro hne ⟨result, hresult⟩
      exact hspec.2 hne result hresult
  | expire id version k reason now =>
      cases hsub
      have hspec : (s.expire env item_id version key reason now).1 = s
          ∧ (env.sha256 (Store.expiryText reason) ≠ prior.response_hash →
            ∀ item, (s.expire env item_id version key reason now).2 ≠ .ok item) := by
        unfold Store.expire
        split
        · exact ⟨rfl, fun _ _ h => by cases h⟩
        · dsimp only
          split
          · exact ⟨rfl, fun _ _ h => by cases h⟩
          · rw [hprior]
            dsimp only
            split
            · exact ⟨rfl, fun _ _ h => by cases h⟩
            · rename_i hsame
              exact ⟨rfl, fun hne => absurd (not_not.mp hsame).symm hne⟩
      refine ⟨hspec.1, ?_⟩
      rintro hne ⟨item, hitem⟩
      exact hspec.2 hne item hitem
  | _ => cases hsub

/-- What an operation does to the keys: a call may use a key that was free,
and a call that returns has used its key for its content. -/
structure KeysEffect (env : Env) (s : Store) (o : Op) : Prop where
  keys : (apply env s o).1.keys = s.keys
    ∨ ∃ k, s.keys.find? k.key = none ∧ (apply env s o).1.keys = s.keys.set k
  used : Succeeds o (apply env s o).2 → ∀ item_id key text,
    submission o = some (item_id, key, text) →
      (apply env s o).1.keys.find? (item_id, key) = some ⟨item_id, key, env.sha256 text⟩

theorem keys_set {response_hash : String} (hfree : s.keys.find? (item_id, key) = none) :
    (∃ k, s.keys.find? k.key = none ∧ s.keys.set ⟨item_id, key, response_hash⟩ = s.keys.set k)
      ∧ (s.keys.set ⟨item_id, key, response_hash⟩).find? (item_id, key)
        = some ⟨item_id, key, response_hash⟩ :=
  ⟨⟨_, hfree, rfl⟩, Table.find?_set_self s.keys ⟨item_id, key, response_hash⟩⟩

theorem prior_eq {prior : IdempotencyKey} {response_hash : String}
    (hprior : s.keys.find? (item_id, key) = some prior) (hhash : prior.response_hash = response_hash) :
    s.keys.find? (item_id, key) = some ⟨item_id, key, response_hash⟩ := by
  have hkey : prior.key = (item_id, key) := Table.key_of_find? hprior
  rw [hprior, ← hhash]
  cases prior
  cases hkey
  rfl

theorem keys_respond (s : Store) (item_id : String) (response : Payload) (version : Int)
    (key : String) (now : ℚ) : KeysEffect env s (.respond item_id response version key now) := by
  have hspec : ((s.respond env item_id response version key now).1.keys = s.keys
        ∨ ∃ k, s.keys.find? k.key = none
          ∧ (s.respond env item_id response version key now).1.keys = s.keys.set k)
      ∧ ∀ result, (s.respond env item_id response version key now).2 = .ok result →
        (s.respond env item_id response version key now).1.keys.find? (item_id, key)
          = some ⟨item_id, key, env.sha256 (canonicalText response)⟩ := by
    unfold Store.respond
    split
    · exact ⟨.inl rfl, fun _ h => by cases h⟩
    · split
      · exact ⟨.inl rfl, fun _ h => by cases h⟩
      · dsimp only
        split
        · exact ⟨.inl rfl, fun _ h => by cases h⟩
        · split
          · rename_i prior hprior
            split
            · exact ⟨.inl rfl, fun _ h => by cases h⟩
            · rename_i hsame
              exact ⟨.inl rfl, fun _ _ => prior_eq hprior (not_not.mp hsame)⟩
          · rename_i hfree
            split
            · exact ⟨.inl rfl, fun _ h => by cases h⟩
            · split
              · exact ⟨.inl rfl, fun _ h => by cases h⟩
              · split
                · exact ⟨.inl rfl, fun _ h => by cases h⟩
                · split
                  · exact ⟨.inl rfl, fun _ h => by cases h⟩
                  · exact ⟨.inr (keys_set hfree).1, fun _ _ => (keys_set hfree).2⟩
  refine ⟨hspec.1, ?_⟩
  rintro ⟨result, hresult⟩ id k text hsub
  cases hsub
  exact hspec.2 result hresult

theorem keys_expire (s : Store) (item_id : String) (version : Int) (key reason : String)
    (now : ℚ) : KeysEffect env s (.expire item_id version key reason now) := by
  have hspec : ((s.expire env item_id version key reason now).1.keys = s.keys
        ∨ ∃ k, s.keys.find? k.key = none
          ∧ (s.expire env item_id version key reason now).1.keys = s.keys.set k)
      ∧ ∀ item, (s.expire env item_id version key reason now).2 = .ok item →
        (s.expire env item_id version key reason now).1.keys.find? (item_id, key)
          = some ⟨item_id, key, env.sha256 (Store.expiryText reason)⟩ := by
    unfold Store.expire
    split
    · exact ⟨.inl rfl, fun _ h => by cases h⟩
    · dsimp only
      split
      · exact ⟨.inl rfl, fun _ h => by cases h⟩
      · split
        · rename_i prior hprior
          split
          · exact ⟨.inl rfl, fun _ h => by cases h⟩
          · rename_i hsame
            exact ⟨.inl rfl, fun _ _ => prior_eq hprior (not_not.mp hsame)⟩
        · rename_i hfree
          split
          · exact ⟨.inl rfl, fun _ h => by cases h⟩
          · split
            · exact ⟨.inl rfl, fun _ h => by cases h⟩
            · exact ⟨.inr (keys_set hfree).1, fun _ _ => (keys_set hfree).2⟩
  refine ⟨hspec.1, ?_⟩
  rintro ⟨item, hitem⟩ id k text hsub
  cases hsub
  exact hspec.2 item hitem

theorem keys_effect (env : Env) (s : Store) (o : Op) : KeysEffect env s o := by
  have hquiet : ∀ o : Op, submission o = none → (apply env s o).1.keys = s.keys →
      KeysEffect env s o := by
    intro o hnone hkeys
    refine ⟨.inl hkeys, fun _ item_id key text hsub => ?_⟩
    rw [hnone] at hsub
    cases hsub
  cases o with
  | respond item_id response version key now => exact keys_respond s item_id response version key now
  | expire item_id version key reason now => exact keys_expire s item_id version key reason now
  | waiting session_id kind item_id =>
      exact hquiet _ rfl (waiting_items s session_id kind item_id).2
  | insert r current created =>
      refine hquiet _ rfl ?_
      simp only [apply, Store.insert]
      split
      · split <;> rfl
      · rfl
  | activate item_id now =>
      refine hquiet _ rfl ?_
      simp only [apply, Store.activate]
      split
      · rfl
      · split <;> rfl
  | setTerminal item_id status reason now =>
      refine hquiet _ rfl ?_
      simp only [apply, Store.setTerminal]
      split
      · rfl
      · split <;> rfl
  | giveUp item_id reason now =>
      refine hquiet _ rfl ?_
      simp only [apply, Store.setTerminal]
      split
      · rfl
      · split <;> rfl
  | closeExpired item_id status reason now =>
      refine hquiet _ rfl ?_
      simp only [apply, Store.closeExpired]
      split
      · rfl
      · split <;> rfl
  | markDelivered item_id now =>
      refine hquiet _ rfl ?_
      simp only [apply, Store.markDelivered]
      split
      · rfl
      · split <;> rfl
  | _ => exact hquiet _ rfl rfl

/-! ## 3. Steps -/

section Steps

variable {w : World Op Op.Reply Store} {action : Tasks.Action Job}

theorem step_items (env : Env) (w : World Op Op.Reply Store) (action : Tasks.Action Job) :
    ItemsEffect env w.state ((inboxSystem env).step w action).state.items := by
  cases (inboxSystem env).effect w action with
  | quiet heq => exact heq ▸ .same
  | died heq => exact heq ▸ .same
  | @call p o next hslot heq => exact heq ▸ items_effect env p w.state o

theorem step_keys (env : Env) (w : World Op Op.Reply Store) (action : Tasks.Action Job) :
    ((inboxSystem env).step w action).state.keys = w.state.keys
      ∨ ∃ k, w.state.keys.find? k.key = none
        ∧ ((inboxSystem env).step w action).state.keys = w.state.keys.set k := by
  cases (inboxSystem env).effect w action with
  | quiet heq => exact .inl (congrArg Store.keys heq)
  | died heq => exact .inl (congrArg Store.keys heq)
  | @call p o next hslot heq =>
      rw [heq]
      exact (keys_effect env { w.state with ticks := w.state.ticks + 1 } o).keys

theorem item_step (hitem : w.state.items.find? item_id = some item) :
    ∃ row, ((inboxSystem env).step w action).state.items.find? item_id = some row
      ∧ (row = item ∨ (Move item row ∧ (row.status = .accepted →
        currentOwner env (w.state.sessions item.session_id) item = .ok ()))) := by
  have hid : item.item_id = item_id := Table.key_of_find? hitem
  have heffect := step_items env w action
  generalize ((inboxSystem env).step w action).state.items = items at heffect ⊢
  cases heffect with
  | same => exact ⟨item, hitem, .inl rfl⟩
  | inserted row hnew hstatus hresponse =>
      have hne : row.item_id ≠ item_id := by
        rintro rfl
        rw [hnew] at hitem
        cases hitem
      exact ⟨item, by rw [Table.find?_set_ne _ hne, hitem], .inl rfl⟩
  | @moved found row hfound hmove haccepted =>
      by_cases heq : found.item_id = item_id
      · rw [heq, hitem, Option.some.injEq] at hfound
        subst hfound
        refine ⟨row, ?_, .inr ⟨hmove, haccepted⟩⟩
        rw [Table.find?_set, if_pos (hmove.item_id.trans heq)]
      · have hne : row.item_id ≠ item_id := fun h => heq (hmove.item_id.symm.trans h)
        exact ⟨item, by rw [Table.find?_set_ne _ hne, hitem], .inl rfl⟩

theorem key_step {k : String × String} {prior : IdempotencyKey}
    (hprior : w.state.keys.find? k = some prior) :
    ((inboxSystem env).step w action).state.keys.find? k = some prior := by
  rcases step_keys env w action with hsame | ⟨k', hfree, hset⟩
  · rw [hsame, hprior]
  · have hne : k'.key ≠ k := by
      rintro rfl
      rw [hfree] at hprior
      cases hprior
    rw [hset, Table.find?_set_ne _ hne, hprior]

end Steps

/-! ## 4. Runs -/

section Runs

variable {sessions : String → Option Session} {actions : List (Tasks.Action Job)} {k : Nat}

theorem inboxAfter_succ {action : Tasks.Action Job} (h : actions[k]? = some action) :
    inboxAfter env sessions (actions.take (k + 1))
      = (inboxSystem env).step (inboxAfter env sessions (actions.take k)) action :=
  Runs.foldl_take_succ h _

theorem inboxAfter_beyond (h : actions[k]? = none) :
    inboxAfter env sessions (actions.take (k + 1)) = inboxAfter env sessions (actions.take k) := by
  have hlength : actions.length ≤ k := List.getElem?_eq_none_iff.mp h
  rw [List.take_of_length_le hlength, List.take_of_length_le (Nat.le_succ_of_le hlength)]

/-- The item in the state after `k` actions. -/
def itemAt (env : Env) (sessions : String → Option Session) (actions : List (Tasks.Action Job))
    (k : Nat) (item_id : String) : Option InboxItem :=
  (inboxAfter env sessions (actions.take k)).state.items.find? item_id

/-- Action `k` moves the item to `accepted`. -/
def AcceptedAt (env : Env) (sessions : String → Option Session) (actions : List (Tasks.Action Job))
    (k : Nat) (item_id : String) : Prop :=
  ∃ item row, itemAt env sessions actions k item_id = some item
    ∧ itemAt env sessions actions (k + 1) item_id = some row
    ∧ item.status ≠ .accepted ∧ row.status = .accepted

theorem itemAt_succ (hitem : itemAt env sessions actions k item_id = some item) :
    ∃ row, itemAt env sessions actions (k + 1) item_id = some row
      ∧ (row = item ∨ (Move item row ∧ (row.status = .accepted →
        currentOwner env ((inboxAfter env sessions (actions.take k)).state.sessions item.session_id)
          item = .ok ()))) := by
  cases haction : actions[k]? with
  | none =>
      refine ⟨item, ?_, .inl rfl⟩
      rw [itemAt, inboxAfter_beyond haction]
      exact hitem
  | some action =>
      rw [itemAt, inboxAfter_succ haction]
      exact item_step hitem

/-- The rule for runs: what every move keeps of an item, it keeps for good. -/
theorem itemAt_invariant {P : InboxItem → Prop} (hmove : ∀ item row, P item → Move item row → P row)
    {j : Nat} (hjk : j ≤ k) (hitem : itemAt env sessions actions j item_id = some item)
    (h : P item) : ∃ row, itemAt env sessions actions k item_id = some row ∧ P row := by
  induction k, hjk using Nat.le_induction with
  | base => exact ⟨item, hitem, h⟩
  | succ k hjk ih =>
      obtain ⟨mid, hmid, hP⟩ := ih
      obtain ⟨row, hrow, rfl | ⟨hmoved, -⟩⟩ := itemAt_succ hmid
      · exact ⟨row, hrow, hP⟩
      · exact ⟨row, hrow, hmove mid row hP hmoved⟩

theorem keyAt_stays {prior : IdempotencyKey} {ki : String × String} {j : Nat} (hjk : j ≤ k)
    (hprior : (inboxAfter env sessions (actions.take j)).state.keys.find? ki = some prior) :
    (inboxAfter env sessions (actions.take k)).state.keys.find? ki = some prior := by
  induction k, hjk using Nat.le_induction with
  | base => exact hprior
  | succ k hjk ih =>
      cases haction : actions[k]? with
      | none => rwa [inboxAfter_beyond haction]
      | some action =>
          rw [inboxAfter_succ haction]
          exact key_step ih

/-- Action `k` is a call with the idempotency key that returns. -/
def UsedAt (env : Env) (sessions : String → Option Session) (actions : List (Tasks.Action Job))
    (k : Nat) (item_id key text : String) : Prop :=
  ∃ p o next, actions[k]? = some (.step p)
    ∧ (inboxAfter env sessions (actions.take k)).slots p = .busy (.call o next)
    ∧ submission o = some (item_id, key, text)
    ∧ Succeeds o (perform env p (inboxAfter env sessions (actions.take k)).state o).2

theorem UsedAt.recorded (h : UsedAt env sessions actions k item_id key text) :
    (inboxAfter env sessions (actions.take (k + 1))).state.keys.find? (item_id, key)
      = some ⟨item_id, key, env.sha256 text⟩ := by
  obtain ⟨p, o, next, haction, hslot, hsub, hreturns⟩ := h
  rw [inboxAfter_succ haction]
  have hstate : ((inboxSystem env).step (inboxAfter env sessions (actions.take k)) (.step p)).state
      = (perform env p (inboxAfter env sessions (actions.take k)).state o).1 := by
    rw [System.step, hslot]
    rfl
  rw [hstate]
  exact (keys_effect env _ o).used hreturns item_id key text hsub

end Runs

/-- What holds of the items in every run. -/
structure InboxLaw (env : Env) (sessions : String → Option Session)
    (actions : List (Tasks.Action Job)) : Prop where
  /-- An item stays, and a step that changes its status raises its version. -/
  version : ∀ k item_id item, itemAt env sessions actions k item_id = some item →
    ∃ row, itemAt env sessions actions (k + 1) item_id = some row ∧ item.version ≤ row.version
      ∧ (row.status ≠ item.status → item.version < row.version)
  /-- At most one response is accepted. -/
  accepted_once : ∀ item_id j k, AcceptedAt env sessions actions j item_id →
    AcceptedAt env sessions actions k item_id → j = k
  /-- It is accepted when the session waits for the item under its attempt and
  lease. -/
  accepted_current : ∀ item_id k, AcceptedAt env sessions actions k item_id →
    ∃ item session, itemAt env sessions actions k item_id = some item
      ∧ (inboxAfter env sessions (actions.take k)).state.sessions item.session_id = some session
      ∧ session.status = waitingStatus item.kind ∧ session.attempt = item.attempt
      ∧ currentItemId session item.kind = item_id ∧ ownerHash env session = item.owner_hash
  /-- The stored response changes then only. -/
  response : ∀ item_id k item row, itemAt env sessions actions k item_id = some item →
    itemAt env sessions actions (k + 1) item_id = some row → row.response ≠ item.response →
    AcceptedAt env sessions actions k item_id
  /-- A call with a key of a call that returned changes nothing, and fails
  where the digest of its content is another one. -/
  repeated : ∀ item_id key text text' o j k, j < k →
    UsedAt env sessions actions j item_id key text → submission o = some (item_id, key, text') →
    ∀ p, (perform env p (inboxAfter env sessions (actions.take k)).state o).1
        = { (inboxAfter env sessions (actions.take k)).state with
            ticks := (inboxAfter env sessions (actions.take k)).state.ticks + 1 }
      ∧ (env.sha256 text' ≠ env.sha256 text →
        ¬ Succeeds o (perform env p (inboxAfter env sessions (actions.take k)).state o).2)
  /-- A delivered, rejected, stale or failed item never changes. -/
  settled : ∀ item_id item j k, j ≤ k → itemAt env sessions actions j item_id = some item →
    item.status ∈ settledStatuses → itemAt env sessions actions k item_id = some item
  /-- An expired item is expired, delivered or rejected from then on. -/
  expired : ∀ item_id item j k, j ≤ k → itemAt env sessions actions j item_id = some item →
    item.status = .expired → ∃ row, itemAt env sessions actions k item_id = some row
      ∧ row.status ∈ [.expired, .delivered, .rejected]

theorem currentOwner_ok {session : Option Session} (h : currentOwner env session item = .ok ()) :
    ∃ current, session = some current ∧ current.status = waitingStatus item.kind
      ∧ current.attempt = item.attempt ∧ currentItemId current item.kind = item.item_id
      ∧ ownerHash env current = item.owner_hash := by
  cases session with
  | none => cases h
  | some current =>
      simp only [currentOwner, assertCurrent] at h
      split at h
      · cases h
      · split at h
        · cases h
        · rename_i hcurrent
          push Not at hcurrent
          exact ⟨current, rfl, hcurrent⟩

end Agenthicc.Background.Inbox
