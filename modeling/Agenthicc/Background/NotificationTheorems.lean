/-
Agenthicc.Background.NotificationTheorems — what the outbox keeps.

Sections 1 and 2 say what each operation does to the rows. `RowOk` and
`Holds` (section 3) are the invariant; with it a step delivers or fails a row
for good, commits only under the latest token and sets retry times in their
window (section 4). Section 5 is the repair: a descriptor that `enqueue`
accepts has its rows afterwards, and one that it refuses ends the call in
front of all later records.
-/
import Agenthicc.Background.Notifications
import Agenthicc.Library.Runs

namespace Agenthicc.Background.Notifications

open Python Runs

variable {env : Env} {o o' : Outbox} {row row' : DeliveryRow} {now : ℚ}

/-! ## 1. Updates -/

theorem mem_update {f : DeliveryRow → DeliveryState} :
    row' ∈ (o.update f).deliveries ↔ ∃ row ∈ o.deliveries, row' = { row with state := f row } := by
  simp only [Outbox.update, List.mem_map, eq_comm]

theorem update_update (f h : DeliveryRow → DeliveryState) :
    ((o.update f).update h).deliveries
      = o.deliveries.map fun row => { row with state := h { row with state := f row } } := List.map_map

theorem exhaustLease_cases (now : ℚ) (row : DeliveryRow) :
    exhaustLease now row = row.state
      ∨ (row.state.status = .sending ∧ (exhaustLease now row).status = .failed
        ∧ (exhaustLease now row).attempts = row.state.attempts) := by
  unfold exhaustLease
  split
  · rename_i h
    exact .inr ⟨h.2.1, rfl, rfl⟩
  · exact .inl rfl

/-- What a claim does to a row: `claimed` is the delivery it returns. -/
structure ClaimRow (claimed : Option NotificationDelivery) (row row' : DeliveryRow) : Prop where
  info : row'.info = row.info
  settled : row.state.status = .delivered ∨ row.state.status = .failed → row' = row
  attempts : row.state.attempts ≤ row.info.max_attempts → row'.state.attempts ≤ row.info.max_attempts
  lease : row'.state.status = .sending →
    (∃ d, claimed = some d ∧ d.info = row.info ∧ row'.state.lease_token = some d.lease_token)
      ∨ ((∀ d, claimed = some d → d.info.delivery_id ≠ row.id) ∧ row.state.status = .sending
        ∧ row'.state.lease_token = row.state.lease_token)

theorem nextDue_mem (h : nextDue o now = some row) : row ∈ o.deliveries ∧ isDue now row.state := by
  have hmem := List.mem_of_find?_eq_some h
  rw [List.mem_filter, Bool.and_eq_true, decide_eq_true_eq] at hmem
  exact ⟨hmem.1, hmem.2.1⟩

theorem isDue_unsettled (h : isDue now row.state) :
    ¬ (row.state.status = .delivered ∨ row.state.status = .failed) := by
  intro hs
  rcases h with ⟨hp, -⟩ | ⟨hp, -⟩
  · rw [hp] at hs
    simp at hs
  · rw [hp] at hs
    simp at hs

theorem row_of_id (hrow : row ∈ o.deliveries) (hrow' : row' ∈ o.deliveries) (h : row.id = row'.id) :
    row = row' := List.inj_on_of_nodup_map o.delivery_key hrow hrow' h

theorem exhausted_row (now : ℚ) (row : DeliveryRow) :
    ClaimRow none row { row with state := exhaustLease now row } := by
  rcases exhaustLease_cases now row with h | ⟨hs, hf, ha⟩
  · rw [h]
    exact ⟨rfl, fun _ => rfl, id, fun hs => .inr ⟨nofun, hs, rfl⟩⟩
  · refine ⟨rfl, fun hset => ?_, fun hle => ?_, fun hsend => ?_⟩
    · rw [hs] at hset
      simp at hset
    · exact ha ▸ hle
    · exact absurd (hsend.symm.trans hf) nofun

theorem ClaimRow.trans {claimed : Option NotificationDelivery} {a b c : DeliveryRow}
    (h : ClaimRow none a b) (h' : ClaimRow claimed b c) : ClaimRow claimed a c where
  info := h'.info.trans h.info
  settled hs := by
    have hb := h.settled hs
    subst hb
    exact h'.settled hs
  attempts hle := by
    have hb := h.attempts hle
    rw [← h.info] at hb ⊢
    exact h'.attempts hb
  lease hsend := by
    rcases h'.lease hsend with ⟨d, hd, hinfo, ht⟩ | ⟨hother, hs, ht⟩
    · exact .inl ⟨d, hd, hinfo.trans h.info, ht⟩
    · rcases h.lease hs with ⟨d, hd, -, -⟩ | ⟨-, hs', ht'⟩
      · cases hd
      · refine .inr ⟨fun d hd => ?_, hs', ht.trans ht'⟩
        have hne := hother d hd
        unfold DeliveryRow.id at hne ⊢
        rwa [h.info] at hne

theorem ClaimRow.same {claimed : Option NotificationDelivery}
    (h : ∀ d, claimed = some d → d.info.delivery_id ≠ row.id) : ClaimRow claimed row row :=
  ⟨rfl, fun _ => rfl, id, fun hs => .inr ⟨h, hs, rfl⟩⟩

/-- The second update of the transaction: one row, the others stay. -/
theorem ClaimRow.setRow {claimed : Option NotificationDelivery} {target : DeliveryRow}
    {f : DeliveryState → DeliveryState} (htarget : ∀ d, claimed = some d → d.info = target.info)
    (hself : row.id = target.id → ClaimRow claimed row { row with state := f row.state }) :
    ClaimRow claimed row { row with state := setRow target.id f row } := by
  unfold Notifications.setRow
  by_cases h : row.id = target.id
  · rw [if_pos h]
    exact hself h
  · rw [if_neg h]
    refine .same fun d hd heq => h ?_
    rw [htarget d hd] at heq
    exact heq.symm

theorem claimDue_rows {token : Nat} :
    ∃ g : DeliveryRow → DeliveryRow,
      (claimDue env o token now).1.deliveries = o.deliveries.map g
        ∧ ∀ row ∈ o.deliveries, ClaimRow (claimDue env o token now).2 row (g row) := by
  have hexhausted : ∀ row ∈ o.deliveries, ClaimRow none row { row with state := exhaustLease now row } :=
    fun row _ => exhausted_row now row
  unfold claimDue
  simp only
  split
  · exact ⟨_, rfl, hexhausted⟩
  · rename_i target htarget
    obtain ⟨hmem, hdue⟩ := nextDue_mem htarget
    have hunsettled := isDue_unsettled hdue
    have hsame : ∀ row ∈ o.deliveries, row.id = target.id →
        ({ row with state := exhaustLease now row } : DeliveryRow) = target := fun row hrow hid =>
      row_of_id (o := o.update (exhaustLease now)) (mem_update.mpr ⟨row, hrow, rfl⟩) hmem hid
    split
    · refine ⟨_, update_update _ _, fun row hrow => ?_⟩
      refine (hexhausted row hrow).trans (ClaimRow.setRow nofun fun hid => ?_)
      rw [hsame row hrow hid]
      exact ⟨rfl, fun hs => absurd hs hunsettled, id, nofun⟩
    · rename_i hattempts
      refine ⟨_, update_update _ _, fun row hrow => ?_⟩
      refine (hexhausted row hrow).trans (ClaimRow.setRow (fun d hd => ?_) fun hid => ?_)
      · cases hd
        rfl
      · rw [hsame row hrow hid]
        refine ⟨rfl, fun hs => absurd hs hunsettled, fun _ => ?_, fun _ => .inl ⟨_, rfl, rfl, rfl⟩⟩
        exact Int.add_one_le_of_lt (Int.not_le.mp hattempts)

theorem claimDue_info {token : Nat} {d : NotificationDelivery} (h : (claimDue env o token now).2 = some d) :
    (∃ row ∈ o.deliveries, d.info = row.info) ∧ d.lease_token = token := by
  unfold claimDue at h
  simp only at h
  split at h
  · cases h
  · rename_i target htarget
    obtain ⟨row, hrow, heq⟩ := mem_update.mp (nextDue_mem htarget).1
    split at h
    · cases h
    · cases h
      exact ⟨⟨row, hrow, by rw [heq]⟩, rfl⟩

/-- What a finish changes, it changes under the token of the row's lease. -/
theorem finish_rows (delivery_id : String) (token : Nat) (result : DeliveryResult) :
    ∃ g : DeliveryRow → DeliveryRow,
      (finish o delivery_id token result now).deliveries = o.deliveries.map g
        ∧ ∀ row, (g row).info = row.info ∧ (g row = row
          ∨ row.id = delivery_id ∧ row.state.status = .sending ∧ row.state.lease_token = some token
            ∧ (g row).state.status = finishStatus result
            ∧ (g row).state.next_attempt_at = result.retry_at.getD 0
            ∧ (g row).state.attempts = row.state.attempts) := by
  refine ⟨_, rfl, fun row => ⟨rfl, ?_⟩⟩
  simp only
  split
  · rename_i h
    exact .inr ⟨h.1, h.2.1, h.2.2, rfl, rfl, rfl⟩
  · exact .inl rfl
/-! ## 2. New rows -/

/-- The limits of a row are in their ranges. -/
structure InfoOk (info : DeliveryInfo) : Prop where
  max_attempts : 1 ≤ info.max_attempts
  retry_base : 0 ≤ info.retry_base_delay_s
  retry_max : 0 ≤ info.retry_max_delay_s
  named : info.delivery_id = info.event_id ++ ":" ++ info.destination_name

theorem finiteFloat_nonneg {value : Option Json} {default minimum maximum x : ℚ}
    (hd : 0 ≤ default) (hm : 0 ≤ minimum) (h : finiteFloat env value default minimum maximum = .ok x) :
    0 ≤ x := by
  have hbounded : ∀ y : ℚ, 0 ≤ if minimum ≤ y ∧ y ≤ maximum then y else default := by
    intro y
    split
    · rename_i hy
      exact hm.trans hy.1
    · exact hd
  unfold finiteFloat at h
  split at h
  · split at h
    · rename_i y hy
      cases h
      exact hbounded y
    · cases h
  · cases h
    simp only
    split
    · exact hbounded _
    · exact hd
  · cases h
    exact hd

theorem boundedInt_ge {value : Option Json} {default minimum maximum : Int} (hd : minimum ≤ default) :
    minimum ≤ boundedInt value default minimum maximum := by
  unfold boundedInt
  split
  · split
    · rename_i h
      exact h.1
    · exact hd
  · exact hd

theorem deliveryInfo_ok {head : Head} {raw : Json} {info : DeliveryInfo}
    (h : deliveryInfo env head now raw = .ok info) : info.event_id = head.event_id ∧ InfoOk info := by
  unfold deliveryInfo at h
  obtain ⟨⟨name, kind⟩, hname, h⟩ := bind_ok h
  obtain ⟨-, -, h⟩ := bind_ok h
  obtain ⟨backend, -, h⟩ := bind_ok h
  obtain ⟨timeout, -, h⟩ := bind_ok h
  obtain ⟨base, hbase, h⟩ := bind_ok h
  obtain ⟨max, hmax, h⟩ := bind_ok h
  cases h
  refine ⟨rfl, boundedInt_ge (by decide), ?_, ?_, rfl⟩
  · exact finiteFloat_nonneg (by norm_num) (by norm_num) hbase
  · exact finiteFloat_nonneg (by norm_num) (by norm_num) hmax

theorem deliveryInfo_clock (head : Head) (raw : Json) (now now' : ℚ) :
    deliveryInfo env head now raw = (deliveryInfo env head now' raw).map fun i => { i with created_at := now } := by
  have key : ∀ n, deliveryInfo env head n raw
      = (deliveryInfo env head 0 raw).map fun i => { i with created_at := n } := by
    intro n
    unfold deliveryInfo
    simp only
    cases checkName (object (some raw)) with
    | error exc => rfl
    | ok p =>
        obtain ⟨name, kind⟩ := p
        cases hw : checkWebhook env kind (object (some raw)) with
        | error exc => simp [bind, Except.bind, Except.map, hw]
        | ok u =>
            simp only [bind, Except.bind, hw]
            cases checkBackend (object (some raw)) with
            | error exc => rfl
            | ok backend =>
                cases finiteFloat env (Json.lookup "request_timeout_s" head.policy) 5 (1/10) 60 with
                | error exc => rfl
                | ok timeout =>
                    cases finiteFloat env (Json.lookup "retry_base_delay_s" head.policy) 1 (1/10) 3600 with
                    | error exc => rfl
                    | ok base =>
                        cases finiteFloat env (Json.lookup "retry_max_delay_s" head.policy) 300 (1/10) 86400 with
                        | error exc => rfl
                        | ok max => rfl
  rw [key now, key now']
  cases deliveryInfo env head 0 raw <;> rfl

def DeliveryInfo.edge (info : DeliveryInfo) : String × String := (info.event_id, info.destination_name)

/-- The rows that some destinations stand for. -/
def destinationInfos (env : Env) (head : Head) (now : ℚ) : List Json → Except PyError (List DeliveryInfo)
  | [] => .ok []
  | raw :: rest => do
      let info ← deliveryInfo env head now raw
      let infos ← destinationInfos env head now rest
      pure (info :: infos)

def newRow (now : ℚ) (info : DeliveryInfo) : DeliveryRow := ⟨info, initialState now⟩

theorem insertDestinations_rows {head : Head} : ∀ {raws : List Json} {o o' : Outbox},
    insertDestinations env head now raws o = .ok o' →
      ∃ infos, destinationInfos env head now raws = .ok infos ∧ o'.events = o.events
        ∧ o'.deliveries = o.deliveries ++ infos.map (newRow now)
  | [], o, o', h => by
      cases h
      exact ⟨[], rfl, rfl, by simp⟩
  | raw :: rest, o, o', h => by
      obtain ⟨info, hinfo, h⟩ := bind_ok h
      obtain ⟨o₁, hinsert, h⟩ := bind_ok h
      obtain ⟨infos, hinfos, hevents, hrows⟩ := insertDestinations_rows h
      have hone : o₁.events = o.events ∧ o₁.deliveries = o.deliveries ++ [newRow now info] := by
        unfold Outbox.insertDelivery at hinsert
        split at hinsert
        · cases hinsert
        · split at hinsert
          · cases hinsert
          · cases hinsert
            exact ⟨rfl, rfl⟩
      refine ⟨info :: infos, ?_, hevents.trans hone.1, ?_⟩
      · simp [destinationInfos, hinfo, hinfos, bind, Except.bind, pure, Except.pure]
      · rw [hrows, hone.2, List.append_assoc, List.map_cons, List.singleton_append]

theorem destinationInfos_ok {head : Head} : ∀ {raws : List Json} {infos : List DeliveryInfo},
    destinationInfos env head now raws = .ok infos →
      ∀ info ∈ infos, info.event_id = head.event_id ∧ InfoOk info
  | [], infos, h => by
      cases h
      exact nofun
  | raw :: rest, infos, h => by
      obtain ⟨info, hinfo, h⟩ := bind_ok h
      obtain ⟨infos', hinfos, h⟩ := bind_ok h
      cases h
      intro i hi
      rcases List.mem_cons.mp hi with rfl | hi
      · exact deliveryInfo_ok hinfo
      · exact destinationInfos_ok hinfos i hi

/-- What `enqueue` does to the tables. -/
theorem enqueue_rows {descriptor : List (String × Json)} {b : Bool}
    (h : enqueue env o descriptor now = .ok (o', b)) :
    ∃ head, checkHead descriptor = .ok head
      ∧ ((o.knows head.event_id = true ∧ o' = o)
        ∨ (o.knows head.event_id = false ∧ ∃ infos, destinationInfos env head now head.destinations = .ok infos
          ∧ o'.deliveries = o.deliveries ++ infos.map (newRow now))) := by
  unfold enqueue at h
  obtain ⟨head, hhead, h⟩ := bind_ok h
  refine ⟨head, hhead, ?_⟩
  split at h
  · rename_i hknown
    cases h
    exact .inl ⟨hknown, rfl⟩
  · rename_i hknown
    obtain ⟨o₁, hevent, h⟩ := bind_ok h
    obtain ⟨o₂, hrows, h⟩ := bind_ok h
    cases h
    obtain ⟨infos, hinfos, -, hdeliveries⟩ := insertDestinations_rows hrows
    have hone : o₁.deliveries = o.deliveries := by
      unfold Outbox.insertEvent at hevent
      split at hevent
      · cases hevent
      · cases hevent
        rfl
    exact .inr ⟨Bool.eq_false_of_not_eq_true hknown, infos, hinfos, by rw [hdeliveries, hone]⟩

/-! ## 3. The invariant -/

/-- The token of the latest claim of a delivery. -/
def latestToken (claims : List NotificationDelivery) (delivery_id : String) : Option Nat :=
  (claims.reverse.find? (·.info.delivery_id = delivery_id)).map (·.lease_token)

theorem latestToken_concat (claims : List NotificationDelivery) (d : NotificationDelivery) (delivery_id : String) :
    latestToken (claims ++ [d]) delivery_id
      = if d.info.delivery_id = delivery_id then some d.lease_token else latestToken claims delivery_id := by
  unfold latestToken
  rw [List.reverse_append, List.reverse_singleton, List.singleton_append, List.find?_cons]
  by_cases h : d.info.delivery_id = delivery_id
  · simp [h]
  · simp [h]

/-- A row keeps its limits; one that is being sent has the token of its latest
claim. -/
structure RowOk (claims : List NotificationDelivery) (row : DeliveryRow) : Prop where
  info : InfoOk row.info
  attempts : row.state.attempts ≤ row.info.max_attempts
  leased : row.state.status = .sending →
    ∃ token, row.state.lease_token = some token ∧ latestToken claims row.id = some token

structure Kept (claims : List NotificationDelivery) (o : Outbox) : Prop where
  rows : ∀ row ∈ o.deliveries, RowOk claims row
  claimed : ∀ d ∈ claims, ∃ row ∈ o.deliveries, d.info = row.info

variable {claims : List NotificationDelivery}

theorem Kept.enqueue {descriptor : List (String × Json)} {b : Bool} (hk : Kept claims o)
    (h : Notifications.enqueue env o descriptor now = .ok (o', b)) : Kept claims o' := by
  obtain ⟨head, -, ⟨-, rfl⟩ | ⟨-, infos, hinfos, hrows⟩⟩ := enqueue_rows h
  · exact hk
  · refine ⟨fun row hrow => ?_, fun d hd => ?_⟩
    · rw [hrows, List.mem_append, List.mem_map] at hrow
      rcases hrow with hrow | ⟨info, hinfo, rfl⟩
      · exact hk.rows row hrow
      · have hok := (destinationInfos_ok hinfos info hinfo).2
        exact ⟨hok, Int.le_trans (by decide : (0 : Int) ≤ 1) hok.max_attempts, nofun⟩
    · obtain ⟨row, hrow, heq⟩ := hk.claimed d hd
      exact ⟨row, by rw [hrows]; exact List.mem_append_left _ hrow, heq⟩

theorem Kept.claim {token : Nat} (hk : Kept claims o) :
    Kept (claims ++ (claimDue env o token now).2.toList) (claimDue env o token now).1 := by
  obtain ⟨g, hrows, hg⟩ := @claimDue_rows env o now token
  have hinfo := fun d => @claimDue_info env o now token d
  generalize claimDue env o token now = result at hrows hg hinfo ⊢
  obtain ⟨o₁, claimed⟩ := result
  simp only at hrows hg hinfo ⊢
  refine ⟨fun row hrow => ?_, fun d hd => ?_⟩
  · rw [hrows, List.mem_map] at hrow
    obtain ⟨old, hold, rfl⟩ := hrow
    have hrow := hg old hold
    have hok := hk.rows old hold
    have hid : (g old).id = old.id := congrArg DeliveryInfo.delivery_id hrow.info
    refine ⟨hrow.info ▸ hok.info, ?_, fun hsend => ?_⟩
    · rw [hrow.info]
      exact hrow.attempts hok.attempts
    · rw [hid]
      rcases hrow.lease hsend with ⟨d, hd, hinfo', ht⟩ | ⟨hother, hs, ht⟩
      · subst hd
        refine ⟨d.lease_token, ht, ?_⟩
        rw [Option.toList_some, latestToken_concat, if_pos]
        exact congrArg DeliveryInfo.delivery_id hinfo'
      · obtain ⟨t, hto, hlatest⟩ := hok.leased hs
        refine ⟨t, ht.trans hto, ?_⟩
        cases claimed with
        | none => simpa using hlatest
        | some d => rw [Option.toList_some, latestToken_concat, if_neg (hother d rfl), hlatest]
  · have hold : ∀ row ∈ o.deliveries, ∃ row' ∈ o₁.deliveries, row.info = row'.info := fun row hrow =>
      ⟨g row, by rw [hrows]; exact List.mem_map_of_mem hrow, (hg row hrow).info.symm⟩
    rcases List.mem_append.mp hd with hd | hd
    · obtain ⟨row, hrow, heq⟩ := hk.claimed d hd
      obtain ⟨row', hrow', heq'⟩ := hold row hrow
      exact ⟨row', hrow', heq.trans heq'⟩
    · obtain ⟨row, hrow, heq⟩ := (hinfo d (Option.mem_toList.mp hd)).1
      obtain ⟨row', hrow', heq'⟩ := hold row hrow
      exact ⟨row', hrow', heq.trans heq'⟩

theorem finishStatus_ne_sending (result : DeliveryResult) : finishStatus result ≠ .sending := by
  unfold finishStatus
  split
  · nofun
  · split <;> nofun

theorem Kept.finish {delivery_id : String} {token : Nat} {result : DeliveryResult} (hk : Kept claims o) :
    Kept claims (Notifications.finish o delivery_id token result now) := by
  obtain ⟨g, hrows, hg⟩ := @finish_rows o now delivery_id token result
  refine ⟨fun row hrow => ?_, fun d hd => ?_⟩
  · rw [hrows, List.mem_map] at hrow
    obtain ⟨old, hold, rfl⟩ := hrow
    have hok := hk.rows old hold
    rcases (hg old).2 with heq | ⟨-, -, -, hstatus, -, hattempts⟩
    · rw [heq]
      exact hok
    · refine ⟨(hg old).1 ▸ hok.info, ?_, fun hsend => ?_⟩
      · rw [hattempts, (hg old).1]
        exact hok.attempts
      · exact absurd (hstatus.symm.trans hsend) (finishStatus_ne_sending result)
  · obtain ⟨row, hrow, heq⟩ := hk.claimed d hd
    exact ⟨g row, by rw [hrows]; exact List.mem_map_of_mem hrow, heq.trans (hg row).1.symm⟩

/-! ## 4. Steps -/

theorem clampSeconds_bounds {seconds : WithBot (WithTop ℚ)} {maximum : ℚ} (h : 0 ≤ maximum) :
    0 ≤ clampSeconds seconds maximum ∧ clampSeconds seconds maximum ≤ maximum := by
  unfold clampSeconds
  split
  · exact ⟨le_min (le_max_left _ _) h, min_le_right _ _⟩
  · exact ⟨h, le_refl _⟩
  · exact ⟨le_min (le_refl _) h, min_le_right _ _⟩

/-- Between the time and the longest delay after it. -/
def InWindow (env : Env) (now : env.Clock) (longest t : ℚ) : Prop :=
  now.1 ≤ t ∧ t ≤ env.arith.fl (now.1 + longest)

theorem inWindow_add (now : env.Clock) {delay longest : ℚ} (h : 0 ≤ delay) (hle : delay ≤ longest) :
    InWindow env now longest (env.arith.fl (now.1 + delay)) :=
  ⟨Rounding.le_add now h, Rounding.add_le hle⟩

theorem backoff_inWindow {d : NotificationDelivery} (hinfo : InfoOk d.info) (jitter : Fin 401) (now : env.Clock) :
    InWindow env now d.info.retry_max_delay_s (backoff env d jitter now.1) := by
  refine inWindow_add now (le_min hinfo.retry_max ?_) (min_le_left _ _)
  refine Rounding.nonneg (div_nonneg (Rounding.nonneg (mul_nonneg ?_ ?_)) (by norm_num))
  · refine le_min hinfo.retry_max (Rounding.nonneg (mul_nonneg hinfo.retry_base ?_))
    positivity
  · positivity

theorem retryAfter_inWindow {header : Option String} {now : env.Clock} {maximum t : ℚ} (h : 0 ≤ maximum)
    (ht : retryAfter env header now.1 maximum = some t) : InWindow env now maximum t := by
  unfold retryAfter at ht
  split at ht
  · cases ht
  · split at ht
    · cases ht
    · obtain ⟨s, -, rfl⟩ := Option.map_eq_some_iff.mp ht
      exact inWindow_add now (clampSeconds_bounds h).1 (clampSeconds_bounds h).2

/-- A result that is not final has its retry time in the window. -/
def RetryOk (env : Env) (now : env.Clock) (longest : ℚ) (result : DeliveryResult) : Prop :=
  result.terminal = false → ∃ t, result.retry_at = some t ∧ InWindow env now longest t

theorem settle_retryOk {d : NotificationDelivery} (hinfo : InfoOk d.info) (jitter : Fin 401) {now : env.Clock}
    (category : String) (status : Option Int) (retryable : Bool) {after : Option ℚ}
    (hafter : ∀ t, after = some t → InWindow env now d.info.retry_max_delay_s t) :
    RetryOk env now d.info.retry_max_delay_s
      (settle env d jitter now.1 category status retryable after) := by
  unfold settle
  split
  · nofun
  · split
    · nofun
    · refine fun _ => ⟨_, rfl, ?_⟩
      cases after with
      | none => exact backoff_inWindow hinfo jitter now
      | some t => exact hafter t rfl

theorem claimResult_retryOk {d : NotificationDelivery} (hinfo : InfoOk d.info) (answer : Answer)
    (now : env.Clock) : RetryOk env now d.info.retry_max_delay_s (claimResult env d answer now.1) := by
  unfold claimResult
  cases d.payload with
  | none => nofun
  | some payload =>
      simp only
      unfold deliverOne
      split
      · nofun
      · split
        · nofun
        · cases answer.post with
          | blocked => nofun
          | networkError => exact settle_retryOk hinfo _ _ _ _ nofun
          | missingSecret => exact settle_retryOk hinfo _ _ _ _ nofun
          | response status header =>
              simp only
              split
              · nofun
              · exact settle_retryOk hinfo _ _ _ _ fun t ht => retryAfter_inWindow hinfo.retry_max ht

/-- A delivery that is over. -/
def Settled (row : DeliveryRow) : Prop := row.state.status = .delivered ∨ row.state.status = .failed

/-- What a step does to a delivery that was there. -/
structure StepOk (w : World) (a : Action env) : Prop where
  absorbing : ∀ row ∈ w.outbox.deliveries, Settled row → row ∈ (w.step a).outbox.deliveries
  fenced : ∀ c answer sentAt committedAt d, a = .finish c answer sentAt committedAt → w.claims[c]? = some d →
    ∀ row ∈ w.outbox.deliveries, row ∉ (w.step a).outbox.deliveries →
      row.id = d.info.delivery_id ∧ latestToken w.claims row.id = some d.lease_token
  window : ∀ c answer sentAt committedAt, a = .finish c answer sentAt committedAt →
    ∀ row ∈ (w.step a).outbox.deliveries, row ∉ w.outbox.deliveries → row.state.status = .pending →
      InWindow env sentAt row.info.retry_max_delay_s row.state.next_attempt_at

/-- A state: one row for each edge, and attempts within their limit. -/
structure StateOk (w : World) : Prop where
  one : ∀ row ∈ w.outbox.deliveries, ∀ row' ∈ w.outbox.deliveries, row.edge = row'.edge → row = row'
  attempts : ∀ row ∈ w.outbox.deliveries, row.state.attempts ≤ row.info.max_attempts

/-- The outbox is the one before, with new rows behind. -/
def Appended (o o' : Outbox) : Prop := ∃ rows, o'.deliveries = o.deliveries ++ rows

theorem Appended.refl (o : Outbox) : Appended o o := ⟨[], by simp⟩

theorem Appended.mem (h : Appended o o') (hrow : row ∈ o.deliveries) : row ∈ o'.deliveries := by
  obtain ⟨rows, hrows⟩ := h
  rw [hrows]
  exact List.mem_append_left _ hrow

theorem enqueue_appended {descriptor : List (String × Json)} {b : Bool}
    (h : enqueue env o descriptor now = .ok (o', b)) : Appended o o' := by
  obtain ⟨head, -, ⟨-, rfl⟩ | ⟨-, infos, -, hrows⟩⟩ := enqueue_rows h
  · exact .refl _
  · exact ⟨_, hrows⟩

theorem reconcileRecord_kept {w : World} {next : Nat} (h : Kept w.claims w.outbox) :
    Kept w.claims (reconcileRecord env w next now).1
      ∧ Appended w.outbox (reconcileRecord env w next now).1 := by
  unfold reconcileRecord
  split
  · exact ⟨h, .refl _⟩
  · split
    · exact ⟨h, .refl _⟩
    · split
      · rename_i henqueue
        exact ⟨h.enqueue henqueue, enqueue_appended henqueue⟩
      · exact ⟨h, .refl _⟩

/-- What a step that commits nothing does: rows appended, or a claim. -/
theorem step_kept {w : World} (h : Kept w.claims w.outbox) (a : Action env) :
    Kept (w.step a).claims (w.step a).outbox := by
  cases a with
  | record event => exact h
  | enqueue descriptor now =>
      simp only [World.step]
      split
      · rename_i henqueue
        exact h.enqueue henqueue
      · exact h
  | startReconcile => exact h
  | reconcileNext r now =>
      simp only [World.step]
      split
      · exact (reconcileRecord_kept h).1
      · exact h
  | claim now =>
      have hclaim := @Kept.claim env w.outbox now.1 w.claims w.claims.length h
      simp only [World.step]
      split
      · rename_i d heq
        rw [heq] at hclaim
        exact hclaim
      · rename_i heq
        rw [heq] at hclaim
        simpa using hclaim
  | finish c answer sentAt committedAt =>
      simp only [World.step]
      split
      · exact h.finish
      · exact h

theorem terminal_of_pending {result : DeliveryResult} (h : finishStatus result = .pending) :
    result.terminal = false := by
  unfold finishStatus at h
  split at h
  · cases h
  · split at h
    · cases h
    · rename_i hterminal
      exact Bool.eq_false_of_not_eq_true hterminal

theorem Appended.absorbing (h : Appended o o') : ∀ row ∈ o.deliveries, Settled row → row ∈ o'.deliveries :=
  fun _ hrow _ => h.mem hrow

/-- The delivery of a claim and the row it names have the same limits. -/
theorem Kept.info_eq (h : Kept claims o) {d : NotificationDelivery} (hd : d ∈ claims)
    (hrow : row ∈ o.deliveries) (hid : row.id = d.info.delivery_id) : row.info = d.info := by
  obtain ⟨row', hrow', heq⟩ := h.claimed d hd
  have hsame : row = row' := row_of_id hrow hrow' (hid.trans (congrArg DeliveryInfo.delivery_id heq))
  rw [hsame, heq]

theorem finish_ok {w : World} (h : Kept w.claims w.outbox) (c : Nat) (answer : Answer)
    (sentAt committedAt : env.Clock) : StepOk w (.finish c answer sentAt committedAt) := by
  cases hd : w.claims[c]? with
  | none =>
      have hstep : (w.step (.finish c answer sentAt committedAt)) = w := by simp [World.step, hd]
      refine ⟨fun row hrow _ => by rwa [hstep], ?_, ?_⟩
      · intro c' _ _ _ d heq hd'
        cases heq
        rw [hd] at hd'
        cases hd'
      · intro c' _ _ _ _ row hrow hnot
        rw [hstep] at hrow
        exact absurd hrow hnot
  | some d =>
      have hmem : d ∈ w.claims := List.mem_of_getElem? hd
      obtain ⟨g, hrows, hg⟩ := @finish_rows w.outbox committedAt.1 d.info.delivery_id
        d.lease_token (claimResult env d answer sentAt.1)
      have hstep : (w.step (.finish c answer sentAt committedAt)).outbox.deliveries
          = w.outbox.deliveries.map g := by
        simp only [World.step, hd]
        exact hrows
      refine ⟨fun row hrow hs => ?_, ?_, ?_⟩
      · rw [hstep]
        rcases (hg row).2 with heq | ⟨-, hsending, -⟩
        · exact List.mem_map.mpr ⟨row, hrow, heq⟩
        · rcases hs with hs | hs
          · rw [hsending] at hs
            cases hs
          · rw [hsending] at hs
            cases hs
      · intro c' _ _ _ d' heq hd' row hrow hnot
        cases heq
        rw [hd] at hd'
        cases hd'
        rw [hstep] at hnot
        rcases (hg row).2 with heq | ⟨hid, hsending, htoken, -⟩
        · exact absurd (List.mem_map.mpr ⟨row, hrow, heq⟩) hnot
        · obtain ⟨t, ht, hlatest⟩ := (h.rows row hrow).leased hsending
          rw [htoken] at ht
          cases ht
          exact ⟨hid, hlatest⟩
      · intro c' _ _ _ heq row hrow hnot hpending
        cases heq
        rw [hstep] at hrow
        obtain ⟨old, hold, rfl⟩ := List.mem_map.mp hrow
        rcases (hg old).2 with heq | ⟨hid, -, -, hstatus, hnext, -⟩
        · rw [heq] at hnot
          exact absurd hold hnot
        · have hinfo : old.info = d.info := h.info_eq hmem hold hid
          have hok : InfoOk d.info := hinfo ▸ (h.rows old hold).info
          obtain ⟨t, ht, hwindow⟩ := claimResult_retryOk hok answer sentAt
            (terminal_of_pending (hstatus.symm.trans hpending))
          rw [hnext, ht, Option.getD_some, (hg old).1, hinfo]
          exact hwindow

/-- No result is committed. -/
def Action.quiet : Action env → Bool
  | .finish .. => false
  | _ => true

theorem StepOk.of_quiet {w : World} {a : Action env} (hq : a.quiet = true)
    (h : ∀ row ∈ w.outbox.deliveries, Settled row → row ∈ (w.step a).outbox.deliveries) : StepOk w a := by
  refine ⟨h, fun c answer sentAt committedAt d ha => ?_, fun c answer sentAt committedAt ha => ?_⟩
  · subst ha
    cases hq
  · subst ha
    cases hq

theorem step_ok {w : World} (h : Kept w.claims w.outbox) (a : Action env) : StepOk w a := by
  cases a with
  | record event =>
      refine .of_quiet rfl fun row hrow _ => ?_
      simpa only [World.step] using hrow
  | enqueue descriptor now =>
      refine .of_quiet rfl ?_
      simp only [World.step]
      split
      · rename_i henqueue
        exact (enqueue_appended henqueue).absorbing
      · exact fun _ hrow _ => hrow
  | startReconcile =>
      refine .of_quiet rfl fun row hrow _ => ?_
      simpa only [World.step] using hrow
  | reconcileNext r now =>
      refine .of_quiet rfl ?_
      simp only [World.step]
      split
      · exact (reconcileRecord_kept h).2.absorbing
      · exact fun _ hrow _ => hrow
  | claim now =>
      refine .of_quiet rfl fun row hrow hs => ?_
      obtain ⟨g, hrows, hg⟩ := @claimDue_rows env w.outbox now.1 w.claims.length
      have hkeep : row ∈ (claimDue env w.outbox w.claims.length now.1).1.deliveries := by
        rw [hrows]
        exact List.mem_map.mpr ⟨row, hrow, (hg row hrow).settled hs⟩
      simp only [World.step]
      split
      · rename_i heq
        rw [heq] at hkeep
        exact hkeep
      · rename_i heq
        rw [heq] at hkeep
        exact hkeep
  | finish c answer sentAt committedAt => exact finish_ok h c answer sentAt committedAt

theorem stateOk {w : World} (h : Kept w.claims w.outbox) : StateOk w where
  one _ hrow _ hrow' heq := List.inj_on_of_nodup_map w.outbox.unique_edge hrow hrow' heq
  attempts row hrow := (h.rows row hrow).attempts

/-! ## 5. Repair -/

/-- The edges that a descriptor stands for. -/
def descriptorEdges (env : Env) (descriptor : List (String × Json)) : Except PyError (List (String × String)) := do
  let head ← checkHead descriptor
  let infos ← destinationInfos env head 0 head.destinations
  pure (infos.map DeliveryInfo.edge)

/-- A descriptor with a good head and good destinations, no two of one name. -/
def Valid (env : Env) (descriptor : List (String × Json)) : Prop :=
  ∃ edges, descriptorEdges env descriptor = .ok edges ∧ edges.Nodup

/-- All delivery rows of a descriptor are there. -/
def Covered (env : Env) (o : Outbox) (descriptor : List (String × Json)) : Prop :=
  ∀ edges, descriptorEdges env descriptor = .ok edges → ∀ e ∈ edges, e ∈ o.deliveries.map DeliveryRow.edge

/-- What the outbox takes: a repeat of a known event, or a valid descriptor
whose delivery ids are free. -/
def Accepts (env : Env) (o : Outbox) (descriptor : List (String × Json)) : Prop :=
  ∃ head, checkHead descriptor = .ok head ∧ (o.knows head.event_id = true
    ∨ Valid env descriptor ∧ ∀ edges, descriptorEdges env descriptor = .ok edges → ∀ e ∈ edges,
        e.1 ++ ":" ++ e.2 ∉ o.deliveries.map DeliveryRow.id)

theorem destinationInfos_clock (head : Head) (now now' : ℚ) (raws : List Json) :
    destinationInfos env head now raws
      = (destinationInfos env head now' raws).map fun infos => infos.map fun i => { i with created_at := now } := by
  induction raws with
  | nil => rfl
  | cons raw rest ih =>
      rw [destinationInfos, destinationInfos, ih, deliveryInfo_clock head raw now now']
      cases deliveryInfo env head now' raw with
      | error exc => rfl
      | ok info =>
          cases destinationInfos env head now' rest with
          | error exc => rfl
          | ok infos => rfl

theorem edges_of_infos {descriptor : List (String × Json)} {head : Head} {infos : List DeliveryInfo}
    (hhead : checkHead descriptor = .ok head)
    (hinfos : destinationInfos env head now head.destinations = .ok infos) :
    descriptorEdges env descriptor = .ok (infos.map DeliveryInfo.edge) := by
  rw [destinationInfos_clock head now 0] at hinfos
  unfold descriptorEdges
  rw [hhead]
  cases h : destinationInfos env head 0 head.destinations with
  | error exc =>
      rw [h] at hinfos
      cases hinfos
  | ok infos' =>
      rw [h] at hinfos
      cases hinfos
      simp [bind, Except.bind, pure, Except.pure, h, List.map_map, Function.comp_def, DeliveryInfo.edge]

def joined (e : String × String) : String := e.1 ++ ":" ++ e.2

theorem joined_inj {a b : String × String} (he : a.1 = b.1) (h : joined a = joined b) : a = b := by
  unfold joined at h
  rw [he, String.append_right_inj] at h
  exact Prod.ext he h

/-- The ids of the rows are the edges, joined. -/
def Named (o : Outbox) : Prop := ∀ row ∈ o.deliveries, row.id = joined row.edge

theorem Kept.isNamed (h : Kept claims o) : Named o := fun row hrow => (h.rows row hrow).info.named

theorem Named.append {infos : List DeliveryInfo} (h : Named o) (hinfos : ∀ i ∈ infos, InfoOk i)
    (hrows : o'.deliveries = o.deliveries ++ infos.map (newRow now)) : Named o' := by
  intro row hrow
  rw [hrows, List.mem_append, List.mem_map] at hrow
  rcases hrow with hrow | ⟨info, hinfo, rfl⟩
  · exact h row hrow
  · exact (hinfos info hinfo).named

theorem insertDelivery_ok (hnamed : Named o) {info : DeliveryInfo} (hinfo : InfoOk info)
    (hfree : info.delivery_id ∉ o.deliveries.map DeliveryRow.id) :
    ∃ o', o.insertDelivery (newRow now info) = .ok o' ∧ o'.deliveries = o.deliveries ++ [newRow now info] := by
  have hedge : (newRow now info).edge ∉ o.deliveries.map DeliveryRow.edge := by
    intro hmem
    obtain ⟨row, hrow, heq⟩ := List.mem_map.mp hmem
    refine hfree (List.mem_map.mpr ⟨row, hrow, ?_⟩)
    rw [hnamed row hrow, heq]
    exact hinfo.named.symm
  have hid : (newRow now info).id ∉ o.deliveries.map DeliveryRow.id := hfree
  unfold Outbox.insertDelivery
  rw [dif_neg hid, dif_neg hedge]
  exact ⟨_, rfl, rfl⟩

theorem insertDestinations_ok {head : Head} : ∀ {raws : List Json} {infos : List DeliveryInfo} {o : Outbox},
    Named o → destinationInfos env head now raws = .ok infos → (infos.map DeliveryInfo.edge).Nodup →
      (∀ i ∈ infos, i.delivery_id ∉ o.deliveries.map DeliveryRow.id) →
        ∃ o', insertDestinations env head now raws o = .ok o'
  | [], _, o, _, _, _, _ => ⟨o, rfl⟩
  | raw :: rest, infos, o, hnamed, hinfos, hnodup, hfree => by
      have hall := destinationInfos_ok hinfos
      obtain ⟨info, hinfo, h⟩ := bind_ok hinfos
      obtain ⟨infos', hrest, h⟩ := bind_ok h
      cases h
      rw [List.map_cons, List.nodup_cons] at hnodup
      obtain ⟨o₁, hinsert, hrows⟩ := @insertDelivery_ok o now hnamed info (hall info List.mem_cons_self).2
        (hfree info List.mem_cons_self)
      have hnamed₁ : Named o₁ :=
        @Named.append o o₁ now [info] hnamed (fun i hi => List.mem_singleton.mp hi ▸ (hall info List.mem_cons_self).2) hrows
      obtain ⟨o₂, ho₂⟩ := insertDestinations_ok (o := o₁) hnamed₁ hrest hnodup.2 fun i hi hmem => by
        rw [hrows, List.map_append, List.mem_append] at hmem
        rcases hmem with hmem | hmem
        · exact hfree i (List.mem_cons_of_mem _ hi) hmem
        · have hid : i.delivery_id = info.delivery_id := by simpa [newRow, DeliveryRow.id] using hmem
          have hi' := hall i (List.mem_cons_of_mem _ hi)
          have hinfo' := hall info List.mem_cons_self
          have hsame : i.edge = info.edge := joined_inj (hi'.1.trans hinfo'.1.symm) (by
            rw [hi'.2.named, hinfo'.2.named] at hid
            exact hid)
          exact hnodup.1 (hsame ▸ List.mem_map_of_mem hi)
      refine ⟨o₂, ?_⟩
      have hinsert' : o.insertDelivery ⟨info, initialState now⟩ = .ok o₁ := hinsert
      simp [insertDestinations, hinfo, hinsert', ho₂, bind, Except.bind]

theorem unknown_insertEvent {event : EventRow} (h : o.knows event.event_id = false) :
    ∃ o', o.insertEvent event = .ok o' ∧ o'.deliveries = o.deliveries := by
  have hfree : event.event_id ∉ o.events.map (·.event_id) := by
    simpa [Outbox.knows] using h
  unfold Outbox.insertEvent
  rw [dif_neg hfree]
  exact ⟨_, rfl, rfl⟩

/-- The edges and ids of rows that went in were free and differ. -/
theorem new_rows_free {infos : List DeliveryInfo}
    (hrows : o'.deliveries = o.deliveries ++ infos.map (newRow now)) :
    (infos.map DeliveryInfo.edge).Nodup
      ∧ ∀ i ∈ infos, i.delivery_id ∉ o.deliveries.map DeliveryRow.id := by
  have hids := o'.delivery_key
  have hedges := o'.unique_edge
  rw [hrows, List.map_append, List.nodup_append] at hids hedges
  refine ⟨?_, fun i hi hmem => ?_⟩
  · have hnew := hedges.2.1
    rw [List.map_map] at hnew
    exact hnew
  · refine hids.2.2 i.delivery_id hmem i.delivery_id ?_ rfl
    rw [List.map_map]
    exact List.mem_map.mpr ⟨i, hi, rfl⟩

/-- `enqueue` returns exactly where the outbox takes the descriptor. -/
theorem enqueue_ok_iff (hnamed : Named o) {descriptor : List (String × Json)} :
    (∃ o' b, enqueue env o descriptor now = .ok (o', b)) ↔ Accepts env o descriptor := by
  constructor
  · rintro ⟨o', b, h⟩
    obtain ⟨head, hhead, ⟨hknown, -⟩ | ⟨-, infos, hinfos, hrows⟩⟩ := enqueue_rows h
    · exact ⟨head, hhead, .inl hknown⟩
    · have hedges := edges_of_infos hhead hinfos
      obtain ⟨hnodup, hfree⟩ := new_rows_free hrows
      refine ⟨head, hhead, .inr ⟨⟨_, hedges, hnodup⟩, fun edges heq e he => ?_⟩⟩
      rw [hedges] at heq
      cases heq
      obtain ⟨i, hi, rfl⟩ := List.mem_map.mp he
      have hid := (destinationInfos_ok hinfos i hi).2.named
      exact fun hmem => hfree i hi (hid ▸ hmem)
  · rintro ⟨head, hhead, hknown | ⟨⟨edges, hedges, hnodup⟩, hfree⟩⟩
    · exact ⟨o, false, by simp [enqueue, hhead, hknown, bind, Except.bind, pure, Except.pure]⟩
    · by_cases hknown : o.knows head.event_id = true
      · exact ⟨o, false, by simp [enqueue, hhead, hknown, bind, Except.bind, pure, Except.pure]⟩
      · have hstart := hedges
        unfold descriptorEdges at hstart
        obtain ⟨head', hhead', h⟩ := bind_ok hstart
        rw [hhead] at hhead'
        cases hhead'
        obtain ⟨infos₀, hinfos₀, -⟩ := bind_ok h
        have hinfos : destinationInfos env head now head.destinations
            = .ok (infos₀.map fun i => { i with created_at := now }) := by
          rw [destinationInfos_clock head now 0, hinfos₀]
          rfl
        have heq := hedges.symm.trans (edges_of_infos hhead hinfos)
        cases heq
        obtain ⟨o₁, hevent, hsame⟩ := @unknown_insertEvent o
          ⟨head.event_id, head.event_type, head.session_id, now, head.payload_json⟩ (Bool.eq_false_of_not_eq_true hknown)
        have hnamed₁ : Named o₁ := fun row hrow => hnamed row (hsame ▸ hrow)
        obtain ⟨o₂, ho₂⟩ := insertDestinations_ok hnamed₁ hinfos hnodup fun i hi hmem => by
          rw [hsame] at hmem
          have hid := (destinationInfos_ok hinfos i hi).2.named
          exact hfree _ (edges_of_infos hhead hinfos) i.edge (List.mem_map_of_mem hi) (hid ▸ hmem)
        exact ⟨o₂, true, by simp [enqueue, hhead, hknown, hevent, ho₂, bind, Except.bind, pure, Except.pure]⟩

theorem covered_of_enqueue {descriptor : List (String × Json)} {b : Bool} {head : Head}
    (h : enqueue env o descriptor now = .ok (o', b)) (hhead : checkHead descriptor = .ok head)
    (hnew : o.knows head.event_id = false) : Covered env o' descriptor := by
  obtain ⟨head', hhead', ⟨hknown, -⟩ | ⟨-, infos, hinfos, hrows⟩⟩ := enqueue_rows h
  · rw [hhead] at hhead'
    cases hhead'
    rw [hnew] at hknown
    cases hknown
  · intro edges hedges e he
    rw [edges_of_infos hhead' hinfos] at hedges
    cases hedges
    rw [hrows, List.map_append, List.map_map]
    exact List.mem_append_right _ he

/-! ### Runs -/

/-- The records that a repair has passed; one that is over has passed all. -/
def Repair.passed : Repair → Nat
  | reading next => next
  | ended records => records

/-- Every valid descriptor of the first records has its rows. -/
def CoversFirst (env : Env) (w : World) (n : Nat) : Prop :=
  ∀ record ∈ w.journal.take n, ∀ d, recordDescriptor record = some d → Valid env d → Covered env w.outbox d

/-- Every repair has repaired the records it passed, and when it is over all. -/
def Repaired (env : Env) (w : World) : Prop := ∀ r ∈ w.repairs, CoversFirst env w r.passed

/-- A record with a descriptor: one that the outbox does not take leaves
nothing behind it to repair, and one of a known event has its rows. -/
def RecordRepairable (env : Env) (w : World) (next : Nat) : Prop :=
  ∀ record d, w.journal[next]? = some record → recordDescriptor record = some d →
    (¬ Accepts env w.outbox d → ∀ record' ∈ w.journal.drop next, ∀ d',
      recordDescriptor record' = some d' → Valid env d' → Covered env w.outbox d')
    ∧ (∀ head, checkHead d = .ok head → w.outbox.knows head.event_id = true → Valid env d →
      Covered env w.outbox d)

/-- The record that a repair is at is repairable. -/
def Repairable (w : World) : Action env → Prop
  | .reconcileNext r _ => ∀ next, w.repairs[r]? = some (.reading next) → RecordRepairable env w next
  | _ => True

/-- A repair is inside the journal. -/
def InJournal (w : World) : Prop := ∀ r ∈ w.repairs, r.passed ≤ w.journal.length

def edges (o : Outbox) : List (String × String) := o.deliveries.map DeliveryRow.edge

theorem Covered.mono {d : List (String × Json)} (h : Covered env o d) (hle : edges o ⊆ edges o') :
    Covered env o' d := fun es hes e he => hle (h es hes e he)

theorem Appended.edges (h : Appended o o') : edges o ⊆ Notifications.edges o' := by
  obtain ⟨rows, hrows⟩ := h
  unfold Notifications.edges
  rw [hrows, List.map_append]
  exact List.subset_append_left _ _

theorem edges_of_infos_kept {g : DeliveryRow → DeliveryRow} (hrows : o'.deliveries = o.deliveries.map g)
    (hg : ∀ row ∈ o.deliveries, (g row).info = row.info) : edges o ⊆ edges o' := by
  intro e he
  obtain ⟨row, hrow, rfl⟩ := List.mem_map.mp he
  refine List.mem_map.mpr ⟨g row, hrows ▸ List.mem_map_of_mem hrow, ?_⟩
  unfold DeliveryRow.edge
  rw [hg row hrow]

theorem edges_step {w : World} (h : Kept w.claims w.outbox) (a : Action env) :
    edges w.outbox ⊆ edges (w.step a).outbox := by
  cases a with
  | record event => simp only [World.step]; exact fun _ he => he
  | enqueue descriptor now =>
      simp only [World.step]
      split
      · rename_i henqueue
        exact (enqueue_appended henqueue).edges
      · exact fun _ he => he
  | startReconcile => simp only [World.step]; exact fun _ he => he
  | reconcileNext r now =>
      simp only [World.step]
      split
      · exact (reconcileRecord_kept h).2.edges
      · exact fun _ he => he
  | claim now =>
      obtain ⟨g, hrows, hg⟩ := @claimDue_rows env w.outbox now.1 w.claims.length
      have hle := edges_of_infos_kept hrows fun row hrow => (hg row hrow).info
      simp only [World.step]
      split
      · rename_i heq
        rw [heq] at hle
        exact hle
      · rename_i heq
        rw [heq] at hle
        exact hle
  | finish c answer sentAt committedAt =>
      simp only [World.step]
      split
      · rename_i d hd
        obtain ⟨g, hrows, hg⟩ := @finish_rows w.outbox committedAt.1 d.info.delivery_id
          d.lease_token (claimResult env d answer sentAt.1)
        exact edges_of_infos_kept hrows fun row _ => (hg row).1
      · exact fun _ he => he

theorem CoversFirst.mono {w w' : World} {n : Nat} (h : CoversFirst env w n)
    (hedges : edges w.outbox ⊆ edges w'.outbox) (hjournal : w.journal <+: w'.journal)
    (hn : n ≤ w.journal.length) : CoversFirst env w' n := by
  obtain ⟨more, hmore⟩ := hjournal
  intro record hrecord d hd hvalid
  rw [← hmore, List.take_append_of_le_length hn] at hrecord
  exact (h record hrecord d hd hvalid).mono hedges

theorem Repaired.mono {w w' : World} (h : Repaired env w) (hin : InJournal w)
    (hedges : edges w.outbox ⊆ edges w'.outbox) (hjournal : w.journal <+: w'.journal)
    (hrepairs : ∀ r ∈ w'.repairs, r ∈ w.repairs ∨ r = .reading 0) : Repaired env w' := by
  intro r hr
  rcases hrepairs r hr with hr | rfl
  · exact (h r hr).mono hedges hjournal (hin r hr)
  · intro record hrecord
    simp [Repair.passed] at hrecord

/-- After one record of a repair the first records are repaired exactly when
the record is repairable. -/
theorem coversFirst_record {w w' : World} {next : Nat} (now : ℚ) (hk : Kept w.claims w.outbox)
    (hpast : CoversFirst env w next) (hnext : next ≤ w.journal.length)
    (houtbox : w'.outbox = (reconcileRecord env w next now).1) (hjournal : w'.journal = w.journal) :
    CoversFirst env w' (reconcileRecord env w next now).2.passed ↔ RecordRepairable env w next := by
  have hmono := @CoversFirst.mono env w w' next hpast (houtbox ▸ (reconcileRecord_kept hk).2.edges)
    (hjournal ▸ List.prefix_rfl) hnext
  unfold RecordRepairable
  unfold reconcileRecord at houtbox ⊢
  cases hrecord : w.journal[next]? with
  | none =>
      have hlen : w.journal.length = next := Nat.le_antisymm (List.getElem?_eq_none_iff.mp hrecord) hnext
      refine ⟨fun _ record d h => (nomatch h), fun _ => ?_⟩
      simpa only [Repair.passed, hlen] using hmono
  | some record =>
      have htake : w'.journal.take (next + 1) = w'.journal.take next ++ [record] := by
        rw [hjournal, List.take_add_one, hrecord, Option.toList_some]
      -- one more record is covered when the first ones and it are
      have hone : CoversFirst env w' (next + 1)
          ↔ ∀ d, recordDescriptor record = some d → Valid env d → Covered env w'.outbox d := by
        constructor
        · exact fun h => h record (by rw [htake]; exact List.mem_append_right _ (List.mem_singleton_self _))
        · intro h record' hmem
          rw [htake, List.mem_append, List.mem_singleton] at hmem
          rcases hmem with hmem | rfl
          · exact hmono record' hmem
          · exact h
      simp only [hrecord] at houtbox ⊢
      cases hd : recordDescriptor record with
      | none =>
          simp only [Repair.passed]
          rw [hone, hd]
          refine ⟨fun _ record' d h hd' => ?_, fun _ d h => (nomatch h)⟩
          cases h
          rw [hd] at hd'
          cases hd'
      | some d =>
          simp only [hd] at houtbox ⊢
          cases henqueue : Notifications.enqueue env w.outbox d now with
          | ok result =>
              obtain ⟨o', b⟩ := result
              rw [henqueue] at houtbox
              have haccepts : Accepts env w.outbox d :=
                (enqueue_ok_iff hk.isNamed).mp ⟨o', b, henqueue⟩
              simp only [Repair.passed]
              rw [hone, hd]
              simp only at houtbox
              constructor
              · intro h record' d' hrec hd'
                cases hrec
                rw [hd] at hd'
                cases hd'
                refine ⟨fun hnot => absurd haccepts hnot, fun head hhead hknown hvalid => ?_⟩
                have hcovered := h d rfl hvalid
                obtain ⟨head', hhead', ⟨-, hsame⟩ | ⟨hunknown, -⟩⟩ := enqueue_rows henqueue
                · rwa [houtbox, hsame] at hcovered
                · rw [hhead] at hhead'
                  cases hhead'
                  rw [hknown] at hunknown
                  cases hunknown
              · intro h d' hd' hvalid
                cases hd'
                obtain ⟨head, hhead, ⟨hknown, hsame⟩ | ⟨hunknown, -⟩⟩ := enqueue_rows henqueue
                · rw [houtbox, hsame]
                  exact (h record d rfl hd).2 head hhead hknown hvalid
                · rw [houtbox]
                  exact covered_of_enqueue henqueue hhead hunknown
          | error exc =>
              rw [henqueue] at houtbox
              simp only at houtbox
              have hrefused : ¬ Accepts env w.outbox d := by
                intro haccepts
                obtain ⟨o', b, hok⟩ := (@enqueue_ok_iff env w.outbox now hk.isNamed _).mpr haccepts
                rw [henqueue] at hok
                cases hok
              simp only [Repair.passed]
              constructor
              · intro h record' d' hrec hd'
                cases hrec
                rw [hd] at hd'
                cases hd'
                have hall : ∀ record' ∈ w.journal.drop next, ∀ d', recordDescriptor record' = some d' →
                    Valid env d' → Covered env w.outbox d' := by
                  intro record' hmem d' hd' hvalid
                  rw [← houtbox]
                  refine h record' ?_ d' hd' hvalid
                  rw [hjournal, List.take_length]
                  exact List.mem_of_mem_drop hmem
                refine ⟨fun _ => hall, fun _ _ _ hvalid => ?_⟩
                refine hall record ?_ d hd hvalid
                exact List.mem_of_getElem? (i := 0) (by rw [List.getElem?_drop, Nat.add_zero, hrecord])
              · intro h record' hmem d' hd' hvalid
                rw [hjournal, List.take_length, ← List.take_append_drop next w.journal, List.mem_append] at hmem
                rw [houtbox]
                rcases hmem with hmem | hmem
                · exact hpast record' hmem d' hd' hvalid
                · exact (h record d rfl hd).1 hrefused record' hmem d' hd' hvalid

theorem repaired_step {w : World} (a : Action env) (hk : Kept w.claims w.outbox) (hin : InJournal w)
    (h : Repaired env w) : Repaired env (w.step a) ↔ Repairable w a := by
  have hedges := edges_step hk a
  cases a with
  | reconcileNext r now =>
      cases hr : w.repairs[r]? with
      | none =>
          have hsame : w.step (.reconcileNext r now) = w := by simp [World.step, hr]
          rw [hsame]
          refine ⟨fun _ next hr' => ?_, fun _ => h⟩
          rw [hr] at hr'
          cases hr'
      | some repair =>
          cases repair with
          | ended records =>
              have hsame : w.step (.reconcileNext r now) = w := by simp [World.step, hr]
              rw [hsame]
              refine ⟨fun _ next hr' => ?_, fun _ => h⟩
              rw [hr] at hr'
              cases hr'
          | reading next =>
              have hmem : Repair.reading next ∈ w.repairs := List.mem_of_getElem? hr
              obtain ⟨hlt, -⟩ := List.getElem?_eq_some_iff.mp hr
              have houtbox : (w.step (.reconcileNext r now)).outbox
                  = (reconcileRecord env w next now.1).1 := by simp [World.step, hr]
              have hjournal : (w.step (.reconcileNext r now)).journal = w.journal := by
                simp [World.step, hr]
              have hrepairs : (w.step (.reconcileNext r now)).repairs
                  = w.repairs.set r (reconcileRecord env w next now.1).2 := by
                simp [World.step, hr]
              have hrecord := @coversFirst_record env w _ next now.1 hk (h _ hmem) (hin _ hmem) houtbox hjournal
              have hcovers : Repaired env (w.step (.reconcileNext r now))
                  ↔ CoversFirst env (w.step (.reconcileNext r now))
                    (reconcileRecord env w next now.1).2.passed := by
                unfold Repaired
                rw [hrepairs]
                refine ⟨fun hall => hall _ (List.mem_set hlt _), fun hnew r' hr' => ?_⟩
                rcases List.mem_or_eq_of_mem_set hr' with hold | rfl
                · exact (h r' hold).mono hedges (hjournal ▸ List.prefix_rfl) (hin r' hold)
                · exact hnew
              rw [hcovers, hrecord]
              constructor
              · intro hall next' hr'
                rw [hr] at hr'
                cases hr'
                exact hall
              · exact fun hall => hall next hr
  | record event =>
      refine ⟨fun _ => trivial, fun _ => h.mono hin hedges ?_ ?_⟩
      · simp [World.step]
      · exact fun r hr => .inl (by simpa [World.step] using hr)
  | startReconcile =>
      refine ⟨fun _ => trivial, fun _ => h.mono hin hedges ?_ ?_⟩
      · simp [World.step]
      · exact fun r hr => by simpa [World.step] using hr
  | enqueue descriptor now =>
      refine ⟨fun _ => trivial, fun _ => h.mono hin hedges ?_ ?_⟩
      · simp only [World.step]
        split <;> exact List.prefix_rfl
      · simp only [World.step]
        split <;> exact fun r hr => .inl hr
  | claim now =>
      refine ⟨fun _ => trivial, fun _ => h.mono hin hedges ?_ ?_⟩
      · simp only [World.step]
        split <;> exact List.prefix_rfl
      · simp only [World.step]
        split <;> exact fun r hr => .inl hr
  | finish c answer sentAt committedAt =>
      refine ⟨fun _ => trivial, fun _ => h.mono hin hedges ?_ ?_⟩
      · simp only [World.step]
        split <;> exact List.prefix_rfl
      · simp only [World.step]
        split <;> exact fun r hr => .inl hr

theorem reconcileRecord_inside (w : World) (next : Nat) (now : ℚ) :
    (reconcileRecord env w next now).2.passed ≤ w.journal.length := by
  unfold reconcileRecord
  split
  · exact Nat.le_refl _
  · rename_i record hrecord
    obtain ⟨hlt, -⟩ := List.getElem?_eq_some_iff.mp hrecord
    split
    · exact hlt
    · split
      · exact hlt
      · exact Nat.le_refl _

theorem inJournal_step {w : World} (h : InJournal w) (a : Action env) : InJournal (w.step a) := by
  cases a with
  | record event =>
      intro r hr
      have hle := h r (by simpa [World.step] using hr)
      simp only [World.step, List.length_append]
      omega
  | startReconcile =>
      intro r hr
      simp only [World.step, List.mem_append, List.mem_singleton] at hr ⊢
      rcases hr with hr | rfl
      · exact h r hr
      · exact Nat.zero_le _
  | reconcileNext r now =>
      simp only [World.step]
      split
      · rename_i next _
        intro r' hr'
        rcases List.mem_or_eq_of_mem_set hr' with hold | rfl
        · exact h r' hold
        · exact reconcileRecord_inside w next now.1
      · exact h
  | enqueue descriptor now =>
      simp only [World.step]
      split <;> exact h
  | claim now =>
      simp only [World.step]
      split <;> exact h
  | finish c answer sentAt committedAt =>
      simp only [World.step]
      split <;> exact h

structure Holds (w : World) : Prop where
  kept : Kept w.claims w.outbox
  inside : InJournal w

theorem holds_start : Holds .start where
  kept := ⟨fun _ h => absurd h List.not_mem_nil, fun _ h => absurd h List.not_mem_nil⟩
  inside := fun _ h => absurd h List.not_mem_nil

theorem holds_step (w : World) (a : Action env) (h : Holds w) : Holds (w.step a) :=
  ⟨step_kept h.kept a, inJournal_step h.inside a⟩

/-- **Deliveries are unique, final and fenced in every run; a repair is
complete exactly in the runs where it meets no record that stops it too
early.** -/
theorem outbox_delivers (env : Env) (actions : List (Action env)) :
    (∀ k, StateOk ((actions.take k).foldl World.step .start))
    ∧ (∀ k a, actions[k]? = some a → StepOk ((actions.take k).foldl World.step .start) a)
    ∧ ((∀ k, Repaired env ((actions.take k).foldl World.step .start))
      ↔ RunOk World.step Repairable .start actions) := by
  have hall : ∀ k, Holds ((actions.take k).foldl World.step .start) := fun k =>
    invariant holds_step (actions.take k) holds_start
  refine ⟨fun k => stateOk (hall k).kept, fun k a _ => step_ok (hall k).kept a, ?_⟩
  exact @forall_states_iff _ _ _ _ Holds _ holds_step
    (fun w a h hrepaired => repaired_step a h.kept h.inside hrepaired) actions _ holds_start
    fun _ h => absurd h List.not_mem_nil

/-- An environment with exact arithmetic and nothing out of the ordinary. -/
def plainEnv : Env where
  arith := .exact
  floatValue _ := none
  floatOfInt n := some n
  validHttpsUrl _ := true
  retryAfterSeconds _ _ := none

/-- The record of a transition: its event and its destinations. -/
def transitionRecord (event_id : String) (destinations : List Json) : Json :=
  .obj [("payload", .obj [("notification", .obj [
    ("event", .obj [("event_id", .str event_id), ("type", .str "agent_failed"), ("session_id", .str "s")]),
    ("destinations", .arr destinations)])])]

def localDestination : Json := .obj [("name", .str "local"), ("kind", .str "local")]

def webhookDestination (n : Nat) : Json :=
  .obj [("name", .str (String.ofList (List.replicate (n + 1) 'w'))), ("kind", .str "webhook"),
    ("url", .str "https://hooks.example/agent"), ("secret_env", .str "AGENTHICC_WEBHOOK_A")]

/-- A run that uses all 64 webhooks and local notices too has 65 destinations,
which `enqueue` refuses; the transition recorded behind it is not repaired. -/
theorem not_repaired_many_destinations :
    ¬ Repaired plainEnv ([Action.record (transitionRecord "evt_1"
          (localDestination :: (List.range 64).map webhookDestination)),
        .record (transitionRecord "evt_2" [localDestination]), .startReconcile,
        .reconcileNext 0 ⟨0, rfl⟩].foldl (@World.step plainEnv) .start) := by
  intro h
  have hcovered := h (.ended 2) (by decide) (transitionRecord "evt_2" [localDestination])
    (by decide) _ rfl ⟨[("evt_2", "local")], by decide, by decide⟩
  have hmem := hcovered [("evt_2", "local")] (by decide) ("evt_2", "local") List.mem_cons_self
  exact absurd hmem (by decide)


end Agenthicc.Background.Notifications
