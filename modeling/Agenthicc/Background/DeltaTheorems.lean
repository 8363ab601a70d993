/-
Agenthicc.Background.DeltaTheorems — what an `update` or a `transition`
returned, and what the event it wrote replays to.

An `updated` event holds the fields that changed and is replayed by `evolve`.
`replay_evolve` says when that gives the new record back: when its histories
are normal. Here that is traced to the call. `evolve` keeps the attempts and
priority changes that it is given as objects as they are, and `transition`
hands it one, the summary of the attempt that ends, which it makes before
`update` cuts the texts in it. `Call.Fits` is the condition that every such
object is within the bounds that replay puts on it.
-/
import Agenthicc.Background.ModelTheorems
import Agenthicc.Library.Runs
import Agenthicc.Python.JsonTheorems

namespace Agenthicc.Background

open Python

/-! ## 1. The objects in an argument -/

/-- An object within the bounds of `from_mapping`; a mapping has none, since
it is read by it. -/
def Item.Fits : Item → Prop
  | .json _ => True
  | .attempt a => a.Normal
  | .change c => c.Normal

/-- The element stands for an attempt. -/
def Item.isAttempt : Item → Bool
  | .attempt _ | .json (.obj _) => true
  | _ => false

/-- The element stands for a priority change. -/
def Item.isChange : Item → Bool
  | .change _ | .json (.obj _) => true
  | _ => false

/-- The attempts that `evolve` keeps of an argument are within bounds. -/
def Arg.AttemptsFit (v : Arg) : Prop :=
  ∀ x ∈ lastN ATTEMPT_HISTORY_LIMIT ((v.items?.getD []).filter Item.isAttempt), x.Fits

/-- The priority changes that `evolve` keeps of an argument are within
bounds. -/
def Arg.ChangesFit (v : Arg) : Prop :=
  ∀ x ∈ lastN 32 ((v.items?.getD []).filter Item.isChange), x.Fits

theorem forall₂_lastN {α β : Type} {R : α → β → Prop} {xs : List α} {ys : List β} (n : Nat)
    (h : List.Forall₂ R xs ys) : List.Forall₂ R (lastN n xs) (lastN n ys) := by
  rw [lastN, lastN, h.length_eq]
  exact List.forall₂_drop _ h

/-- Corresponding elements have a property together, so all of them have. -/
theorem forall_iff_of_forall₂ {α β : Type} {R : α → β → Prop} {P : α → Prop} {Q : β → Prop}
    (hPQ : ∀ x y, R x y → (P x ↔ Q y)) : ∀ {xs : List α} {ys : List β}, List.Forall₂ R xs ys →
    ((∀ x ∈ xs, P x) ↔ ∀ y ∈ ys, Q y)
  | [], [], _ => by simp
  | x :: xs, y :: ys, .cons hxy hrest => by
      rw [List.forall_mem_cons, List.forall_mem_cons, hPQ x y hxy,
        forall_iff_of_forall₂ hPQ hrest]

/-- The elements that are read as records, beside what they are read as. -/
theorem mapM_records {α : Type} {f : Item → Option (Option α)} {isRecord : Item → Bool}
    (hf : ∀ x y, f x = some y → (isRecord x = true ↔ y.isSome = true)) :
    ∀ {items : List Item} {ys : List (Option α)}, items.mapM f = some ys →
    List.Forall₂ (fun x a => f x = some (some a)) (items.filter isRecord) (ys.filterMap id)
  | [], ys, h => by
      simp only [List.mapM_nil, Option.pure_def, Option.some.injEq] at h
      subst h
      exact .nil
  | x :: items, ys, h => by
      simp only [List.mapM_cons, Option.bind_eq_bind, Option.bind_eq_some_iff, Option.pure_def,
        Option.some.injEq] at h
      obtain ⟨y, hy, zs, hzs, rfl⟩ := h
      have ih := mapM_records hf hzs
      have hx := hf x y hy
      cases y with
      | none =>
        rw [List.filter_cons_of_neg (by simpa using hx)]
        exact ih
      | some a =>
        rw [List.filter_cons_of_pos (by simpa using hx)]
        exact .cons hy ih

theorem Item.isAttempt_iff {py : Interp} {x : Item} {y : Option BackgroundAttempt}
    (h : x.attempt? py = some y) : x.isAttempt = true ↔ y.isSome = true := by
  cases x with
  | attempt a =>
    obtain rfl := Option.some.inj h
    simp [isAttempt]
  | change c =>
    obtain rfl := Option.some.inj h
    simp [isAttempt]
  | json v =>
    cases v with
    | obj kvs =>
      obtain ⟨a, -, rfl⟩ := Option.map_eq_some_iff.mp h
      simp [isAttempt]
    | _ => simp_all [attempt?, isAttempt]

theorem Item.isChange_iff {py : Interp} {x : Item} {y : Option PriorityChange}
    (h : x.change? py = some y) : x.isChange = true ↔ y.isSome = true := by
  cases x with
  | attempt a =>
    obtain rfl := Option.some.inj h
    simp [isChange]
  | change c =>
    obtain rfl := Option.some.inj h
    simp [isChange]
  | json v =>
    cases v with
    | obj kvs =>
      obtain ⟨c, -, rfl⟩ := Option.map_eq_some_iff.mp h
      simp [isChange]
    | _ => simp_all [change?, isChange]

/-- An element fits exactly when the attempt it is read as is normal. -/
theorem Item.fits_iff_attempt {py : Interp} {x : Item} {a : BackgroundAttempt}
    (h : x.attempt? py = some (some a)) : x.Fits ↔ a.Normal := by
  cases x with
  | attempt b =>
    simp only [attempt?, Option.some.injEq] at h
    rw [Fits, h]
  | change c => simp [attempt?] at h
  | json v =>
    cases v with
    | obj kvs =>
      obtain ⟨b, hb, he⟩ := Option.map_eq_some_iff.mp h
      simp only [Option.some.injEq] at he
      subst he
      exact iff_of_true trivial (BackgroundAttempt.fromMapping_normal hb)
    | _ => simp [attempt?] at h

theorem Item.fits_iff_change {py : Interp} {x : Item} {c : PriorityChange}
    (h : x.change? py = some (some c)) : x.Fits ↔ c.Normal := by
  cases x with
  | change d =>
    simp only [change?, Option.some.injEq] at h
    rw [Fits, h]
  | attempt a => simp [change?] at h
  | json v =>
    cases v with
    | obj kvs =>
      obtain ⟨d, hd, he⟩ := Option.map_eq_some_iff.mp h
      simp only [Option.some.injEq] at he
      subst he
      exact iff_of_true trivial (PriorityChange.fromMapping_normal hd)
    | _ => simp [change?] at h

namespace BackgroundSession

/-- What a call gives for the histories is within bounds. -/
structure HistoriesFit (changes : String → Option Arg) : Prop where
  attempts : ∀ v, changes "attempt_history" = some v → v.AttemptsFit
  priorities : ∀ v, changes "priority_history" = some v → v.ChangesFit

theorem attempts_iff {py : Interp} {s t : BackgroundSession} {changes : String → Option Arg}
    (hs : s.Normal) (h : s.evolve py changes = some t) :
    (∀ a ∈ t.attempt_history, a.Normal)
      ↔ ∀ v, changes "attempt_history" = some v → v.AttemptsFit := by
  have hv := evolve_value h (f := .attempt_history) (by decide) (by decide)
  change FieldKind.evolved py .attempts s.attempt_history (changes "attempt_history")
    = some t.attempt_history at hv
  cases hc : changes "attempt_history" with
  | none =>
    rw [hc] at hv
    have heq : lastN ATTEMPT_HISTORY_LIMIT s.attempt_history = t.attempt_history :=
      Option.some.inj hv
    rw [← heq]
    exact iff_of_true (fun a ha => hs.histories.attempts a (mem_of_mem_lastN ha)) (by simp)
  | some v =>
    rw [hc] at hv
    obtain ⟨ys, hys, heq⟩ := Option.map_eq_some_iff.mp hv
    have hrel := forall₂_lastN ATTEMPT_HISTORY_LIMIT
      (mapM_records (fun _ _ => Item.isAttempt_iff) hys)
    rw [← heq, ← forall_iff_of_forall₂ (fun _ _ h => Item.fits_iff_attempt h) hrel]
    simp [Arg.AttemptsFit]

theorem priorities_iff {py : Interp} {s t : BackgroundSession} {changes : String → Option Arg}
    (hs : s.Normal) (h : s.evolve py changes = some t) :
    (∀ c ∈ t.priority_history, c.Normal)
      ↔ ∀ v, changes "priority_history" = some v → v.ChangesFit := by
  have hv := evolve_value h (f := .priority_history) (by decide) (by decide)
  change FieldKind.evolved py .priorityChanges s.priority_history (changes "priority_history")
    = some t.priority_history at hv
  cases hc : changes "priority_history" with
  | none =>
    rw [hc] at hv
    have heq : lastN 32 s.priority_history = t.priority_history := Option.some.inj hv
    rw [← heq]
    exact iff_of_true (fun c hc => hs.histories.priorities c (mem_of_mem_lastN hc)) (by simp)
  | some v =>
    rw [hc] at hv
    obtain ⟨ys, hys, heq⟩ := Option.map_eq_some_iff.mp hv
    have hrel := forall₂_lastN 32 (mapM_records (fun _ _ => Item.isChange_iff) hys)
    rw [← heq, ← forall_iff_of_forall₂ (fun _ _ h => Item.fits_iff_change h) hrel]
    simp [Arg.ChangesFit]

/-- **Whose histories are normal**: those of a record evolved by arguments
that fit. -/
theorem histories_iff {py : Interp} {s t : BackgroundSession} {changes : String → Option Arg}
    (hs : s.Normal) (h : s.evolve py changes = some t) :
    t.NormalHistories ↔ HistoriesFit changes := by
  constructor
  · intro ht
    exact ⟨(attempts_iff hs h).mp ht.attempts, (priorities_iff hs h).mp ht.priorities⟩
  · intro hc
    exact ⟨(attempts_iff hs h).mpr hc.attempts, (priorities_iff hs h).mpr hc.priorities⟩

theorem historiesFit_jsonChanges (kvs : List (String × Json)) : HistoriesFit (jsonChanges kvs) := by
  have hfits : ∀ (j : Json) (p : Item → Bool) (n : Nat),
      ∀ x ∈ lastN n (((Arg.json j).items?.getD []).filter p), x.Fits := by
    intro j p n x hx
    have hmem := List.mem_of_mem_filter (mem_of_mem_lastN hx)
    cases j with
    | arr items =>
      obtain ⟨v, -, rfl⟩ := List.mem_map.mp hmem
      trivial
    | _ => cases hmem
  constructor <;> intro v hv <;> obtain ⟨j, -, rfl⟩ := Option.map_eq_some_iff.mp hv <;>
    exact hfits j _ _

end BackgroundSession

/-! ## 2. Reachable records -/

open BackgroundSession

theorem set_normal {s : BackgroundSession} (hs : s.Normal) {f : Field} {x : f.kind.Value}
    (hx : f.kind.Normal x) (hname : f ≠ .mode_name) (hstatus : f ≠ .mode_application_status) :
    (s.set f x).Normal := by
  refine ⟨hs.session_id, fun g => ?_, ?_⟩
  · by_cases hg : g = f
    · subst hg
      rw [set_value_self]
      exact hx
    · rw [set_value_ne s x hg]
      exact hs.value g
  · rw [mode_name, mode_application_status, set_value_ne s x (Ne.symm hname),
      set_value_ne s x (Ne.symm hstatus)]
    exact hs.coupled

/-- The arguments of a `priority_changed` event fit. -/
theorem historiesFit_priority {s : BackgroundSession} {change : PriorityChange} (hs : s.Normal)
    (hchange : change.Normal) {value : Arg} :
    HistoriesFit fun name =>
      if name = "priority" then some value
      else if name = "priority_history" then
        some (.items ((lastN 32 (s.priority_history ++ [change])).map .change))
      else none := by
  constructor
  · intro v hv
    simp at hv
  · intro v hv
    simp only [String.reduceEq, if_false, if_true, Option.some.injEq] at hv
    subst hv
    intro x hx
    obtain ⟨c, hc, rfl⟩ := List.mem_map.mp (List.mem_of_mem_filter (mem_of_mem_lastN hx))
    rcases List.mem_append.mp (mem_of_mem_lastN hc) with hc | hc
    · exact hs.histories.priorities c hc
    · rw [List.mem_singleton.mp hc]
      exact hchange

/-- **Events keep records normal.** -/
theorem applyEvent_normal {py : Interp} {now : PyFloat} {found : Option BackgroundSession}
    {event : Json} {t : BackgroundSession} (hfound : ∀ s, found = some s → s.Normal)
    (h : applyEvent py now found event = some t) : t.Normal := by
  have hjson : ∀ (s : BackgroundSession) (kvs : List (String × Json)), s.Normal →
      s.evolve py (jsonChanges kvs) = some t → t.Normal := by
    intro s kvs hs he
    exact evolve_normal hs he ((histories_iff hs he).mpr (historiesFit_jsonChanges kvs))
  unfold applyEvent at h
  dsimp only at h
  split at h
  · exact fromMapping_normal h
  cases found with
  | none => cases h
  | some s =>
    have hs := hfound s rfl
    dsimp only at h
    split at h
    · split at h
      · split at h
        · obtain rfl := Option.some.inj h
          exact set_normal hs trivial (by decide) (by decide)
        · cases h
      · exact hjson s _ hs h
    · split at h
      · split at h
        · exact hjson s _ hs h
        · cases h
      · split at h
        · split at h
          · split at h
            · rename_i change hchange
              have hnormal := PriorityChange.fromMapping_normal hchange
              exact evolve_normal hs h ((histories_iff hs h).mpr (historiesFit_priority hs hnormal))
            · cases h
          · cases h
        · cases h

/-- The records of a registry: normal, each under its own ID. -/
def Keyed (records : Dict String BackgroundSession) : Prop :=
  ∀ id r, records.get? id = some r → r.Normal ∧ r.session_id = id

theorem applyEvent_session_id {py : Interp} {now : PyFloat} {found : Option BackgroundSession}
    {event : Json} {t : BackgroundSession}
    (hfound : ∀ s, found = some s → s.session_id = eventSessionId event)
    (h : applyEvent py now found event = some t) : t.session_id = eventSessionId event := by
  unfold applyEvent at h
  dsimp only at h
  split at h
  · -- a creation takes the ID of its payload
    unfold fromMapping at h
    split at h
    · rename_i session_id hid
      split at h
      · cases h
      · obtain ⟨value, -, rfl⟩ := Option.map_eq_some_iff.mp h
        rw [eventSessionId, hid]
    · cases h
  cases found with
  | none => cases h
  | some s =>
    have hs := hfound s rfl
    dsimp only at h
    split at h
    · split at h
      · split at h
        · obtain rfl := Option.some.inj h
          exact hs
        · cases h
      · exact (evolve_session_id h).trans hs
    · split at h
      · split at h
        · exact (evolve_session_id h).trans hs
        · cases h
      · split at h
        · split at h
          · split at h
            · exact (evolve_session_id h).trans hs
            · cases h
          · cases h
        · cases h

theorem foldEvent_keyed (py : Interp) (now : PyFloat) {records : Dict String BackgroundSession}
    (h : Keyed records) (event : Json) : Keyed (foldEvent py now records event) := by
  unfold foldEvent
  split
  · exact h
  · split
    · rename_i updated hupdated
      intro id r hr
      rw [Dict.get?_set] at hr
      split at hr
      · rename_i hid
        obtain rfl := Option.some.inj hr
        exact ⟨applyEvent_normal (fun s hs => (h _ s hs).1) hupdated,
          (applyEvent_session_id (fun s hs => (h _ s hs).2) hupdated).trans hid⟩
      · exact h id r hr
    · exact h

theorem foldEvents_keyed (py : Interp) (now : PyFloat) {records : Dict String BackgroundSession}
    (h : Keyed records) (events : List Json) : Keyed (foldEvents py now records events) := by
  have hstep : ∀ r event, Keyed r → Keyed (foldEvent py now r event) :=
    fun _ event hr => foldEvent_keyed py now hr event
  exact Runs.invariant hstep events h

theorem keyed_empty : Keyed .empty := by
  intro id r h
  cases h

/-- A record that the registry has after some log. -/
def Reachable (py : Interp) (session_id : String) (s : BackgroundSession) : Prop :=
  ∃ now events, (foldEvents py now .empty events).get? session_id = some s

theorem Reachable.normal {py : Interp} {session_id : String} {s : BackgroundSession}
    (h : Reachable py session_id s) : s.Normal ∧ s.session_id = session_id := by
  obtain ⟨now, events, hs⟩ := h
  exact foldEvents_keyed py now keyed_empty events session_id s hs

/-! ## 3. One update -/

/-- Without a recorded change a field is the same as it was. -/
theorem numEq_of_recorded {s t : BackgroundSession} {f : Field} (h : recorded s t f = none) :
    f.kind.numEq (s.value f) (t.value f) = true := by
  unfold recorded at h
  split at h
  · cases h
  · split at h
    · cases h
    · split at h
      · assumption
      · cases h

/-- An update that records its activity alone changed nothing else. -/
theorem recorded_of_onlyKey {s t : BackgroundSession}
    (h : onlyKey "last_active" (changedFields s t).items = true) {f : Field}
    (hf : f ≠ .last_active) : recorded s t f = none := by
  rw [onlyKey, Bool.and_eq_true] at h
  rw [← changedFields_get?, Dict.get?, assocGet_eq_none]
  intro hmem
  obtain ⟨p, hp, hname⟩ := List.mem_map.mp hmem
  have hkey := List.all_eq_true.mp h.2 p hp
  rw [decide_eq_true_eq] at hkey
  exact hf (Field.name_injective (hname.symm.trans hkey))

theorem lookup_last_active (s t : BackgroundSession) :
    Json.lookup "last_active" (changedFields s t).items = some (.float t.last_active) := by
  have h := changedFields_get? s t .last_active
  rw [lookup_items]
  exact h

/-- The event that an update appends. -/
def updatedEvent (seq : Int) (timestamp : PyFloat) (session_id : String)
    (s t : BackgroundSession) : Json :=
  eventRecord seq timestamp ⟨"updated", updatedPayload session_id s t⟩

theorem applyEvent_updatedEvent (py : Interp) (now : PyFloat) (seq : Int) (session_id : String)
    (s t : BackgroundSession) :
    applyEvent py now (some s) (updatedEvent seq now session_id s t)
      = if onlyKey "last_active" (changedFields s t).items then
          some (s.withLastActive t.last_active)
        else s.evolve py (jsonChanges (changedFields s t).items) := by
  have hpayload : payloadOf (updatedEvent seq now session_id s t)
      = updatedPayload session_id s t := rfl
  have hchanges : Json.lookup "changes" (updatedPayload session_id s t)
      = some (.obj (changedFields s t).items) := by
    rw [updatedPayload]
    split <;> simp [Json.lookup]
  have htype : (updatedEvent seq now session_id s t).get "event_type" = .str "updated" := rfl
  simp only [applyEvent, hpayload, hchanges, htype, Option.getD_some, mappingOf,
    lookup_last_active, asFloat]
  simp

/-- What the fields of a record are read back as after an update. -/
theorem later_fields (py : Interp) (now : PyFloat) (seq : Int) (session_id : String)
    {s t : BackgroundSession} (hs : s.Normal) (hid : t.session_id = s.session_id)
    (ht : ∀ f : Field, f.kind.Evolved (t.value f))
    (hcoupled : Coupled (t.mode_name, t.mode_application_status)) :
    ∃ g, recordAfter py now (some s) (updatedEvent seq now session_id s t) = some g
      ∧ g.session_id = t.session_id
      ∧ ∀ f : Field, f.kind.same (g.value f) (t.value f) = true
        ↔ f.kind.NormalHistory (t.value f) := by
  rw [recordAfter, applyEvent_updatedEvent]
  split
  · rename_i honly
    refine ⟨s.withLastActive t.last_active, rfl, hid.symm, fun f => ?_⟩
    by_cases hf : f = .last_active
    · subst hf
      rw [withLastActive, set_value_self]
      exact iff_of_true (FieldKind.same_refl .float t.last_active) trivial
    · have hsame := FieldKind.same_of_numEq (numEq_of_recorded (recorded_of_onlyKey honly hf))
      rw [withLastActive, set_value_ne s _ hf]
      exact iff_of_true hsame (FieldKind.NormalHistory.of_same hsame (hs.histories.value f))
  · obtain ⟨g, hg, hrest⟩ := replay_fields py hs hid ht hcoupled
    exact ⟨g, by rw [hg]; rfl, hrest⟩

/-- **One update**: what the log replays it to is what it returned, exactly
when the histories it returned are normal. -/
theorem later_get (py : Interp) (now : PyFloat) (seq : Int) (session_id : String)
    {s t : BackgroundSession} (hs : s.Normal) (hid : t.session_id = s.session_id)
    (ht : ∀ f : Field, f.kind.Evolved (t.value f))
    (hcoupled : Coupled (t.mode_name, t.mode_application_status)) :
    ∃ g, recordAfter py now (some s) (updatedEvent seq now session_id s t) = some g
      ∧ (g.Same t ↔ t.NormalHistories) := by
  obtain ⟨g, hg, hgid, hfield⟩ := later_fields py now seq session_id hs hid ht hcoupled
  exact ⟨g, hg, same_iff_normalHistories hgid hfield⟩

/-! ## 4. Calls -/

/-- The text that a call leaves in a field: the one it gives, or the one that
is there. -/
def textAfter (current : String) : Option Arg → String
  | some (.json (.str s)) => s
  | _ => current

def optTextAfter (current : Option String) : Option Arg → Option String
  | some (.json (.str s)) => some s
  | some (.json .null) => none
  | _ => current

/-- The texts that the summary of an attempt takes from the session are within
the bounds of an attempt. -/
structure SnapshotFits (s : BackgroundSession) (changes : String → Option Arg) : Prop where
  error : ∀ text, optTextAfter s.error (changes "error") = some text → text.length ≤ 2000
  failure_category :
    (textAfter s.failure_category (changes "failure_category")).length ≤ 128
  exit_reason :
    (if textAfter s.exit_reason (changes "exit_reason") = "" then
      textAfter s.worker_exit_reason (changes "worker_exit_reason")
    else textAfter s.exit_reason (changes "exit_reason")).length ≤ 128
  latest_activity :
    (textAfter s.latest_activity (changes "latest_activity")).length ≤ 512

/-- A call of `update` or `transition`. -/
inductive Call where
  | update (expected : Expected) (changes : Dict String Arg)
  | transition (target : SessionStatus) (expected : Expected) (changes : Dict String Arg)

def Call.prog (py : Interp) (clock : Nat → PyFloat) (session_id : String) :
    Call → Prog BackgroundSession
  | .update expected changes => Background.update expected changes
  | .transition target expected changes =>
      Background.transition py clock session_id target expected changes

/-- The attempts and priority changes that a call hands over as objects are
within the bounds that replay puts on them. -/
def Call.Fits (s : BackgroundSession) : Call → Prop
  | .update _ changes => HistoriesFit changes.get?
  | .transition target _ changes =>
      if s.status = target then HistoriesFit changes.get?
      else
        (∀ v, changes.get? "priority_history" = some v → v.ChangesFit) ∧
          if target ∈ ENDED_STATUSES ∧ unarchived s then SnapshotFits s changes.get?
          else if target ∈ [SessionStatus.starting, .retrying]
              ∧ s.status ∈ .archived :: ENDED_STATUSES ∧ unarchived s then
            SnapshotFits s fun _ => none
          else ∀ v, changes.get? "attempt_history" = some v → v.AttemptsFit

/-- The record that a call returned is the one that replaying its delta
gives, from the JSON text of the delta. -/
def Replays (py : Interp) (s r : BackgroundSession) : Prop :=
  ∃ changes u, loads (compactDumps (.obj (changedFields s r).items)) = some (.obj changes)
    ∧ s.evolve py (jsonChanges changes) = some u ∧ u.Same r

/-- A call on the record `s`, and what a later `get` reads. -/
def Agrees (py : Interp) (s r : BackgroundSession) (record : Option BackgroundSession) : Prop :=
  Replays py s r ∧ ∃ g, record = some g ∧ g.Same r

theorem truncated_get?_ne {name other : String} (limit : Nat) (changes : Dict String Arg)
    (h : name ≠ other) : (truncated name limit changes).get? other = changes.get? other := by
  unfold truncated
  split
  · exact Dict.get?_set_ne changes _ h
  · rfl

/-- `update` fills in and cuts four fields only. -/
theorem prepared_get? (clock : Nat → PyFloat) (s : BackgroundSession) (changes : Dict String Arg)
    {name : String} (h : name ∉ ["state_changed_at", "latest_activity", "error", "last_active"]) :
    (prepared clock s changes).get? name = changes.get? name := by
  simp only [List.mem_cons, List.not_mem_nil, or_false, not_or] at h
  obtain ⟨h1, h2, h3, h4⟩ := h
  unfold prepared
  dsimp only
  rw [Dict.get?_setdefault_ne _ _ (Ne.symm h4), truncated_get?_ne _ _ (Ne.symm h3),
    truncated_get?_ne _ _ (Ne.symm h2)]
  split
  · split
    · rfl
    · exact Dict.get?_setdefault_ne _ _ (Ne.symm h1)
  · rfl

theorem historiesFit_prepared (clock : Nat → PyFloat) (s : BackgroundSession)
    (changes : Dict String Arg) :
    HistoriesFit (prepared clock s changes).get? ↔ HistoriesFit changes.get? := by
  have h1 : (prepared clock s changes).get? "attempt_history" = changes.get? "attempt_history" :=
    prepared_get? clock s changes (by decide)
  have h2 : (prepared clock s changes).get? "priority_history" = changes.get? "priority_history" :=
    prepared_get? clock s changes (by decide)
  constructor
  · intro h
    exact ⟨h1 ▸ h.attempts, h2 ▸ h.priorities⟩
  · intro h
    exact ⟨h1.symm ▸ h.attempts, h2.symm ▸ h.priorities⟩

/-- An update that went through evolved the record it found. -/
theorem updateRecord_ok {py : Interp} {clock : Nat → PyFloat} {expected : Expected}
    {changes : Dict String Arg} {s t : BackgroundSession}
    (h : updateRecord py clock expected changes s = .ok t) :
    s.evolve py (prepared clock s changes).get? = some t := by
  unfold updateRecord at h
  split at h
  · cases h
  · split at h
    · cases h
    · split at h
      · cases h
      · split at h
        · rename_i updated hupdated
          cases h
          exact hupdated
        · cases h

theorem update_alone {py : Interp} {clock : Nat → PyFloat} {seq : Int} {session_id : String}
    {s r : BackgroundSession} {record : Option BackgroundSession} {expected : Expected}
    {changes : Dict String Arg}
    (h : (update expected changes).alone py clock seq session_id (some s) = (.ok r, record)) :
    updateRecord py clock expected changes s = .ok r
      ∧ record = recordAfter py (clock 6) (some s) (updatedEvent seq (clock 6) session_id s r) := by
  simp only [update, Prog.atomically, Prog.alone, Section.perform, Section.run, withFound] at h
  cases hu : updateRecord py clock expected changes s with
  | error exc => simp [hu] at h
  | ok t =>
    simp only [hu, Option.some_or, Option.elim, Prod.mk.injEq, Except.ok.injEq] at h
    obtain ⟨rfl, hrecord⟩ := h
    exact ⟨rfl, hrecord.symm⟩

/-- **An update**: it agrees with its replay exactly when the histories it
was given fit. -/
theorem update_agrees {py : Interp} {clock : Nat → PyFloat} {seq : Int} {session_id : String}
    {s r : BackgroundSession} {record : Option BackgroundSession} {expected : Expected}
    {changes : Dict String Arg} (hs : s.Normal)
    (h : (update expected changes).alone py clock seq session_id (some s) = (.ok r, record)) :
    Agrees py s r record ↔ HistoriesFit changes.get? := by
  obtain ⟨hu, hrecord⟩ := update_alone h
  have hevolve := updateRecord_ok hu
  have hid := evolve_session_id hevolve
  have hr := evolve_evolved hs hevolve
  have hcoupled := evolve_coupled hevolve
  rw [← historiesFit_prepared clock s changes, ← histories_iff hs hevolve]
  obtain ⟨u, hu, hsame⟩ := replay_evolve py hs hid hr hcoupled
  obtain ⟨g, hg, hgsame⟩ :=
    later_get py (clock 6) seq session_id hs hid hr hcoupled
  constructor
  · rintro ⟨⟨decoded, u', hdecoded, hu', hsame'⟩, -⟩
    rw [loads_compactDumps, Option.some.injEq, Json.obj.injEq] at hdecoded
    subst hdecoded
    rw [hu, Option.some.injEq] at hu'
    exact hsame.mp (hu' ▸ hsame')
  · intro hr
    exact ⟨⟨_, u, loads_compactDumps _, hu, hsame.mpr hr⟩, g, hrecord.trans hg, hgsame.mpr hr⟩

/-! ## 5. Transitions -/

theorem transition_alone {py : Interp} {clock : Nat → PyFloat} {seq : Int} {session_id : String}
    {s r : BackgroundSession} {record : Option BackgroundSession} {target : SessionStatus}
    {expected : Expected} {changes : Dict String Arg}
    (h : (transition py clock session_id target expected changes).alone py clock seq session_id
      (some s) = (.ok r, record)) :
    s.status = target
        ∧ (update expected changes).alone py clock seq session_id (some s) = (.ok r, record)
      ∨ s.status ≠ target ∧ ∃ passed, transitionChanges py clock s target changes = .ok passed
        ∧ (update expected passed).alone py clock seq session_id (some s) = (.ok r, record) := by
  simp only [transition, Prog.lookup, Bind.bind, Prog.bind, Prog.alone, Bool.true_eq_false,
    and_false, if_false] at h
  split at h
  · rename_i heq
    exact Or.inl ⟨heq, h⟩
  · rename_i hne
    split at h
    · simp [Prog.alone] at h
    · split at h
      · simp [Prog.alone] at h
      · split at h
        · rename_i passed hpassed
          exact Or.inr ⟨hne, passed, hpassed, h⟩
        · simp [Prog.alone] at h

theorem evolved_str {py : Interp} {dflt cur : String} {v : Option Arg} :
    FieldKind.evolved py (.str dflt) cur v = some (textAfter cur v) := by
  cases v with
  | none => rfl
  | some v =>
    cases v with
    | items xs => rfl
    | json v => cases v <;> rfl

theorem evolved_optStr {py : Interp} {cur : Option String} {v : Option Arg} :
    FieldKind.evolved py .optStr cur v = some (optTextAfter cur v) := by
  cases v with
  | none => rfl
  | some v =>
    cases v with
    | items xs => rfl
    | json v => cases v <;> rfl

/-- **The summary of an attempt** is within bounds exactly when the texts it
takes from the session are. -/
theorem fromSession_normal {py : Interp} {s u : BackgroundSession} {changes : String → Option Arg}
    (hs : s.Normal) (h : s.evolve py changes = some u) :
    (BackgroundAttempt.fromSession u).Normal ↔ SnapshotFits s changes := by
  have hevolved := evolve_evolved hs h
  have herror : optTextAfter s.error (changes "error") = u.error := Option.some.inj
    (evolved_optStr.symm.trans (evolve_value h (f := .error) (by decide) (by decide)))
  have hcategory : textAfter s.failure_category (changes "failure_category")
      = u.failure_category := Option.some.inj
    (evolved_str.symm.trans (evolve_value h (f := .failure_category) (by decide) (by decide)))
  have hexit : textAfter s.exit_reason (changes "exit_reason") = u.exit_reason := Option.some.inj
    (evolved_str.symm.trans (evolve_value h (f := .exit_reason) (by decide) (by decide)))
  have hworker : textAfter s.worker_exit_reason (changes "worker_exit_reason")
      = u.worker_exit_reason := Option.some.inj
    (evolved_str.symm.trans (evolve_value h (f := .worker_exit_reason) (by decide) (by decide)))
  have hactivity : textAfter s.latest_activity (changes "latest_activity")
      = u.latest_activity := Option.some.inj
    (evolved_str.symm.trans (evolve_value h (f := .latest_activity) (by decide) (by decide)))
  constructor
  · intro hn
    exact {
      error := fun text ht => hn.error text (herror.symm.trans ht)
      failure_category := hcategory ▸ hn.failure_category
      exit_reason := by
        rw [hexit, hworker]
        exact hn.exit_reason
      latest_activity := hactivity ▸ hn.latest_activity }
  · intro hf
    exact {
      error := fun text ht => hf.error text (herror.trans ht)
      failure_category := by
        have hbound := hf.failure_category
        rw [hcategory] at hbound
        exact hbound
      exit_reason := by
        have hbound := hf.exit_reason
        rw [hexit, hworker] at hbound
        exact hbound
      latest_activity := by
        have hbound := hf.latest_activity
        rw [hactivity] at hbound
        exact hbound
      requested_mode_name := hevolved .requested_mode_name
      mode_name := hevolved .mode_name
      coupled := evolve_coupled h
      mode_application_error := hevolved .mode_application_error }

theorem fromSession_normal_self {s : BackgroundSession} (hs : s.Normal) :
    (BackgroundAttempt.fromSession s).Normal ↔ SnapshotFits s fun _ => none := by
  constructor
  · intro hn
    exact ⟨hn.error, hn.failure_category, hn.exit_reason, hn.latest_activity⟩
  · intro hf
    exact {
      error := hf.error
      failure_category := hf.failure_category
      exit_reason := hf.exit_reason
      latest_activity := hf.latest_activity
      requested_mode_name := hs.value .requested_mode_name
      mode_name := hs.value .mode_name
      coupled := hs.coupled
      mode_application_error := hs.value .mode_application_error }

/-- A history that gains a summary fits exactly when the summary does. -/
theorem attemptsFit_historyArg {s : BackgroundSession} (hs : s.Normal)
    {snapshot : BackgroundAttempt} :
    (historyArg s snapshot).AttemptsFit ↔ snapshot.Normal := by
  have hitems : ((historyArg s snapshot).items?.getD []).filter Item.isAttempt
      = (lastN ATTEMPT_HISTORY_LIMIT (s.attempt_history ++ [snapshot])).map .attempt := by
    refine List.filter_eq_self.mpr fun x hx => ?_
    obtain ⟨a, -, rfl⟩ := List.mem_map.mp hx
    rfl
  rw [Arg.AttemptsFit, hitems, lastN_eq_self (by simpa using length_lastN _ _)]
  constructor
  · intro h
    refine h (.attempt snapshot) (List.mem_map.mpr ⟨snapshot, ?_, rfl⟩)
    rw [lastN, List.length_append, List.length_singleton, List.drop_append_of_le_length (by
      rw [ATTEMPT_HISTORY_LIMIT]; omega)]
    simp
  · intro h x hx
    obtain ⟨a, ha, rfl⟩ := List.mem_map.mp hx
    rcases List.mem_append.mp (mem_of_mem_lastN ha) with ha | ha
    · exact hs.histories.attempts a ha
    · rw [List.mem_singleton.mp ha]
      exact h

theorem statusChanges_get? (clock : Nat → PyFloat) (target : SessionStatus)
    (changes : Dict String Arg) {name : String} (h : name ∉ ["status", "completed_at"]) :
    (statusChanges clock target changes).get? name = changes.get? name := by
  simp only [List.mem_cons, List.not_mem_nil, or_false, not_or] at h
  unfold statusChanges
  dsimp only
  split
  · rw [Dict.get?_setdefault_ne _ _ (Ne.symm h.2), Dict.get?_set_ne _ _ (Ne.symm h.1)]
  · exact Dict.get?_set_ne _ _ (Ne.symm h.1)

theorem snapshotFits_congr {s : BackgroundSession} {changes changes' : String → Option Arg}
    (h : ∀ name ∈ ["error", "failure_category", "exit_reason", "worker_exit_reason",
      "latest_activity"], changes name = changes' name) :
    SnapshotFits s changes ↔ SnapshotFits s changes' := by
  have hall := fun name hname => h name hname
  simp only [List.mem_cons, List.not_mem_nil, or_false, forall_eq_or_imp, forall_eq] at hall
  obtain ⟨h1, h2, h3, h4, h5⟩ := hall
  constructor
  · rintro ⟨f1, f2, f3, f4⟩
    exact ⟨h1 ▸ f1, h2 ▸ f2, h3 ▸ h4 ▸ f3, h5 ▸ f4⟩
  · rintro ⟨f1, f2, f3, f4⟩
    exact ⟨h1.symm ▸ f1, h2.symm ▸ f2, h3.symm ▸ h4.symm ▸ f3, h5.symm ▸ f4⟩

/-- **What a transition hands to `update`** fits exactly when the call
does. -/
theorem transition_fits {py : Interp} {clock : Nat → PyFloat} {s : BackgroundSession}
    {target : SessionStatus} (expected : Expected) {changes passed : Dict String Arg}
    (hs : s.Normal) (hne : s.status ≠ target)
    (h : transitionChanges py clock s target changes = .ok passed) :
    HistoriesFit passed.get? ↔ (Call.transition target expected changes).Fits s := by
  have hpriorities : (statusChanges clock target changes).get? "priority_history"
      = changes.get? "priority_history" := statusChanges_get? clock target changes (by decide)
  have hset : ∀ v, HistoriesFit ((statusChanges clock target changes).set "attempt_history" v).get?
      ↔ (∀ v, changes.get? "priority_history" = some v → v.ChangesFit) ∧ v.AttemptsFit := by
    intro v
    constructor
    · intro hfit
      refine ⟨?_, hfit.attempts v (Dict.get?_set_self _ _ _)⟩
      have hp := hfit.priorities
      rw [Dict.get?_set_ne _ _ (by decide), hpriorities] at hp
      exact hp
    · rintro ⟨hp, ha⟩
      refine ⟨fun w hw => ?_, fun w hw => ?_⟩
      · rw [Dict.get?_set_self, Option.some.injEq] at hw
        exact hw ▸ ha
      · rw [Dict.get?_set_ne _ _ (by decide), hpriorities] at hw
        exact hp w hw
  rw [Call.Fits, if_neg hne]
  unfold transitionChanges at h
  dsimp only at h
  split at h
  · rename_i hended
    rw [if_pos hended]
    split at h
    · cases h
    · rename_i snapshot hsnapshot
      obtain rfl := Except.ok.inj h
      rw [hset, attemptsFit_historyArg hs, fromSession_normal hs hsnapshot]
      refine and_congr_right fun _ => snapshotFits_congr fun name hname => ?_
      refine statusChanges_get? clock target changes ?_
      revert name
      decide
  · rename_i hended
    rw [if_neg hended]
    split at h
    · rename_i hlegacy
      obtain rfl := Except.ok.inj h
      rw [if_pos hlegacy, hset, attemptsFit_historyArg hs, fromSession_normal_self hs]
    · rename_i hlegacy
      obtain rfl := Except.ok.inj h
      have hattempts : (statusChanges clock target changes).get? "attempt_history"
          = changes.get? "attempt_history" := statusChanges_get? clock target changes (by decide)
      rw [if_neg hlegacy]
      constructor
      · intro hfit
        exact ⟨hpriorities ▸ hfit.priorities, hattempts ▸ hfit.attempts⟩
      · rintro ⟨hp, ha⟩
        exact ⟨hattempts.symm ▸ ha, hpriorities.symm ▸ hp⟩

/-- **Delta events.** The record that `update` or `transition` returned is
the one that its event replays to, and the one that a later `get` reads,
exactly when the attempts and priority changes that the call hands over as
objects are within the bounds of replay. -/
theorem deltas_replay {py : Interp} {clock : Nat → PyFloat} {seq : Int} {session_id : String}
    {s r : BackgroundSession} {record : Option BackgroundSession} (call : Call)
    (hs : Reachable py session_id s)
    (h : (call.prog py clock session_id).alone py clock seq session_id (some s)
      = (.ok r, record)) :
    Agrees py s r record ↔ call.Fits s := by
  have hnormal := hs.normal.1
  cases call with
  | update expected changes => exact update_agrees hnormal h
  | transition target expected changes =>
    rcases transition_alone h with ⟨heq, hupdate⟩ | ⟨hne, passed, hpassed, hupdate⟩
    · rw [Call.Fits, if_pos heq]
      exact update_agrees hnormal hupdate
    · rw [← transition_fits expected hnormal hne hpassed]
      exact update_agrees hnormal hupdate

/-! ### Runs on a running session -/

/-- The record of a running session in its first attempt. -/
def runningRecord : List (String × Json) :=
  [("session_id", .str "s"), ("status", .str "running"), ("attempt", .int 1)]

theorem running_isSome : (fromMapping plainInterp runningRecord).isSome = true := by decide

def running : BackgroundSession := (fromMapping plainInterp runningRecord).get running_isSome

theorem reachable_created {session_id : String} {kvs : List (String × Json)}
    (h : (fromMapping plainInterp kvs).isSome = true)
    (hid : Json.lookup "session_id" kvs = some (.str session_id)) :
    Reachable plainInterp session_id ((fromMapping plainInterp kvs).get h) := by
  refine ⟨.zero, [eventRecord 1 .zero ⟨"created", kvs⟩], ?_⟩
  have happly : applyEvent plainInterp .zero none (eventRecord 1 .zero ⟨"created", kvs⟩)
      = some ((fromMapping plainInterp kvs).get h) := (Option.some_get h).symm
  have hevent : eventSessionId (eventRecord 1 .zero ⟨"created", kvs⟩) = session_id := by
    have hpayload : payloadOf (eventRecord 1 .zero ⟨"created", kvs⟩) = kvs := rfl
    rw [eventSessionId, hpayload, hid]
  have hne : session_id ≠ "" := by
    intro hempty
    subst hempty
    simp [fromMapping, hid] at h
  rw [foldEvents, List.foldl_cons, List.foldl_nil, foldEvent, hevent, if_neg hne,
    Dict.get?_empty, happly]
  exact Dict.get?_set_self _ _ _

theorem running_reachable : Reachable plainInterp "s" running :=
  reachable_created running_isSome rfl

def atZero : Nat → PyFloat := fun _ => .zero

def titled : Call := .update {} (kwargs [("title", textArg "t")] (by simp))

theorem ok_of_isOk {α β : Type} {x : Except PyError α × β} (h : x.1.isOk = true) :
    ∃ r record, x = (.ok r, record) := by
  obtain ⟨x, record⟩ := x
  cases x with
  | error exc => cases h
  | ok r => exact ⟨r, record, rfl⟩

theorem deltas_replay_titled : ∃ r record,
    (titled.prog plainInterp atZero "s").alone plainInterp atZero 2 "s" (some running)
      = (.ok r, record) ∧ Agrees plainInterp running r record := by
  obtain ⟨r, record, h⟩ := ok_of_isOk (x := (titled.prog plainInterp atZero "s").alone plainInterp
    atZero 2 "s" (some running)) (by decide +kernel)
  refine ⟨r, record, h, (deltas_replay titled running_reachable h).mpr ⟨?_, ?_⟩⟩ <;>
    intro v hv <;> simp [kwargs, Dict.get?, assocGet] at hv

/-- A worker that fails with a reason of 129 characters. -/
def longExit : Call :=
  .transition .failed {}
    (kwargs [("exit_reason", textArg (String.ofList (List.replicate 129 'x')))] (by simp))

/-- **The summary keeps what replay cuts**: the attempt in the returned record
has its reason whole, the one in the log has 128 characters of it. -/
theorem not_deltas_replay : ∃ r record, Reachable plainInterp "s" running
    ∧ (longExit.prog plainInterp atZero "s").alone plainInterp atZero 2 "s" (some running)
      = (.ok r, record) ∧ ¬ Agrees plainInterp running r record := by
  obtain ⟨r, record, h⟩ := ok_of_isOk (x := (longExit.prog plainInterp atZero "s").alone plainInterp
    atZero 2 "s" (some running)) (by decide +kernel)
  refine ⟨r, record, running_reachable, h, fun hagrees => ?_⟩
  have hne : running.status ≠ .failed := by decide
  rcases transition_alone h with ⟨heq, -⟩ | ⟨-, passed, hpassed, hupdate⟩
  · exact hne heq
  · have hfit := (update_agrees running_reachable.normal.1 hupdate).mp hagrees
    have hfits := (transition_fits {} running_reachable.normal.1 hne hpassed).mp hfit
    rw [Call.Fits, if_neg hne, if_pos ⟨by decide, by decide⟩] at hfits
    have hlength := hfits.2.exit_reason
    revert hlength
    decide +kernel

end Agenthicc.Background
