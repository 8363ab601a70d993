/-
Agenthicc.Background.ModelTheorems — what `evolve`, `to_dict` and
`from_mapping` keep.

`FieldKind.Normal` is what reading a field back leaves as it is, kind by kind,
and `BackgroundSession.Normal` adds that the mode fields are coupled. Every
record that a log folds to is normal (`fromMapping_normal`, `evolve_normal`),
and a normal record survives being written and read (`fromMapping_toDict`).

`replay_evolve` is the delta theorem: the fields that an update changed,
evolved again on the record it started from, give the record that the update
returned exactly when the histories it returned are normal.
-/
import Agenthicc.Background.Store
import Mathlib.Data.List.TakeDrop

namespace Agenthicc.Background

open Python

/-! ## 1. Bounded texts and lists -/

theorem length_strTake (n : Nat) (s : String) : (strTake n s).length ≤ n := by
  rw [← String.length_toList, strTake, String.toList_ofList, List.length_take]
  exact Nat.min_le_left _ _

theorem length_lastN {α : Type} (n : Nat) (l : List α) : (lastN n l).length ≤ n := by
  rw [lastN, List.length_drop]
  omega

theorem lastN_eq_self {α : Type} {n : Nat} {l : List α} (h : l.length ≤ n) : lastN n l = l := by
  rw [lastN, Nat.sub_eq_zero_of_le h, List.drop_zero]

theorem mem_of_mem_lastN {α : Type} {n : Nat} {l : List α} {x : α} (h : x ∈ lastN n l) : x ∈ l :=
  List.mem_of_mem_drop h

theorem length_boundedText (n : Nat) (v : Json) : (boundedText n v).length ≤ n := by
  cases v <;> simp [boundedText, length_strTake]

theorem length_optBoundedText (n : Nat) (v : Json) :
    ∀ s, optBoundedText n v = some s → s.length ≤ n := by
  intro s h
  cases v <;> simp only [optBoundedText, Option.some.injEq, reduceCtorEq] at h
  rw [← h]
  exact length_strTake n _

theorem map_strTake_eq_self {n : Nat} {s : Option String} :
    s.map (strTake n) = s ↔ ∀ t, s = some t → t.length ≤ n := by
  cases s <;> simp [strTake_eq_self]

@[simp] theorem asFloat_ofOptFloat (py : Interp) (x : Option PyFloat) :
    asFloat py (Json.ofOptFloat x) = some x := by cases x <;> rfl

@[simp] theorem optBoundedText_ofOptStr (n : Nat) (s : Option String) :
    optBoundedText n (.ofOptStr s) = s.map (strTake n) := by cases s <;> rfl

@[simp] theorem intOf_ofOptInt (n : Option Int) : intOf (Json.ofOptInt n) = n := by
  cases n <;> rfl

@[simp] theorem enumOr_value {α : Type} [StrEnum α] (dflt a : α) :
    enumOr dflt (.str (StrEnum.value a)) = a := by simp [enumOr]

/-! ## 2. Modes -/

/-- A mode name stands exactly beside the applied status. -/
def Coupled (mode : String × ModeApplicationStatus) : Prop := mode.1 = "" ↔ mode.2 ≠ .applied

theorem coupled_coupleMode (name : String) (status : ModeApplicationStatus) :
    Coupled (coupleMode name status) := by
  unfold coupleMode Coupled
  split
  · simp_all
  · split <;> simp_all

theorem coupleMode_eq_self {name : String} {status : ModeApplicationStatus} :
    coupleMode name status = (name, status) ↔ Coupled (name, status) := by
  unfold coupleMode Coupled
  split
  · simp_all [eq_comm]
  · rename_i h
    rw [not_not] at h
    split <;> simp_all

theorem length_coupleMode {n : Nat} {name : String} (status : ModeApplicationStatus)
    (h : name.length ≤ n) : (coupleMode name status).1.length ≤ n := by
  unfold coupleMode
  split
  · simp
  · split
    · simp
    · exact h

/-! ## 3. Attempts and priority changes -/

namespace BackgroundAttempt

/-- The bounds that `from_mapping` puts on an attempt. -/
structure Normal (a : BackgroundAttempt) : Prop where
  error : ∀ s, a.error = some s → s.length ≤ 2000
  failure_category : a.failure_category.length ≤ 128
  exit_reason : a.exit_reason.length ≤ 128
  latest_activity : a.latest_activity.length ≤ 512
  requested_mode_name : ∀ s, a.requested_mode_name = some s → s.length ≤ 128
  mode_name : a.mode_name.length ≤ 128
  coupled : Coupled (a.mode_name, a.mode_application_status)
  mode_application_error : a.mode_application_error.length ≤ 1024

/-- What an attempt is read back as. -/
def normalize (a : BackgroundAttempt) : BackgroundAttempt :=
  { a with
    error := a.error.map (strTake 2000)
    failure_category := strTake 128 a.failure_category
    exit_reason := strTake 128 a.exit_reason
    latest_activity := strTake 512 a.latest_activity
    requested_mode_name := a.requested_mode_name.map (strTake 128)
    mode_name := (coupleMode (strTake 128 a.mode_name) a.mode_application_status).1
    mode_application_status := (coupleMode (strTake 128 a.mode_name) a.mode_application_status).2
    mode_application_error := strTake 1024 a.mode_application_error }

theorem fromMapping_toDict (py : Interp) (a : BackgroundAttempt) :
    fromMapping py a.toDict = some a.normalize := by
  have hint : ∀ n : Int, intOf (.int n) = some n := fun _ => rfl
  simp [fromMapping, toDict, normalize, Json.get, Json.getD, Json.get?, Json.lookup, boundedText,
    hint]

theorem fromMapping_normal {py : Interp} {v : Json} {a : BackgroundAttempt}
    (h : fromMapping py v = some a) : a.Normal := by
  simp only [fromMapping, Option.bind_eq_bind, Option.bind_eq_some_iff, Option.pure_def,
    Option.some.injEq] at h
  obtain ⟨_, -, _, -, rfl⟩ := h
  exact {
    error := length_optBoundedText _ _
    failure_category := length_boundedText _ _
    exit_reason := length_boundedText _ _
    latest_activity := length_boundedText _ _
    requested_mode_name := length_optBoundedText _ _
    mode_name := length_coupleMode _ (length_boundedText _ _)
    coupled := coupled_coupleMode _ _
    mode_application_error := length_boundedText _ _ }

/-- A mode that is read back as it was is short and coupled. -/
theorem coupleMode_strTake_eq_self (name : String) (status : ModeApplicationStatus) :
    coupleMode (strTake 128 name) status = (name, status)
      ↔ name.length ≤ 128 ∧ Coupled (name, status) := by
  constructor
  · intro h
    have hc := coupled_coupleMode (strTake 128 name) status
    have hl := length_coupleMode status (length_strTake 128 name)
    rw [h] at hc hl
    exact ⟨hl, hc⟩
  · rintro ⟨hl, hc⟩
    rw [strTake_eq_self.mpr hl, coupleMode_eq_self]
    exact hc

theorem Normal.iff_normalize {a : BackgroundAttempt} : a.Normal ↔ a.normalize = a := by
  have hmode := coupleMode_strTake_eq_self a.mode_name a.mode_application_status
  rw [Prod.ext_iff] at hmode
  constructor
  · intro h
    obtain ⟨h1, h2⟩ := hmode.mpr ⟨h.mode_name, h.coupled⟩
    simp only [normalize, map_strTake_eq_self.mpr h.error,
      strTake_eq_self.mpr h.failure_category, strTake_eq_self.mpr h.exit_reason,
      strTake_eq_self.mpr h.latest_activity, map_strTake_eq_self.mpr h.requested_mode_name, h1, h2,
      strTake_eq_self.mpr h.mode_application_error]
  · intro h
    have hpair : (coupleMode (strTake 128 a.mode_name) a.mode_application_status).1 = a.mode_name
        ∧ (coupleMode (strTake 128 a.mode_name) a.mode_application_status).2
          = a.mode_application_status :=
      ⟨congrArg BackgroundAttempt.mode_name h, congrArg BackgroundAttempt.mode_application_status h⟩
    obtain ⟨hname, hcoupled⟩ := hmode.mp hpair
    exact {
      error := map_strTake_eq_self.mp (congrArg BackgroundAttempt.error h)
      failure_category := strTake_eq_self.mp (congrArg BackgroundAttempt.failure_category h)
      exit_reason := strTake_eq_self.mp (congrArg BackgroundAttempt.exit_reason h)
      latest_activity := strTake_eq_self.mp (congrArg BackgroundAttempt.latest_activity h)
      requested_mode_name := map_strTake_eq_self.mp (congrArg BackgroundAttempt.requested_mode_name h)
      mode_name := hname
      coupled := hcoupled
      mode_application_error := strTake_eq_self.mp (congrArg BackgroundAttempt.mode_application_error h) }

end BackgroundAttempt

namespace PriorityChange

/-- The bound that `from_mapping` puts on a priority change. -/
def Normal (c : PriorityChange) : Prop := c.changed_by.length ≤ 128

/-- What a priority change is read back as. -/
def normalize (c : PriorityChange) : PriorityChange :=
  { c with changed_by := strTake 128 c.changed_by }

theorem fromMapping_toDict (py : Interp) (c : PriorityChange) :
    fromMapping py c.toDict = some c.normalize := by
  simp [fromMapping, toDict, normalize, Json.get, Json.getD, Json.get?, Json.lookup, asFloat,
    optBoundedText]

theorem fromMapping_normal {py : Interp} {v : Json} {c : PriorityChange}
    (h : fromMapping py v = some c) : c.Normal := by
  simp only [fromMapping, Option.bind_eq_bind, Option.bind_eq_some_iff, Option.pure_def,
    Option.some.injEq] at h
  obtain ⟨_, -, rfl⟩ := h
  have hbound := length_optBoundedText 128 (v.get "changed_by")
  cases hb : optBoundedText 128 (v.get "changed_by") with
  | none =>
    change "local-user".length ≤ 128
    decide
  | some s => simpa [Normal, hb] using hbound s hb

theorem Normal.iff_normalize {c : PriorityChange} : c.Normal ↔ c.normalize = c := by
  rw [Normal, ← strTake_eq_self]
  constructor
  · intro h
    simp only [normalize, h]
  · intro h
    exact congrArg PriorityChange.changed_by h

end PriorityChange

/-! ## 4. Same values -/

theorem optionEq_refl {α : Type} {eq : α → α → Bool} (h : ∀ x, eq x x = true) (x : Option α) :
    optionEq eq x x = true := by
  cases x with
  | none => rfl
  | some x => exact h x

theorem listEq_refl {α : Type} {eq : α → α → Bool} (h : ∀ x, eq x x = true) :
    ∀ xs : List α, listEq eq xs xs = true
  | [] => rfl
  | x :: xs => by rw [listEq, h x, listEq_refl h xs]; rfl

theorem optionEq_mono {α : Type} {eq eq' : α → α → Bool} (h : ∀ x y, eq x y = true → eq' x y = true)
    {x y : Option α} (hxy : optionEq eq x y = true) : optionEq eq' x y = true := by
  cases x <;> cases y <;> simp_all [optionEq]

/-- Lists that are equal element by element have corresponding elements. -/
theorem forall_of_listEq {α : Type} {eq : α → α → Bool} {P : α → Prop}
    (h : ∀ x y, eq x y = true → P x → P y) :
    ∀ {xs ys : List α}, listEq eq xs ys = true → (∀ x ∈ xs, P x) → ∀ y ∈ ys, P y
  | [], [], _, _ => by simp
  | x :: xs, y :: ys, heq, hP => by
      rw [listEq, Bool.and_eq_true] at heq
      intro z hz
      rcases List.mem_cons.mp hz with rfl | hz
      · exact h x z heq.1 (hP x (by simp))
      · exact forall_of_listEq h heq.2 (fun w hw => hP w (by simp [hw])) z hz

/-- Mapping a list keeps it the same exactly when it keeps every element. -/
theorem listEq_map_self {α : Type} {eq : α → α → Bool} {f : α → α} :
    ∀ {xs : List α}, listEq eq (xs.map f) xs = true ↔ ∀ x ∈ xs, eq (f x) x = true
  | [] => by simp [listEq]
  | x :: xs => by
      rw [List.map_cons, listEq, Bool.and_eq_true, listEq_map_self, List.forall_mem_cons]

theorem BackgroundAttempt.same_refl (a : BackgroundAttempt) : a.same a = true := by
  simp [same, optionEq_refl PyFloat.same_refl]

theorem PriorityChange.same_refl (c : PriorityChange) : c.same c = true := by simp [same]

/-- Attempts that are the same apart from the sign of a zero have the same
texts. -/
theorem BackgroundAttempt.Normal.of_same {a b : BackgroundAttempt} (h : a.same b = true)
    (ha : a.Normal) : b.Normal := by
  simp only [same, Bool.and_eq_true, decide_eq_true_eq, BackgroundAttempt.mk.injEq] at h
  obtain ⟨-, -, -, -, -, herr, hcat, hexit, -, hact, hreq, hname, hstatus, hmerr⟩ := h
  exact {
    error := herr ▸ ha.error
    failure_category := hcat ▸ ha.failure_category
    exit_reason := hexit ▸ ha.exit_reason
    latest_activity := hact ▸ ha.latest_activity
    requested_mode_name := hreq ▸ ha.requested_mode_name
    mode_name := hname ▸ ha.mode_name
    coupled := hname ▸ hstatus ▸ ha.coupled
    mode_application_error := hmerr ▸ ha.mode_application_error }

/-- An attempt is read back the same exactly when it is normal. -/
theorem BackgroundAttempt.same_normalize {a : BackgroundAttempt} :
    a.normalize.same a = true ↔ a.Normal := by
  rw [Normal.iff_normalize]
  constructor
  · intro h
    simp only [same, Bool.and_eq_true, decide_eq_true_eq, BackgroundAttempt.mk.injEq] at h
    obtain ⟨-, -, -, -, -, herr, hcat, hexit, -, hact, hreq, hname, hstatus, hmerr⟩ := h
    cases a
    simp_all [normalize]
  · intro h
    rw [h]
    exact same_refl a

theorem PriorityChange.Normal.of_same {c d : PriorityChange} (h : c.same d = true)
    (hc : c.Normal) : d.Normal := by
  simp only [same, Bool.and_eq_true, decide_eq_true_eq, PriorityChange.mk.injEq] at h
  have hby : c.changed_by = d.changed_by := h.2.2.2.2
  rw [Normal, ← hby]
  exact hc

theorem PriorityChange.same_normalize {c : PriorityChange} :
    c.normalize.same c = true ↔ c.Normal := by
  rw [Normal.iff_normalize]
  constructor
  · intro h
    simp only [same, Bool.and_eq_true, decide_eq_true_eq, PriorityChange.mk.injEq] at h
    cases c
    simp_all [normalize]
  · intro h
    rw [h]
    exact same_refl c

/-! ## 5. Kinds of fields -/

/-- What `_amount` returns. -/
def IsAmount (x : PyFloat) : Prop := x.isPositiveFinite = true ∨ x = .zero

def ShortText (limit : Nat) (s : String) : Prop := s.length ≤ limit

def ShortOptText (limit : Nat) (x : Option String) : Prop := ∀ s, x = some s → s.length ≤ limit

def ShortTexts (limit : Option Nat) (xs : List String) : Prop := ∀ n, limit = some n → xs.length ≤ n

def NormalAttempts (xs : List BackgroundAttempt) : Prop :=
  xs.length ≤ ATTEMPT_HISTORY_LIMIT ∧ ∀ a ∈ xs, a.Normal

def NormalChanges (xs : List PriorityChange) : Prop := xs.length ≤ 32 ∧ ∀ c ∈ xs, c.Normal

def Nonneg (n : Int) : Prop := 0 ≤ n

theorem eqOf_refl (α : Type) [DecidableEq α] (x : α) : eqOf α x x = true := by simp [eqOf]

theorem eq_of_eqOf {α : Type} [DecidableEq α] {x y : α} (h : eqOf α x y = true) : x = y := by
  simpa [eqOf] using h

namespace FieldKind

/-- The values that `from_mapping` reads. -/
def Normal : (k : FieldKind) → k.Value → Prop
  | .bounded limit, x => ShortText limit x
  | .optBounded limit, x => ShortOptText limit x
  | .strings limit, x => ShortTexts limit x
  | .count, x => Nonneg x
  | .amount, x => IsAmount x
  | .attempts, x => NormalAttempts x
  | .priorityChanges, x => NormalChanges x
  | _, _ => True

/-- Equal values, apart from the sign of a zero. -/
def same : (k : FieldKind) → k.Value → k.Value → Bool
  | .float, x, y | .amount, x, y => PyFloat.same x y
  | .optFloat, x, y => optionEq PyFloat.same x y
  | k, x, y => k.numEq x y

theorem same_refl (k : FieldKind) (x : k.Value) : k.same x x = true := by
  cases k with
  | float | amount => exact PyFloat.same_refl x
  | optFloat => exact optionEq_refl PyFloat.same_refl x
  | attempts => exact listEq_refl BackgroundAttempt.same_refl x
  | priorityChanges => exact listEq_refl PriorityChange.same_refl x
  | _ => exact eqOf_refl _ x

theorem same_of_numEq {k : FieldKind} {x y : k.Value} (h : k.numEq x y = true) :
    k.same x y = true := by
  cases k with
  | float | amount => exact PyFloat.same_of_numEq h
  | optFloat => exact optionEq_mono (fun _ _ => PyFloat.same_of_numEq) h
  | _ => exact h

end FieldKind

theorem IsAmount.asFloat {py : Interp} {x : PyFloat} (h : IsAmount x) :
    amountOf py (.float x) = some x := by
  rcases h with h | rfl
  · simp [amountOf, Background.asFloat, h]
  · simp only [amountOf, Background.asFloat, Option.map_some]
    decide

theorem isAmount_amountOf {py : Interp} {v : Json} {x : PyFloat} (h : amountOf py v = some x) :
    IsAmount x := by
  simp only [amountOf, Option.map_eq_some_iff] at h
  obtain ⟨y, -, rfl⟩ := h
  cases y with
  | none => exact Or.inr rfl
  | some y =>
    dsimp only
    split
    · rename_i hy
      exact Or.inl hy
    · exact Or.inr rfl

theorem nonneg_countOf (v : Json) : Nonneg (countOf v) := by
  cases v with
  | int n =>
    simp only [countOf, Nonneg]
    split <;> omega
  | _ => exact Int.le_refl 0

theorem countOf_int {n : Int} (h : Nonneg n) : countOf (.int n) = n := by
  simp only [Nonneg] at h
  simp only [countOf]
  split <;> omega

theorem shortTexts_limited (limit : Option Nat) (xs : List String) :
    ShortTexts limit (FieldKind.limited limit xs) := by
  intro n hn
  subst hn
  exact length_lastN n xs

theorem limited_eq_self {limit : Option Nat} {xs : List String} (h : ShortTexts limit xs) :
    FieldKind.limited limit xs = xs := by
  cases limit with
  | none => rfl
  | some n => exact lastN_eq_self (h n rfl)

theorem stringTuple_strs (xs : List String) : stringTuple (.json (.arr (xs.map .str))) = xs := by
  have hall : ((xs.map Json.str).map Item.json).all (fun x => x.str?.isSome) = true := by
    simp [List.all_map, Item.str?]
  have hmap : ((xs.map Json.str).map Item.json).filterMap Item.str? = xs := by
    induction xs with
    | nil => rfl
    | cons x xs ih => simpa [Item.str?] using ih (by simp [List.all_map, Item.str?])
  rw [stringTuple, Arg.items?]
  simp only [hall, if_true, hmap]

theorem readMappings_map {α : Type} {limit : Nat} {f : Json → Option α} {toDict : α → Json}
    (hobj : ∀ a, (toDict a).isObj = true) {g : α → α} (hf : ∀ a, f (toDict a) = some (g a))
    {xs : List α} (hlen : xs.length ≤ limit) :
    FieldKind.readMappings limit f (.arr (xs.map toDict)) = some (xs.map g) := by
  rw [FieldKind.readMappings, lastN_eq_self (by simpa using hlen),
    List.filter_eq_self.mpr (by simp [hobj])]
  clear hlen
  induction xs with
  | nil => rfl
  | cons x xs ih => simp [List.mapM_cons, hf, ih]

theorem readMappings_self {α : Type} {limit : Nat} {f : Json → Option α} {toDict : α → Json}
    (hobj : ∀ a, (toDict a).isObj = true) {g : α → α} (hf : ∀ a, f (toDict a) = some (g a))
    {xs : List α} (hlen : xs.length ≤ limit) (hg : ∀ x ∈ xs, g x = x) :
    FieldKind.readMappings limit f (.arr (xs.map toDict)) = some xs := by
  rw [readMappings_map hobj hf hlen, List.map_congr_left hg, List.map_id']

theorem forall_of_mapM {α β : Type} {f : α → Option β} {P : β → Prop}
    (h : ∀ x y, f x = some y → P y) : ∀ {xs : List α} {ys : List β}, xs.mapM f = some ys →
    ys.length = xs.length ∧ ∀ y ∈ ys, P y
  | [], ys, hm => by
      simp only [List.mapM_nil, Option.pure_def, Option.some.injEq] at hm
      simp [← hm]
  | x :: xs, ys, hm => by
      simp only [List.mapM_cons, Option.bind_eq_bind, Option.bind_eq_some_iff, Option.pure_def,
        Option.some.injEq] at hm
      obtain ⟨y, hy, zs, hzs, rfl⟩ := hm
      obtain ⟨hlen, hall⟩ := forall_of_mapM h hzs
      exact ⟨by simp [hlen], by simpa using ⟨h x y hy, hall⟩⟩

theorem readMappings_normal {α : Type} {limit : Nat} {f : Json → Option α} {P : α → Prop}
    (h : ∀ v a, f v = some a → P a) {v : Json} {xs : List α}
    (hr : FieldKind.readMappings limit f v = some xs) : xs.length ≤ limit ∧ ∀ x ∈ xs, P x := by
  cases v with
  | arr items =>
    obtain ⟨hlen, hall⟩ := forall_of_mapM h hr
    refine ⟨?_, hall⟩
    rw [hlen]
    exact Nat.le_trans (List.length_filter_le _ _) (length_lastN _ _)
  | _ =>
    simp only [FieldKind.readMappings, Option.some.injEq] at hr
    simp [← hr]

namespace FieldKind

/-- **Round trip of a field**: a normal value is read back from what is
written for it. -/
theorem read_dump {py : Interp} : ∀ {k : FieldKind} {x : k.Value}, k.Normal x →
    k.read py (some (k.dump x)) = some x
  | .str _, _, _ => rfl
  | .bounded _, _, h => congrArg some (strTake_eq_self.mpr h)
  | .optStr, none, _ => rfl
  | .optStr, some _, _ => rfl
  | .optBounded limit, x, h => by
      change some (optBoundedText limit (.ofOptStr x)) = some x
      rw [optBoundedText_ofOptStr, map_strTake_eq_self.mpr h]
  | .float, _, _ => rfl
  | .optFloat, none, _ => rfl
  | .optFloat, some _, _ => rfl
  | .int, _, _ => rfl
  | .optInt, none, _ => rfl
  | .optInt, some _, _ => rfl
  | .bool, _, _ => rfl
  | .optBool, none, _ => rfl
  | .optBool, some _, _ => rfl
  | .strings limit, x, h => by
      change some (limited limit (stringTuple (.json (.arr (List.map .str x))))) = some x
      rw [stringTuple_strs, limited_eq_self h]
  | .count, _, h => congrArg some (countOf_int h)
  | .amount, _, h => IsAmount.asFloat h
  | .status, x, _ => congrArg some (enumOr_value SessionStatus.failed x)
  | .priority, x, _ => congrArg some (enumOr_value QueuePriority.normal x)
  | .dispatchState, x, _ => congrArg some (enumOr_value QueueDispatchState.legacy x)
  | .modeStatus, x, _ => congrArg some (enumOr_value ModeApplicationStatus.pending x)
  | .attempts, _, h =>
      readMappings_self (fun _ => rfl) (BackgroundAttempt.fromMapping_toDict py) h.1
        fun a ha => BackgroundAttempt.Normal.iff_normalize.mp (h.2 a ha)
  | .priorityChanges, _, h =>
      readMappings_self (fun _ => rfl) (PriorityChange.fromMapping_toDict py) h.1
        fun c hc => PriorityChange.Normal.iff_normalize.mp (h.2 c hc)

theorem read_normal {py : Interp} : ∀ {k : FieldKind} {v : Option Json} {x : k.Value},
    k.read py v = some x → k.Normal x
  | .bounded limit, v, x, h => by
      obtain rfl := Option.some.inj h
      exact length_boundedText limit _
  | .optBounded limit, v, x, h => by
      obtain rfl := Option.some.inj h
      exact length_optBoundedText limit _
  | .strings limit, v, x, h => by
      obtain rfl := Option.some.inj h
      exact shortTexts_limited limit _
  | .count, v, x, h => by
      obtain rfl := Option.some.inj h
      exact nonneg_countOf _
  | .amount, _, _, h => isAmount_amountOf h
  | .attempts, _, _, h => readMappings_normal (fun _ _ => BackgroundAttempt.fromMapping_normal) h
  | .priorityChanges, _, _, h =>
      readMappings_normal (fun _ _ => PriorityChange.fromMapping_normal) h
  | .str _, _, _, _ | .optStr, _, _, _ | .float, _, _, _ | .optFloat, _, _, _ | .int, _, _, _
  | .optInt, _, _, _ | .bool, _, _, _ | .optBool, _, _, _ | .status, _, _, _ | .priority, _, _, _
  | .dispatchState, _, _, _ | .modeStatus, _, _, _ => trivial

/-! ### What `evolve` makes of a field -/

/-- A field that no argument names: a zero loses its sign. -/
def settle : (k : FieldKind) → k.Value → k.Value
  | .float, x => PyFloat.orZero x
  | _, x => x

/-- A field that is evolved from what was written of it. -/
def normalized : (k : FieldKind) → k.Value → k.Value
  | .attempts, x => List.map BackgroundAttempt.normalize x
  | .priorityChanges, x => List.map PriorityChange.normalize x
  | _, x => x

/-- The part of `Normal` that `evolve` does not enforce: it keeps the records
it is given as they are. -/
def NormalHistory : (k : FieldKind) → k.Value → Prop
  | .attempts, x => ∀ a ∈ x, BackgroundAttempt.Normal a
  | .priorityChanges, x => ∀ c ∈ x, PriorityChange.Normal c
  | _, _ => True

/-- What `evolve` returns. -/
def Evolved : (k : FieldKind) → k.Value → Prop
  | .float, x => PyFloat.orZero x = x
  | .attempts, x => List.length x ≤ ATTEMPT_HISTORY_LIMIT
  | .priorityChanges, x => List.length x ≤ 32
  | k, x => k.Normal x

theorem same_settle (k : FieldKind) (x y : k.Value) : k.same (k.settle x) y = k.same x y := by
  cases k with
  | float =>
    simp only [same, settle, PyFloat.orZero]
    split
    · rename_i h
      have hzero : ∀ z : PyFloat, z.isZero = true → PyFloat.same z y = PyFloat.isZero y := by
        intro z hz
        by_cases he : z = y
        · subst he
          simp [PyFloat.same, hz]
        · simp [PyFloat.same, hz, he]
      rw [hzero _ PyFloat.isZero_zero, hzero _ h]
    · rfl
  | _ => rfl

theorem same_normalized : ∀ {k : FieldKind} {x : k.Value},
    k.same (k.normalized x) x = true ↔ k.NormalHistory x
  | .attempts, x => by
      refine listEq_map_self.trans (forall₂_congr fun a _ => ?_)
      exact BackgroundAttempt.same_normalize
  | .priorityChanges, x => by
      refine listEq_map_self.trans (forall₂_congr fun c _ => ?_)
      exact PriorityChange.same_normalize
  | .str _, x | .bounded _, x | .optStr, x | .optBounded _, x | .float, x | .optFloat, x
  | .int, x | .optInt, x | .bool, x | .optBool, x | .strings _, x | .count, x | .amount, x
  | .status, x | .priority, x | .dispatchState, x | .modeStatus, x =>
      ⟨fun _ => trivial, fun _ => same_refl _ x⟩

theorem Normal.normalHistory : ∀ {k : FieldKind} {x : k.Value}, k.Normal x → k.NormalHistory x
  | .attempts, _, h => h.2
  | .priorityChanges, _, h => h.2
  | .str _, _, _ | .bounded _, _, _ | .optStr, _, _ | .optBounded _, _, _ | .float, _, _
  | .optFloat, _, _ | .int, _, _ | .optInt, _, _ | .bool, _, _ | .optBool, _, _
  | .strings _, _, _ | .count, _, _ | .amount, _, _ | .status, _, _ | .priority, _, _
  | .dispatchState, _, _ | .modeStatus, _, _ => trivial

theorem Evolved.normal : ∀ {k : FieldKind} {x : k.Value}, k.Evolved x → k.NormalHistory x →
    k.Normal x
  | .attempts, _, h, hn => ⟨h, hn⟩
  | .priorityChanges, _, h, hn => ⟨h, hn⟩
  | .float, _, _, _ => trivial
  | .str _, _, h, _ | .bounded _, _, h, _ | .optStr, _, h, _ | .optBounded _, _, h, _
  | .optFloat, _, h, _ | .int, _, h, _ | .optInt, _, h, _ | .bool, _, h, _ | .optBool, _, h, _
  | .strings _, _, h, _ | .count, _, h, _ | .amount, _, h, _ | .status, _, h, _
  | .priority, _, h, _ | .dispatchState, _, h, _ | .modeStatus, _, h, _ => h

theorem NormalHistory.of_same : ∀ {k : FieldKind} {x y : k.Value}, k.same x y = true →
    k.NormalHistory x → k.NormalHistory y
  | .attempts, _, _, h, hx =>
      forall_of_listEq (fun _ _ h => BackgroundAttempt.Normal.of_same h) h hx
  | .priorityChanges, _, _, h, hx =>
      forall_of_listEq (fun _ _ h => PriorityChange.Normal.of_same h) h hx
  | .str _, _, _, _, _ | .bounded _, _, _, _, _ | .optStr, _, _, _, _ | .optBounded _, _, _, _, _
  | .float, _, _, _, _ | .optFloat, _, _, _, _ | .int, _, _, _, _ | .optInt, _, _, _, _
  | .bool, _, _, _, _ | .optBool, _, _, _, _ | .strings _, _, _, _, _ | .count, _, _, _, _
  | .amount, _, _, _, _ | .status, _, _, _, _ | .priority, _, _, _, _
  | .dispatchState, _, _, _, _ | .modeStatus, _, _, _, _ => trivial

/-- A normal field that no argument names stays, up to the sign of a zero. -/
theorem evolved_none {py : Interp} : ∀ {k : FieldKind} {x : k.Value}, k.Normal x →
    k.evolved py x none = some (k.settle x)
  | .bounded _, _, h => congrArg some (strTake_eq_self.mpr h)
  | .optBounded _, _, h => congrArg some (map_strTake_eq_self.mpr h)
  | .strings _, _, h => congrArg some (limited_eq_self h)
  | .count, _, h => congrArg some (countOf_int h)
  | .amount, _, h => IsAmount.asFloat h
  | .attempts, _, h => congrArg some (lastN_eq_self h.1)
  | .priorityChanges, _, h => congrArg some (lastN_eq_self h.1)
  | .str _, _, _ | .optStr, _, _ | .float, _, _ | .optFloat, _, _ | .int, _, _ | .optInt, _, _
  | .bool, _, _ | .optBool, _, _ | .status, _, _ | .priority, _, _ | .dispatchState, _, _
  | .modeStatus, _, _ => rfl

/-- Records written to a history are evolved into what they are read back
as. -/
theorem evolved_items {α : Type} {f : Item → Option (Option α)} {toDict : α → Json} {g : α → α}
    (hf : ∀ a, f (.json (toDict a)) = some (some (g a))) {limit : Nat} {xs : List α}
    (hlen : xs.length ≤ limit) :
    ((((xs.map toDict).map Item.json).mapM f).map fun ys => lastN limit (ys.filterMap id))
      = some (xs.map g) := by
  have hm : ((xs.map toDict).map Item.json).mapM f = some ((xs.map g).map some) := by
    clear hlen
    induction xs with
    | nil => rfl
    | cons x xs ih => simp only [List.map_cons, List.mapM_cons, hf, ih]; rfl
  rw [hm, Option.map_some, List.filterMap_map]
  simp only [Function.id_comp, List.filterMap_some]
  rw [lastN_eq_self (by simpa using hlen)]

/-- **A recorded field** is evolved into the value that was recorded, with
its records as they are read back. -/
theorem evolved_dump {py : Interp} : ∀ {k : FieldKind} {cur x : k.Value}, k.Evolved x →
    k.evolved py cur (some (.json (k.dump x))) = some (k.normalized x)
  | .str _, _, _, _ => rfl
  | .bounded _, _, _, h => congrArg some (strTake_eq_self.mpr h)
  | .optStr, _, none, _ => rfl
  | .optStr, _, some _, _ => rfl
  | .optBounded _, _, none, _ => rfl
  | .optBounded _, _, some _, h => congrArg (fun s => some (some s)) (strTake_eq_self.mpr (h _ rfl))
  | .float, _, _, h => congrArg some h
  | .optFloat, _, none, _ => rfl
  | .optFloat, _, some _, _ => rfl
  | .int, _, _, _ => rfl
  | .optInt, _, none, _ => rfl
  | .optInt, _, some _, _ => rfl
  | .bool, _, _, _ => rfl
  | .optBool, _, none, _ => rfl
  | .optBool, _, some _, _ => rfl
  | .strings limit, _, x, h => by
      change some (limited limit (stringTuple (.json (.arr (List.map .str x))))) = some x
      rw [stringTuple_strs, limited_eq_self h]
  | .count, _, _, h => congrArg some (countOf_int h)
  | .amount, _, _, h => IsAmount.asFloat h
  | .status, _, x, _ => congrArg some (enumOr_value SessionStatus.failed x)
  | .priority, cur, x, _ => congrArg some (enumOr_value (cur : QueuePriority) x)
  | .dispatchState, cur, x, _ => congrArg some (enumOr_value (cur : QueueDispatchState) x)
  | .modeStatus, cur, x, _ => congrArg some (enumOr_value (cur : ModeApplicationStatus) x)
  | .attempts, _, _, h =>
      evolved_items (fun a => congrArg (Option.map some) (BackgroundAttempt.fromMapping_toDict py a))
        h
  | .priorityChanges, _, _, h =>
      evolved_items (fun c => congrArg (Option.map some) (PriorityChange.fromMapping_toDict py c)) h

theorem shortOptText_map (limit : Nat) (x : Option String) :
    ShortOptText limit (x.map (strTake limit)) := by
  cases x with
  | none => simp [ShortOptText]
  | some s => simpa [ShortOptText] using length_strTake limit s

theorem shortOptText_some {limit : Nat} {s : String} (h : s.length ≤ limit) :
    ShortOptText limit (some s) := by
  simpa [ShortOptText] using h

/-- **What `evolve` returns** of a normal field is evolved. -/
theorem evolved_evolved {py : Interp} : ∀ {k : FieldKind} {cur x : k.Value} {v : Option Arg},
    k.Normal cur → k.evolved py cur v = some x → k.Evolved x
  | .bounded limit, cur, x, v, hcur, h => by
      simp only [evolved] at h
      split at h <;> obtain rfl := Option.some.inj h
      · exact length_strTake limit _
      · exact hcur
      · exact length_strTake limit _
  | .optBounded limit, cur, x, v, hcur, h => by
      simp only [evolved] at h
      split at h <;> obtain rfl := Option.some.inj h
      · simp [Evolved, Normal, ShortOptText]
      · exact shortOptText_some (length_strTake limit _)
      · cases cur with
        | none => exact shortOptText_some (Nat.zero_le _)
        | some s => exact shortOptText_some (hcur s rfl)
      · exact shortOptText_map limit _
  | .float, cur, x, v, _, h => by
      simp only [evolved] at h
      split at h
      · obtain ⟨y, -, rfl⟩ := Option.map_eq_some_iff.mp h
        exact PyFloat.orZero_orZero _
      · obtain rfl := Option.some.inj h
        exact PyFloat.orZero_orZero _
  | .strings limit, cur, x, v, _, h => by
      obtain rfl := Option.some.inj h
      exact shortTexts_limited limit _
  | .count, cur, x, v, _, h => by
      obtain rfl := Option.some.inj h
      exact nonneg_countOf _
  | .amount, cur, x, v, _, h => isAmount_amountOf h
  | .attempts, cur, x, v, _, h => by
      simp only [evolved] at h
      split at h
      · obtain ⟨y, -, rfl⟩ := Option.map_eq_some_iff.mp h
        exact length_lastN _ _
      · obtain rfl := Option.some.inj h
        exact length_lastN _ _
  | .priorityChanges, cur, x, v, _, h => by
      simp only [evolved] at h
      split at h
      · obtain ⟨y, -, rfl⟩ := Option.map_eq_some_iff.mp h
        exact length_lastN _ _
      · obtain rfl := Option.some.inj h
        exact length_lastN _ _
  | .str _, _, _, _, _, _ | .optStr, _, _, _, _, _ | .optFloat, _, _, _, _, _ | .int, _, _, _, _, _
  | .optInt, _, _, _, _, _ | .bool, _, _, _, _, _ | .optBool, _, _, _, _, _ | .status, _, _, _, _, _
  | .priority, _, _, _, _, _ | .dispatchState, _, _, _, _, _ | .modeStatus, _, _, _, _, _ => trivial

/-- **Replay of one field**: evolving the old value again, from what was
recorded of the new one, gives the new one exactly when its records are
normal. -/
theorem evolved_replay (py : Interp) {k : FieldKind} {cur x : k.Value} (hcur : k.Normal cur)
    (hx : k.Evolved x) :
    ∃ y, k.evolved py cur (if k.numEq cur x then none else some (.json (k.dump x))) = some y
      ∧ (k.same y x = true ↔ k.NormalHistory x) := by
  by_cases heq : k.numEq cur x = true
  · refine ⟨k.settle cur, ?_, ?_⟩
    · rw [if_pos heq, evolved_none hcur]
    · have hsame := same_of_numEq heq
      rw [same_settle]
      exact ⟨fun _ => hcur.normalHistory.of_same hsame, fun _ => hsame⟩
  · refine ⟨k.normalized x, ?_, same_normalized⟩
    rw [if_neg heq, evolved_dump hx]

end FieldKind

/-! ## 6. Reading a dictionary -/

theorem lookup_eq_assocGet {name : String} : ∀ {kvs : List (String × Json)},
    (kvs.map Prod.fst).Nodup → Json.lookup name kvs = assocGet name kvs
  | [], _ => rfl
  | (k, v) :: kvs, h => by
      rw [List.map_cons, List.nodup_cons] at h
      rw [Json.lookup, assocGet, lookup_eq_assocGet h.2]
      by_cases hk : k = name
      · subst hk
        rw [(assocGet_eq_none k kvs).mpr h.1, if_pos rfl]
      · rw [if_neg hk, if_neg hk]
        cases assocGet name kvs <;> rfl

theorem lookup_items (d : Dict String Json) (name : String) :
    Json.lookup name d.items = d.get? name := lookup_eq_assocGet d.nodup

theorem jsonChanges_items (d : Dict String Json) (name : String) :
    jsonChanges d.items name = (d.get? name).map .json := by
  rw [jsonChanges, lookup_items]

theorem assocGet_fields (g : Field → Json) {fs : List Field} (hnd : (fs.map Field.name).Nodup)
    (f : Field) : assocGet f.name (fs.map fun f => (f.name, g f)) = if f ∈ fs then some (g f) else none := by
  split
  · rename_i hf
    refine assocGet_of_mem ?_ (List.mem_map.mpr ⟨f, hf, rfl⟩)
    rw [List.map_map]
    exact hnd
  · rename_i hf
    rw [assocGet_eq_none, List.map_map, List.mem_map]
    rintro ⟨g, hg, hname⟩
    exact hf (Field.name_injective hname ▸ hg)

/-! ## 7. Records -/

namespace BackgroundSession

theorem gather_eq_some {raw : (f : Field) → Option f.kind.Value}
    {value : (f : Field) → f.kind.Value} : gather raw = some value ↔ ∀ f, raw f = some (value f) := by
  unfold gather
  split
  · rename_i h
    rw [Option.some.injEq, funext_iff]
    refine forall_congr' fun f => ?_
    constructor
    · intro hf
      rw [← hf, Option.some_get]
    · intro hf
      simp [hf]
  · rename_i h
    simp only [reduceCtorEq, false_iff]
    intro hall
    exact h fun f => by rw [hall f]; rfl

/-- The records that a log folds to. -/
structure Normal (s : BackgroundSession) : Prop where
  session_id : s.session_id ≠ ""
  value : ∀ f : Field, f.kind.Normal (s.value f)
  coupled : Coupled (s.mode_name, s.mode_application_status)

/-- The same record, apart from the sign of a zero. -/
structure Same (s t : BackgroundSession) : Prop where
  session_id : s.session_id = t.session_id
  value : ∀ f : Field, f.kind.same (s.value f) (t.value f) = true

theorem Same.refl (s : BackgroundSession) : s.Same s := ⟨rfl, fun f => f.kind.same_refl _⟩

@[simp] theorem set_value_self (s : BackgroundSession) (f : Field) (x : f.kind.Value) :
    (s.set f x).value f = x := by
  unfold BackgroundSession.set
  exact Function.update_self f x s.value

theorem set_value_ne (s : BackgroundSession) {f g : Field} (x : f.kind.Value) (h : g ≠ f) :
    (s.set f x).value g = s.value g := by
  unfold BackgroundSession.set
  exact Function.update_of_ne h x s.value

theorem coupled_of_ne (value : (f : Field) → f.kind.Value)
    (mode : String × ModeApplicationStatus) {f : Field} (hname : f ≠ .mode_name)
    (hstatus : f ≠ .mode_application_status) : coupled value mode f = value f := by
  rw [BackgroundSession.coupled, Function.update_of_ne hstatus, Function.update_of_ne hname]

@[simp] theorem coupled_mode_name (value : (f : Field) → f.kind.Value)
    (mode : String × ModeApplicationStatus) : coupled value mode .mode_name = mode.1 := by
  rw [BackgroundSession.coupled, Function.update_of_ne (by decide), Function.update_self]

@[simp] theorem coupled_mode_application_status (value : (f : Field) → f.kind.Value)
    (mode : String × ModeApplicationStatus) :
    coupled value mode .mode_application_status = mode.2 := by
  rw [BackgroundSession.coupled, Function.update_self]

/-- Every field of a coupled record is normal when the fields it was made of
are and the mode name is short. -/
theorem coupled_normal {value : (f : Field) → f.kind.Value}
    {mode : String × ModeApplicationStatus} (h : ∀ f : Field, f.kind.Normal (value f))
    (hmode : ShortText 128 mode.1) (f : Field) : f.kind.Normal (coupled value mode f) := by
  by_cases hname : f = .mode_name
  · subst hname
    rw [coupled_mode_name]
    exact hmode
  · by_cases hstatus : f = .mode_application_status
    · subst hstatus
      trivial
    · rw [coupled_of_ne value mode hname hstatus]
      exact h f

/-- **Whatever is read is normal.** -/
theorem fromMapping_normal {py : Interp} {kvs : List (String × Json)} {s : BackgroundSession}
    (h : fromMapping py kvs = some s) : s.Normal := by
  unfold fromMapping at h
  split at h
  · rename_i session_id _
    split at h
    · cases h
    · rename_i hid
      obtain ⟨value, hvalue, rfl⟩ := Option.map_eq_some_iff.mp h
      rw [gather_eq_some] at hvalue
      have hnormal : ∀ f : Field, f.kind.Normal (value f) := fun f => FieldKind.read_normal (hvalue f)
      have hmode : ShortText 128 (mappedMode kvs).1 :=
        length_coupleMode _ (length_boundedText 128 _)
      refine ⟨hid, fun f => ?_, ?_⟩
      · by_cases hf : f = .mode_application_attempt
        · subst hf
          trivial
        · dsimp only
          rw [Function.update_of_ne hf]
          exact coupled_normal hnormal hmode f
      · simp only [mode_name, mode_application_status]
        rw [Function.update_of_ne (by decide), Function.update_of_ne (by decide),
          coupled_mode_name, coupled_mode_application_status]
        exact coupled_coupleMode _ _
  · cases h

theorem lookup_toDict (s : BackgroundSession) (f : Field) :
    Json.lookup f.name s.toDict = some (f.kind.dump (s.value f)) := by
  have hnd : (s.toDict.map Prod.fst).Nodup := by
    rw [toDict, List.map_cons, List.map_map, List.nodup_cons]
    refine ⟨?_, Field.nodup_names⟩
    rw [List.mem_map]
    rintro ⟨f, -, hf⟩
    exact f.name_ne_session_id hf
  rw [lookup_eq_assocGet hnd, toDict, assocGet, if_neg (Ne.symm f.name_ne_session_id),
    assocGet_fields _ Field.nodup_names, if_pos f.mem_all]

theorem mapped_toDict (s : BackgroundSession) (f : Field) :
    mapped s.toDict f = some (f.kind.dump (s.value f)) := by
  rw [mapped, lookup_toDict]
  split <;> rfl

theorem mappedMode_toDict {s : BackgroundSession} (h : s.Normal) :
    mappedMode s.toDict = (s.mode_name, s.mode_application_status) := by
  have hname : boundedText 128 (Field.mode_name.kind.dump (s.value .mode_name)) = s.mode_name :=
    strTake_eq_self.mpr (h.value .mode_name)
  have hstatus : ∀ dflt, enumOr dflt (Field.mode_application_status.kind.dump
      (s.value .mode_application_status)) = s.mode_application_status :=
    fun dflt => enumOr_value dflt s.mode_application_status
  have hlookup := lookup_toDict s .mode_name
  have hlookup' := lookup_toDict s .mode_application_status
  simp only [Field.name] at hlookup hlookup'
  rw [mappedMode, hlookup, hlookup', Option.getD_some, Option.getD_some, hname, hstatus]
  exact coupleMode_eq_self.mpr h.coupled

theorem mappedModeAttempt_toDict (s : BackgroundSession) :
    mappedModeAttempt s.toDict = s.value .mode_application_attempt := by
  have hlookup := lookup_toDict s .mode_application_attempt
  simp only [Field.name] at hlookup
  rw [mappedModeAttempt, hlookup]
  rfl

theorem coupled_self (s : BackgroundSession) :
    BackgroundSession.coupled s.value (s.mode_name, s.mode_application_status) = s.value := by
  rw [BackgroundSession.coupled, mode_name, mode_application_status, Function.update_eq_self,
    Function.update_eq_self]

/-- **Round trip of a record**: a normal record is read back from what
`to_dict` writes. -/
theorem fromMapping_toDict {py : Interp} {s : BackgroundSession} (h : s.Normal) :
    fromMapping py s.toDict = some s := by
  have hid : Json.lookup "session_id" s.toDict = some (.str s.session_id) := by
    have hnone : Json.lookup "session_id" (Field.all.map fun f =>
        (f.name, f.kind.dump (s.value f))) = none := by
      rw [lookup_eq_assocGet (by rw [List.map_map]; exact Field.nodup_names), assocGet_eq_none,
        List.map_map, List.mem_map]
      rintro ⟨f, -, hf⟩
      exact f.name_ne_session_id hf
    rw [toDict, Json.lookup, hnone]
    rfl
  have hgather : (gather fun f => f.kind.read py (mapped s.toDict f)) = some s.value := by
    rw [gather_eq_some]
    intro f
    rw [mapped_toDict]
    exact FieldKind.read_dump (h.value f)
  rw [fromMapping, hid]
  dsimp only
  rw [if_neg h.session_id, hgather, Option.map_some, mappedMode_toDict h, coupled_self,
    mappedModeAttempt_toDict, Function.update_eq_self]

/-! ### `evolve` -/

theorem evolve_eq_some {py : Interp} {s t : BackgroundSession} {changes : String → Option Arg} :
    s.evolve py changes = some t ↔ ∃ value : (f : Field) → f.kind.Value,
      (∀ f : Field, f.kind.evolved py (s.value f) (changes f.name) = some (value f))
        ∧ t = ⟨s.session_id, BackgroundSession.coupled value
          (s.evolvedMode changes (value .mode_name) (value .mode_application_status))⟩ := by
  rw [evolve, Option.map_eq_some_iff]
  constructor
  · rintro ⟨value, hvalue, rfl⟩
    exact ⟨value, gather_eq_some.mp hvalue, rfl⟩
  · rintro ⟨value, hvalue, rfl⟩
    exact ⟨value, gather_eq_some.mpr hvalue, rfl⟩

/-- A field that no mode is stored in is what its kind evolves it to. -/
theorem evolve_value {py : Interp} {s t : BackgroundSession} {changes : String → Option Arg}
    (h : s.evolve py changes = some t) {f : Field} (hname : f ≠ .mode_name)
    (hstatus : f ≠ .mode_application_status) :
    f.kind.evolved py (s.value f) (changes f.name) = some (t.value f) := by
  obtain ⟨value, hvalue, rfl⟩ := evolve_eq_some.mp h
  dsimp only
  rw [coupled_of_ne value _ hname hstatus]
  exact hvalue f

theorem evolve_session_id {py : Interp} {s t : BackgroundSession} {changes : String → Option Arg}
    (h : s.evolve py changes = some t) : t.session_id = s.session_id := by
  obtain ⟨value, -, rfl⟩ := evolve_eq_some.mp h
  rfl

theorem evolve_coupled {py : Interp} {s t : BackgroundSession} {changes : String → Option Arg}
    (h : s.evolve py changes = some t) : Coupled (t.mode_name, t.mode_application_status) := by
  obtain ⟨value, -, rfl⟩ := evolve_eq_some.mp h
  simp only [mode_name, mode_application_status]
  rw [coupled_mode_name, coupled_mode_application_status]
  exact coupled_coupleMode _ _

/-- **What `evolve` returns** of a normal record, field by field. -/
theorem evolve_evolved {py : Interp} {s t : BackgroundSession} {changes : String → Option Arg}
    (hs : s.Normal) (h : s.evolve py changes = some t) (f : Field) : f.kind.Evolved (t.value f) := by
  obtain ⟨value, hvalue, rfl⟩ := evolve_eq_some.mp h
  have hall : ∀ f : Field, f.kind.Evolved (value f) := fun f =>
    FieldKind.evolved_evolved (hs.value f) (hvalue f)
  dsimp only
  by_cases hname : f = .mode_name
  · subst hname
    rw [coupled_mode_name]
    exact length_coupleMode _ (hall .mode_name)
  · by_cases hstatus : f = .mode_application_status
    · subst hstatus
      trivial
    · rw [coupled_of_ne value _ hname hstatus]
      exact hall f

/-- The histories of the record hold normal records only. -/
structure NormalHistories (s : BackgroundSession) : Prop where
  attempts : ∀ a ∈ s.attempt_history, a.Normal
  priorities : ∀ c ∈ s.priority_history, c.Normal

theorem NormalHistories.value {s : BackgroundSession} (h : s.NormalHistories) (f : Field) :
    f.kind.NormalHistory (s.value f) := by
  cases f with
  | attempt_history => exact h.attempts
  | priority_history => exact h.priorities
  | _ => trivial

theorem Normal.histories {s : BackgroundSession} (h : s.Normal) : s.NormalHistories :=
  ⟨(h.value .attempt_history).2, (h.value .priority_history).2⟩

/-- A record that was evolved is normal when its histories are. -/
theorem evolve_normal {py : Interp} {s t : BackgroundSession} {changes : String → Option Arg}
    (hs : s.Normal) (h : s.evolve py changes = some t) (ht : t.NormalHistories) : t.Normal :=
  ⟨evolve_session_id h ▸ hs.session_id,
    fun f => (evolve_evolved hs h f).normal (ht.value f), evolve_coupled h⟩

/-! ### What an update records -/

/-- A field as `_changed_fields` records it. -/
def recorded (s t : BackgroundSession) (f : Field) : Option Json :=
  if f = .last_active then some (f.kind.dump (t.value f))
  else if f = .mode_application_status
      ∧ FieldKind.numEq _ (s.value .mode_name) (t.value .mode_name) = false then
    some (f.kind.dump (t.value f))
  else if f.kind.numEq (s.value f) (t.value f) then none
  else some (f.kind.dump (t.value f))

theorem changedFields_get? (s t : BackgroundSession) (f : Field) :
    (changedFields s t).get? f.name = recorded s t f := by
  have hdiff : ∀ f : Field, (Dict.mk (differing s t) (nodup_differing s t)).get? f.name
      = if f.kind.numEq (s.value f) (t.value f) then none
        else some (f.kind.dump (t.value f)) := by
    intro f
    refine (assocGet_fields _ (Field.nodup_names.sublist (List.filter_sublist.map _)) f).trans ?_
    simp only [List.mem_filter, f.mem_all, true_and]
    cases f.kind.numEq (s.value f) (t.value f) <;> simp
  have hlast : Field.last_active.name = f.name ↔ f = .last_active :=
    ⟨fun h => (Field.name_injective h).symm, fun h => h ▸ rfl⟩
  have hstatus : Field.mode_application_status.name = f.name ↔ f = .mode_application_status :=
    ⟨fun h => (Field.name_injective h).symm, fun h => h ▸ rfl⟩
  have hname := hdiff .mode_name
  simp only [Field.name] at hname
  rw [changedFields, recorded, Dict.get?_set]
  change (if Field.last_active.name = f.name then _ else _) = _
  simp only [hlast]
  split
  · rename_i hf
    subst hf
    rfl
  · rw [hname]
    cases hm : FieldKind.numEq _ (s.value .mode_name) (t.value .mode_name) with
    | true => simpa using hdiff f
    | false =>
      simp only [Bool.false_eq_true, if_false, Option.isSome_some, if_true, Dict.get?_set]
      change (if Field.mode_application_status.name = f.name then _ else _) = _
      simp only [hstatus, and_true]
      split
      · rename_i hf
        subst hf
        rfl
      · exact hdiff f

/-- Every field is evolved from what was recorded of it into what it became,
exactly when the records in it are normal. -/
theorem evolved_recorded (py : Interp) {s t : BackgroundSession} (hs : s.Normal)
    (ht : ∀ f : Field, f.kind.Evolved (t.value f)) (f : Field) :
    ∃ y, f.kind.evolved py (s.value f) ((recorded s t f).map .json) = some y
      ∧ (f.kind.same y (t.value f) = true ↔ f.kind.NormalHistory (t.value f)) := by
  have hdump : f.kind.evolved py (s.value f) (some (.json (f.kind.dump (t.value f))))
      = some (f.kind.normalized (t.value f)) := FieldKind.evolved_dump (ht f)
  unfold recorded
  split
  · exact ⟨_, hdump, FieldKind.same_normalized⟩
  · split
    · exact ⟨_, hdump, FieldKind.same_normalized⟩
    · obtain ⟨y, hy, hsame⟩ := FieldKind.evolved_replay py (hs.value f) (ht f)
      refine ⟨y, ?_, hsame⟩
      rw [← hy]
      split <;> rfl

/-- What the fields of a record become when its recorded changes are evolved
from the old one. -/
theorem replay_fields (py : Interp) {s t : BackgroundSession} (hs : s.Normal)
    (hid : t.session_id = s.session_id) (ht : ∀ f : Field, f.kind.Evolved (t.value f))
    (hcoupled : Coupled (t.mode_name, t.mode_application_status)) :
    ∃ r, s.evolve py (jsonChanges (changedFields s t).items) = some r
      ∧ r.session_id = t.session_id
      ∧ ∀ f : Field, f.kind.same (r.value f) (t.value f) = true
        ↔ f.kind.NormalHistory (t.value f) := by
  have hfield := evolved_recorded py hs ht
  choose y hy hsame using hfield
  have hchanges : ∀ f : Field,
      jsonChanges (changedFields s t).items f.name = (recorded s t f).map .json := by
    intro f
    rw [jsonChanges_items, changedFields_get?]
  -- the mode fields hold no records, so they are as they became
  have hname : y .mode_name = t.mode_name := eq_of_eqOf ((hsame .mode_name).mpr trivial)
  have hstatus : y .mode_application_status = t.mode_application_status :=
    eq_of_eqOf ((hsame .mode_application_status).mpr trivial)
  have hmode : s.evolvedMode (jsonChanges (changedFields s t).items) (y .mode_name)
      (y .mode_application_status) = (t.mode_name, t.mode_application_status) := by
    have hc1 := hchanges .mode_name
    have hc2 := hchanges .mode_application_status
    simp only [Field.name] at hc1 hc2
    rw [evolvedMode, hc1, hc2, hname, hstatus]
    have hneither : ¬ (((recorded s t .mode_name).map Arg.json).isSome = true
        ∧ ((recorded s t .mode_application_status).map Arg.json).isNone = true
        ∧ t.mode_name ≠ s.mode_name) := by
      rintro ⟨h1, h2, -⟩
      simp only [recorded] at h1 h2
      cases hm : FieldKind.numEq _ (s.value .mode_name) (t.value .mode_name) <;> simp [hm] at h1 h2
    rw [if_neg hneither]
    exact coupleMode_eq_self.mpr hcoupled
  refine ⟨⟨s.session_id, BackgroundSession.coupled y (t.mode_name, t.mode_application_status)⟩,
    ?_, hid.symm, fun f => ?_⟩
  · rw [evolve_eq_some]
    refine ⟨y, fun f => ?_, ?_⟩
    · rw [hchanges]
      exact hy f
    · rw [hmode]
  · dsimp only
    by_cases h1 : f = .mode_name
    · subst h1
      rw [coupled_mode_name]
      exact iff_of_true (FieldKind.same_refl _ _) trivial
    · by_cases h2 : f = .mode_application_status
      · subst h2
        rw [coupled_mode_application_status]
        exact iff_of_true (FieldKind.same_refl _ _) trivial
      · rw [coupled_of_ne y _ h1 h2]
        exact hsame f

/-- A record has the fields of another exactly when its histories allow it. -/
theorem same_iff_normalHistories {r t : BackgroundSession} (hid : r.session_id = t.session_id)
    (h : ∀ f : Field, f.kind.same (r.value f) (t.value f) = true
      ↔ f.kind.NormalHistory (t.value f)) : r.Same t ↔ t.NormalHistories := by
  constructor
  · intro hsame
    exact ⟨(h .attempt_history).mp (hsame.value _), (h .priority_history).mp (hsame.value _)⟩
  · intro hn
    exact ⟨hid, fun f => (h f).mpr (hn.value f)⟩

/-- **Delta replay.** Evolving the old record by what was recorded of the new
one gives the new one, exactly when the histories of the new one are normal. -/
theorem replay_evolve (py : Interp) {s t : BackgroundSession} (hs : s.Normal)
    (hid : t.session_id = s.session_id) (ht : ∀ f : Field, f.kind.Evolved (t.value f))
    (hcoupled : Coupled (t.mode_name, t.mode_application_status)) :
    ∃ r, s.evolve py (jsonChanges (changedFields s t).items) = some r
      ∧ (r.Same t ↔ t.NormalHistories) := by
  obtain ⟨r, hr, hrid, hfield⟩ := replay_fields py hs hid ht hcoupled
  exact ⟨r, hr, same_iff_normalHistories hrid hfield⟩

end BackgroundSession

end Agenthicc.Background
