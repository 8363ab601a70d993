/-
Agenthicc.Tui.KeymapTheorems — keys do what the bindings say.

The check of a keymap is read back as what it guarantees (`never_together`,
`keys_normalized`). With it the action that a key triggers is the `Nearest`
one, the only one that can be meant; the hints and the names of keystrokes are
compared with that.
-/
import Agenthicc.Tui.Keymap
import Agenthicc.Tui.KeyboardTheorems
import Mathlib.Data.List.Pairwise
import Mathlib.Data.List.Sublists

open Python

namespace Agenthicc.Tui

variable {py : CharTable}

/-! ## 1. What the check guarantees -/

theorem except_bind_ok {ε α β : Type} {x : Except ε α} {f : α → Except ε β} {b : β} (h : x >>= f = .ok b) :
    ∃ a, x = .ok a ∧ f a = .ok b := by
  cases x with
  | error e => cases h
  | ok a => exact ⟨a, rfl, h⟩

theorem mem_bindings {actions : List Action} {a : Action} {context : String} {key : List Char} :
    ((context, key), a) ∈ bindings actions ↔ a ∈ actions ∧ a.context = context ∧ key ∈ a.keys := by
  simp only [bindings, List.mem_flatMap, List.mem_map, Prod.mk.injEq]
  constructor
  · rintro ⟨b, hb, k, hk, ⟨rfl, rfl⟩, rfl⟩
    exact ⟨hb, rfl, hk⟩
  · rintro ⟨ha, rfl, hkey⟩
    exact ⟨a, ha, key, hkey, ⟨rfl, rfl⟩, rfl⟩

theorem getD_collect {κ α : Type} [DecidableEq κ] (pairs : List (κ × α)) (d : Dict κ (List α)) (k : κ) :
    ((pairs.foldl (fun d p => d.set p.1 ((d.get? p.1).getD [] ++ [p.2])) d).get? k).getD []
      = (d.get? k).getD [] ++ (pairs.filter (·.1 = k)).map Prod.snd := by
  induction pairs generalizing d with
  | nil => simp
  | cons p pairs ih =>
    rw [List.foldl_cons, ih, Dict.get?_set, List.filter_cons]
    by_cases h : p.1 = k
    · subst h
      simp
    · simp [h]

theorem clash_none {actions : List Action} (h : clash actions = none) :
    actions.Pairwise fun a b => a.excludes b = true := by
  induction actions with
  | nil => exact .nil
  | cons first rest ih =>
    rw [clash] at h
    split at h
    · cases h
    · next hfind =>
      rw [List.find?_eq_none] at hfind
      exact .cons (fun b hb => by simpa using hfind b hb) (ih h)

theorem checkClashes_ok {groups : List ((String × List Char) × List Action)} (h : checkClashes py groups = .ok ()) :
    ∀ p ∈ groups, clash p.2 = none := by
  induction groups with
  | nil => simp
  | cons p groups ih =>
    obtain ⟨⟨context, key⟩, actions⟩ := p
    rw [checkClashes] at h
    split at h
    · cases h
    · next hclash => exact List.forall_mem_cons.mpr ⟨hclash, ih h⟩

namespace Action

instance : Std.Symm fun a b : Action => a.excludes b = true where
  symm a b h := by rwa [excludes, Bool.or_comm]

theorem not_both_apply {a b : Action} (h : a.excludes b = true) {flags : Finset String}
    (ha : a.applies flags = true) : b.applies flags = false := by
  have hflag : ∀ {s t : Finset String}, s ⊆ flags → t ∩ flags = ∅ → s ∩ t ≠ ∅ → False := by
    intro s t hs ht hne
    obtain ⟨x, hx⟩ := Finset.nonempty_iff_ne_empty.mpr hne
    obtain ⟨hxs, hxt⟩ := Finset.mem_inter.mp hx
    have hmem : x ∈ t ∩ flags := Finset.mem_inter.mpr ⟨hxt, hs hxs⟩
    simp [ht] at hmem
  by_contra hb
  rw [Bool.not_eq_false] at hb
  simp only [applies, excludes, Bool.and_eq_true, Bool.or_eq_true, decide_eq_true_eq] at h ha hb
  obtain h | h := h
  · exact hflag ha.1 hb.2 h
  · exact hflag hb.1 ha.2 h

end Action

theorem checkActions_ok {leader : Option (List Char)} {seen : List String} {actions : List Action}
    (h : checkActions py leader seen actions = .ok ()) :
    (∀ a ∈ actions, a.context ∈ CONTEXTS ∧ a.name ∉ seen ∧ a.keys.mapM (normalizeKey py) = .ok a.keys)
      ∧ (actions.map Action.name).Nodup := by
  induction actions generalizing seen with
  | nil => simp
  | cons a rest ih =>
    rw [checkActions] at h
    split at h
    · cases h
    · next hcontext =>
      split at h
      · cases h
      · next hseen =>
        obtain ⟨normalized, hnormalized, h⟩ := except_bind_ok h
        split at h
        · cases h
        · next heq =>
          rw [ne_eq, not_not] at heq
          subst heq
          split at h
          · cases h
          · obtain ⟨hall, hnodup⟩ := ih h
            have hfresh : a.name ∉ rest.map Action.name := by
              intro hmem
              obtain ⟨b, hb, hname⟩ := List.mem_map.mp hmem
              exact (hall b hb).2.1 (by simp [hname])
            refine ⟨List.forall_mem_cons.mpr ⟨⟨not_not.mp hcontext, hseen, hnormalized⟩, ?_⟩,
              List.nodup_cons.mpr ⟨hfresh, hnodup⟩⟩
            intro b hb
            obtain ⟨hb1, hb2, hb3⟩ := hall b hb
            exact ⟨hb1, fun hmem => hb2 (List.mem_cons_of_mem _ hmem), hb3⟩

theorem mem_of_mapM_self {keys normalized : List (List Char)}
    (h : keys.mapM (normalizeKey py) = .ok normalized) (hself : normalized = keys) :
    ∀ key ∈ keys, normalizeKey py key = .ok key := by
  induction keys generalizing normalized with
  | nil => simp
  | cons key keys ih =>
    rw [List.mapM_cons] at h
    obtain ⟨first, hfirst, h⟩ := except_bind_ok h
    obtain ⟨rest, hrest, h⟩ := except_bind_ok h
    obtain rfl : first :: rest = normalized := Except.ok.inj h
    obtain ⟨rfl, rfl⟩ := List.cons_eq_cons.mp hself
    exact List.forall_mem_cons.mpr ⟨hfirst, ih hrest rfl⟩

theorem check_ok {actions : List Action} {leader : Option (List Char)} (h : check py actions leader = .ok ()) :
    checkActions py leader [] actions = .ok () ∧ checkClashes py (byKey actions).items = .ok () := by
  unfold check at h
  obtain ⟨⟨⟩, hactions, h⟩ := except_bind_ok h
  obtain ⟨⟨⟩, hclashes, -⟩ := except_bind_ok h
  exact ⟨hactions, hclashes⟩

namespace Keymap

theorem names_nodup (km : Keymap py) : (km.actions.map Action.name).Nodup :=
  (checkActions_ok (check_ok km.checked).1).2

theorem eq_of_name (km : Keymap py) {a b : Action} (ha : a ∈ km.actions) (hb : b ∈ km.actions)
    (h : a.name = b.name) : a = b := List.inj_on_of_nodup_map km.names_nodup ha hb h

theorem keys_normalized (km : Keymap py) {a : Action} (ha : a ∈ km.actions) {key : List Char} (hkey : key ∈ a.keys) :
    normalizeKey py key = .ok key :=
  mem_of_mapM_self ((checkActions_ok (check_ok km.checked).1).1 a ha).2.2 rfl key hkey

theorem key_ne_nil (km : Keymap py) {a : Action} (ha : a ∈ km.actions) {key : List Char} (hkey : key ∈ a.keys) :
    key ≠ [] := by
  intro hnil
  have h := km.keys_normalized ha hkey
  rw [hnil, normalizeKey, if_pos rfl] at h
  cases h

/-- Two actions of a context with one key never apply together. -/
theorem never_together (km : Keymap py) {a b : Action} (ha : a ∈ km.actions) (hb : b ∈ km.actions)
    (hcontext : a.context = b.context) {key : List Char} (hka : key ∈ a.keys) (hkb : key ∈ b.keys)
    {flags : Finset String} (happlies : a.applies flags = true) (happlies' : b.applies flags = true) : a = b := by
  have hcollect := getD_collect (bindings km.actions) Dict.empty (b.context, key)
  rw [Dict.get?_empty, Option.getD_none, List.nil_append] at hcollect
  have hgroup : ∀ c ∈ km.actions, c.context = b.context → key ∈ c.keys →
      c ∈ ((byKey km.actions).get? (b.context, key)).getD [] := by
    intro c hc hcc hck
    rw [byKey, hcollect, List.mem_map]
    exact ⟨((b.context, key), c), by simp [mem_bindings, hc, hcc, hck], rfl⟩
  cases hget : (byKey km.actions).get? (b.context, key) with
  | none =>
    rw [hget] at hgroup
    exact absurd (hgroup b hb rfl hkb) (by simp)
  | some group =>
    rw [hget, Option.getD_some] at hgroup
    have hclash := checkClashes_ok (check_ok km.checked).2 _ (Dict.mem_items_iff.mpr hget)
    by_contra hne
    have hexcludes := (clash_none hclash).forall (hgroup a ha hcontext hka) (hgroup b hb rfl hkb) hne
    exact absurd (Action.not_both_apply hexcludes happlies) (by simp [happlies'])

end Keymap
/-! ## 2. The nearest action -/

/-- An action that applies, in the first of the contexts where one is bound to
the key and applies. -/
def Nearest (actions : List Action) (flags : Finset String) (key : List Char) (contexts : List String)
    (a : Action) : Prop :=
  a ∈ actions ∧ key ∈ a.keys ∧ a.applies flags = true ∧ ∃ nearer rest, contexts = nearer ++ a.context :: rest
    ∧ ∀ b ∈ actions, b.context ∈ nearer → key ∈ b.keys → b.applies flags = false

section Gather

variable {actions : List Action} {flags : Finset String} {nearest : Bool} {claimed : List (List Char)}

theorem unclaimed_eq_some {a a' : Action} (h : a.unclaimed claimed = some a') :
    a' = { a with keys := a'.keys } ∧ ∀ k ∈ a'.keys, k ∈ a.keys ∧ k ∉ claimed := by
  simp only [Action.unclaimed] at h
  split at h
  · cases h
  · obtain rfl := Option.some.inj h
    exact ⟨rfl, fun k hk => ⟨(List.mem_filter.mp hk).1, by simpa using (List.mem_filter.mp hk).2⟩⟩

theorem unclaimed_of_mem {a : Action} {key : List Char} (hkey : key ∈ a.keys) (hclaimed : key ∉ claimed) :
    ∃ a', a.unclaimed claimed = some a' ∧ key ∈ a'.keys ∧ a' = { a with keys := a'.keys } := by
  have hmem : key ∈ a.keys.filter (· ∉ claimed) := List.mem_filter.mpr ⟨hkey, by simpa using hclaimed⟩
  refine ⟨{ a with keys := a.keys.filter (· ∉ claimed) }, ?_, hmem, rfl⟩
  simp only [Action.unclaimed, if_neg (List.ne_nil_of_mem hmem)]

/-- The actions of one context that `gather` shows. -/
theorem mem_visible {a' : Action} {own : List Action}
    (h : a' ∈ own.filterMap fun a => if (nearest || (some flags).isNone) = true then some a else a.unclaimed claimed) :
    ∃ a ∈ own, (a' = { a with keys := a'.keys }) ∧ ∀ k ∈ a'.keys, k ∈ a.keys ∧ (nearest = true ∨ k ∉ claimed) := by
  obtain ⟨a, ha, hsome⟩ := List.mem_filterMap.mp h
  refine ⟨a, ha, ?_⟩
  split at hsome
  · next hnearest =>
    obtain rfl := Option.some.inj hsome
    exact ⟨rfl, fun k hk => ⟨hk, .inl (by simpa using hnearest)⟩⟩
  · obtain ⟨heq, hkeys⟩ := unclaimed_eq_some hsome
    exact ⟨heq, fun k hk => ⟨(hkeys k hk).1, .inr (hkeys k hk).2⟩⟩

/-- An action with a key that is not claimed is shown with it. -/
theorem visible_of_unclaimed {a : Action} {own : List Action} {key : List Char} (ha : a ∈ own) (hkey : key ∈ a.keys)
    (hclaimed : key ∉ claimed) :
    ∃ a' ∈ own.filterMap fun a => if (nearest || (some flags).isNone) = true then some a else a.unclaimed claimed,
      key ∈ a'.keys ∧ a' = { a with keys := a'.keys } := by
  by_cases hnearest : (nearest || (some flags).isNone) = true
  · exact ⟨a, List.mem_filterMap.mpr ⟨a, ha, if_pos hnearest⟩, hkey, rfl⟩
  · obtain ⟨a', ha', hmem⟩ := unclaimed_of_mem hkey hclaimed
    exact ⟨a', List.mem_filterMap.mpr ⟨a, ha, by rw [if_neg hnearest, ha']⟩, hmem⟩

theorem mem_claims {contexts : String} {key : List Char} :
    key ∈ ((actions.filter (·.context = contexts)).filter (·.applies flags)).flatMap Action.keys
      ↔ ∃ b ∈ actions, b.context = contexts ∧ b.applies flags = true ∧ key ∈ b.keys := by
  simp only [List.mem_flatMap, List.mem_filter, decide_eq_true_eq]
  constructor
  · rintro ⟨b, ⟨⟨hb, hcontext⟩, happlies⟩, hkey⟩
    exact ⟨b, hb, hcontext, happlies, hkey⟩
  · rintro ⟨b, hb, hcontext, happlies, hkey⟩
    exact ⟨b, ⟨⟨hb, hcontext⟩, happlies⟩, hkey⟩

/-- What is shown is an action with those of its keys that no applicable
action of a nearer context has. -/
theorem mem_gather {contexts : List String} {a' : Action}
    (h : a' ∈ Keymap.gather actions (some flags) nearest claimed contexts) :
    ∃ a ∈ actions, (a' = { a with keys := a'.keys }) ∧ ∃ nearer rest, contexts = nearer ++ a.context :: rest
      ∧ ∀ k ∈ a'.keys, k ∈ a.keys ∧ ((nearest = true ∧ nearer = []) ∨ k ∉ claimed)
        ∧ ∀ b ∈ actions, b.context ∈ nearer → k ∈ b.keys → b.applies flags = false := by
  induction contexts generalizing nearest claimed with
  | nil => simp [Keymap.gather] at h
  | cons context rest ih =>
    rw [Keymap.gather] at h
    obtain h | h := List.mem_append.mp h
    · obtain ⟨a, ha, heq, hkeys⟩ := mem_visible h
      obtain ⟨ha, hcontext⟩ := List.mem_filter.mp ha
      refine ⟨a, ha, heq, [], rest, by simpa using (of_decide_eq_true hcontext).symm, ?_⟩
      intro k hk
      exact ⟨(hkeys k hk).1, (hkeys k hk).2.imp (fun h => ⟨h, rfl⟩) id, by simp⟩
    · obtain ⟨a, ha, heq, nearer, rest, rfl, hkeys⟩ := ih h
      refine ⟨a, ha, heq, context :: nearer, rest, rfl, ?_⟩
      intro k hk
      obtain ⟨hka, hunclaimed, hnearer⟩ := hkeys k hk
      have hunclaimed := hunclaimed.resolve_left (by simp)
      rw [List.mem_append, not_or] at hunclaimed
      refine ⟨hka, .inr hunclaimed.1, ?_⟩
      intro b hb hcontext hkb
      obtain rfl | hcontext := List.mem_cons.mp hcontext
      · by_contra happlies
        exact hunclaimed.2 (mem_claims.mpr ⟨b, hb, rfl, by simpa using happlies, hkb⟩)
      · exact hnearer b hb hcontext hkb

/-- A key that an applicable action has is shown with one. -/
theorem gather_complete {contexts : List String} {a : Action} {key : List Char} (hclaimed : key ∉ claimed)
    (ha : a ∈ actions) (hcontext : a.context ∈ contexts) (hkey : key ∈ a.keys) (happlies : a.applies flags = true) :
    ∃ a' ∈ Keymap.gather actions (some flags) nearest claimed contexts,
      key ∈ a'.keys ∧ a'.applies flags = true := by
  induction contexts generalizing nearest claimed with
  | nil => simp at hcontext
  | cons context rest ih =>
    have hown : ∀ b ∈ actions, b.context = context → key ∈ b.keys → b.applies flags = true →
        ∃ a' ∈ Keymap.gather actions (some flags) nearest claimed (context :: rest),
          key ∈ a'.keys ∧ a'.applies flags = true := by
      intro b hb hbc hkb hab
      have hmem : b ∈ actions.filter (·.context = context) := List.mem_filter.mpr ⟨hb, by simpa using hbc⟩
      obtain ⟨a', ha', hka', heq⟩ := visible_of_unclaimed hmem hkb hclaimed
      refine ⟨a', ?_, hka', ?_⟩
      · rw [Keymap.gather]
        exact List.mem_append_left _ ha'
      · rw [heq]
        exact hab
    by_cases hclaims : ∃ b ∈ actions, b.context = context ∧ b.applies flags = true ∧ key ∈ b.keys
    · obtain ⟨b, hb, hbc, hab, hkb⟩ := hclaims
      exact hown b hb hbc hkb hab
    · obtain rfl | hlater := List.mem_cons.mp hcontext
      · exact absurd ⟨a, ha, rfl, happlies, hkey⟩ hclaims
      · have hnext : key ∉ claimed ++ ((actions.filter (·.context = context)).filter
            (·.applies flags)).flatMap Action.keys := by
          rw [List.mem_append, not_or]
          exact ⟨hclaimed, fun h => hclaims (mem_claims.mp h)⟩
        obtain ⟨a', ha', hrest⟩ := ih hnext hlater
        refine ⟨a', ?_, hrest⟩
        rw [Keymap.gather]
        exact List.mem_append_right _ ha'

end Gather

namespace Keymap

variable (km : Keymap py) {context : String} {flags : Finset String} {key : List Char}

theorem nearest_unique {a b : Action} (ha : Nearest km.actions flags key (chain context) a)
    (hb : Nearest km.actions flags key (chain context) b) : a = b := by
  obtain ⟨ha, hka, haa, nearer, rest, hsplit, hnearer⟩ := ha
  obtain ⟨hb, hkb, hab, nearer', rest', hsplit', hnearer'⟩ := hb
  rw [hsplit] at hsplit'
  obtain ⟨middle, hmiddle | hmiddle⟩ : ∃ middle, nearer' = nearer ++ middle ∨ nearer = nearer' ++ middle := by
    obtain h | h := List.append_eq_append_iff.mp hsplit'
    · obtain ⟨middle, h, -⟩ := h
      exact ⟨middle, .inl h⟩
    · obtain ⟨middle, h, -⟩ := h
      exact ⟨middle, .inr h⟩
  · cases middle with
    | nil =>
      rw [List.append_nil] at hmiddle
      rw [hmiddle] at hsplit'
      have hcontext := (List.cons.inj (List.append_cancel_left hsplit')).1
      exact km.never_together ha hb hcontext hka hkb haa hab
    | cons c middle =>
      rw [hmiddle, List.append_assoc] at hsplit'
      have hc := (List.cons.inj (List.append_cancel_left hsplit')).1
      exact absurd (hnearer' a ha (by simp [hmiddle, hc]) hka) (by simp [haa])
  · cases middle with
    | nil =>
      rw [List.append_nil] at hmiddle
      rw [hmiddle] at hsplit'
      have hcontext := (List.cons.inj (List.append_cancel_left hsplit')).1
      exact km.never_together ha hb hcontext hka hkb haa hab
    | cons c middle =>
      rw [hmiddle, List.append_assoc] at hsplit'
      have hc := (List.cons.inj (List.append_cancel_left hsplit')).1
      exact absurd (hnearer b hb (by simp [hmiddle, hc]) hkb) (by simp [hab])

/-- What a shown action that applies has as a key, it is the nearest for. -/
theorem nearest_of_shown {a' : Action} (h : a' ∈ km.inContext context (some flags)) (happlies : a'.applies flags = true)
    (hkey : key ∈ a'.keys) :
    ∃ a, Nearest km.actions flags key (chain context) a ∧ a' = { a with keys := a'.keys } := by
  obtain ⟨a, ha, heq, nearer, rest, hsplit, hkeys⟩ := mem_gather h
  obtain ⟨hka, -, hnearer⟩ := hkeys key hkey
  have happ : a.applies flags = true := by rw [heq] at happlies; exact happlies
  exact ⟨a, ⟨ha, hka, happ, nearer, rest, hsplit, hnearer⟩, heq⟩

/-- The nearest action is what the key triggers, with the keys that are its
own in this context. -/
theorem resolve_of_nearest {a : Action} (h : Nearest km.actions flags key (chain context) a) :
    ∃ keys, km.resolve context key flags = some { a with keys } := by
  obtain ⟨ha, hka, haa, nearer, rest, hsplit, hnearer⟩ := id h
  have hne : key ≠ [] := km.key_ne_nil ha hka
  obtain ⟨a', ha', hka', haa'⟩ := gather_complete List.not_mem_nil ha
    (by rw [hsplit]; simp : a.context ∈ chain context) hka haa
  cases hfind : (km.inContext context (some flags)).find? fun a => key ∈ a.keys && a.applies flags with
  | none => exact absurd (List.find?_eq_none.mp hfind a' ha') (by simp [hka', haa'])
  | some found =>
    have hfound := List.find?_some hfind
    simp only [Bool.and_eq_true, decide_eq_true_eq] at hfound
    obtain ⟨b, hb, heq⟩ := km.nearest_of_shown (List.mem_of_find?_eq_some hfind) hfound.2 hfound.1
    obtain rfl := km.nearest_unique hb h
    exact ⟨found.keys, by rw [resolve, if_neg hne, hfind, ← heq]⟩

theorem nearest_of_resolve {found : Action} (h : km.resolve context key flags = some found) :
    ∃ a, Nearest km.actions flags key (chain context) a ∧ found = { a with keys := found.keys } := by
  rw [resolve] at h
  split at h
  · cases h
  · have hfound := List.find?_some h
    simp only [Bool.and_eq_true, decide_eq_true_eq] at hfound
    exact km.nearest_of_shown (List.mem_of_find?_eq_some h) hfound.2 hfound.1

/-- Nothing is triggered only where no action of the contexts applies. -/
theorem resolve_eq_none : km.resolve context key flags = none ↔
    ∀ a ∈ km.actions, a.context ∈ chain context → key ∈ a.keys → a.applies flags = false := by
  constructor
  · intro h a ha hcontext hka
    by_contra happlies
    obtain ⟨a', ha', hka', haa'⟩ := gather_complete List.not_mem_nil ha hcontext hka
      (by simpa using happlies : a.applies flags = true)
    rw [resolve, if_neg (km.key_ne_nil ha hka)] at h
    exact absurd (List.find?_eq_none.mp h a' ha') (by simp [hka', haa'])
  · intro h
    cases hresolve : km.resolve context key flags with
    | none => rfl
    | some found =>
      obtain ⟨a, ⟨ha, hka, haa, nearer, rest, hsplit, -⟩, -⟩ := km.nearest_of_resolve hresolve
      exact absurd (h a ha (by rw [hsplit]; simp) hka) (by simp [haa])

end Keymap

/-! ## 3. The keys of the hints -/

namespace Keymap

variable (km : Keymap py) {context : String} {flags : Finset String}

/-- The actions that the hints are for. -/
def shown (km : Keymap py) (context : String) (flags : Finset String) (limit : Option Nat) : List Action :=
  match limit with
  | none => km.ranked context flags
  | some n => (km.ranked context flags).take n

/-- Every key of a hint triggers the action it is shown for. -/
def HintsResolve (km : Keymap py) (context : String) (flags : Finset String) (limit : Option Nat) : Prop :=
  ∀ a ∈ km.shown context flags limit, ∀ p ∈ km.hintKeys a,
    ∃ found, km.resolve context p.2 flags = some found ∧ found.name = p.1.name

/-- The key shown for a pair is one that its action has here: it applies, in a
context that is asked, and no nearer action that applies has the key. -/
def PartnersInReach (km : Keymap py) (context : String) (flags : Finset String) (limit : Option Nat) : Prop :=
  ∀ a ∈ km.shown context flags limit, a.paired ≠ "" → ∀ partner, km.action? a.paired = some partner →
    ∀ key ∈ partner.keys.head?, Nearest km.actions flags key (chain context) partner

theorem resolves_to_iff {a : Action} (ha : a ∈ km.actions) {key : List Char} :
    (∃ found, km.resolve context key flags = some found ∧ found.name = a.name)
      ↔ Nearest km.actions flags key (chain context) a := by
  constructor
  · rintro ⟨found, hresolve, hname⟩
    obtain ⟨b, hb, heq⟩ := km.nearest_of_resolve hresolve
    have hbname : b.name = a.name := by rw [← hname, heq]
    obtain rfl := km.eq_of_name hb.1 ha hbname
    exact hb
  · intro h
    obtain ⟨keys, hkeys⟩ := km.resolve_of_nearest h
    exact ⟨_, hkeys, rfl⟩

theorem mem_shown {limit : Option Nat} {a : Action} (h : a ∈ km.shown context flags limit) :
    a ∈ km.inContext context (some flags) ∧ a.keys ≠ [] ∧ a.applies flags = true := by
  have hranked : a ∈ km.ranked context flags := by
    cases limit with
    | none => exact h
    | some n => exact List.mem_of_mem_take h
  rw [ranked, List.mem_mergeSort, List.mem_filter] at hranked
  simp only [Bool.and_eq_true, decide_eq_true_eq] at hranked
  exact ⟨hranked.1, hranked.2.1.2, hranked.2.2⟩

theorem own_key_resolves {limit : Option Nat} {a : Action} (h : a ∈ km.shown context flags limit) {key : List Char}
    (hkey : key ∈ a.keys) : ∃ found, km.resolve context key flags = some found ∧ found.name = a.name := by
  obtain ⟨hmem, -, happlies⟩ := km.mem_shown h
  obtain ⟨b, hb, heq⟩ := km.nearest_of_shown hmem happlies hkey
  have hname : a.name = b.name := by rw [heq]
  rw [hname]
  exact (km.resolves_to_iff hb.1).mpr hb

theorem hints_resolve_iff (limit : Option Nat) :
    km.HintsResolve context flags limit ↔ km.PartnersInReach context flags limit := by
  constructor
  · intro h a ha hpaired partner hpartner key hkey
    obtain ⟨first, rest, hkeys⟩ : ∃ first rest, partner.keys = first :: rest := by
      cases hkeys : partner.keys with
      | nil => simp [hkeys] at hkey
      | cons first rest => exact ⟨first, rest, rfl⟩
    obtain rfl : first = key := by simpa [hkeys] using hkey
    have hmem : partner ∈ km.actions := List.mem_of_find?_eq_some hpartner
    refine (km.resolves_to_iff hmem).mp (h a ha (partner, first) ?_)
    simp [hintKeys, hpaired, hpartner, hkeys]
  · intro h a ha p hp
    have hown : p ∈ (a.keys.take 1).map (a, ·) →
        ∃ found, km.resolve context p.2 flags = some found ∧ found.name = p.1.name := by
      intro hp
      obtain ⟨key, hkey, rfl⟩ := List.mem_map.mp hp
      exact km.own_key_resolves ha (List.mem_of_mem_take hkey)
    rw [hintKeys] at hp
    split at hp
    · exact hown hp
    · next hpaired =>
      split at hp
      · next partner hpartner =>
        obtain hp | hp := List.mem_append.mp hp
        · obtain ⟨key, hkey, rfl⟩ := List.mem_map.mp hp
          have hhead : key ∈ partner.keys.head? := by
            rw [List.take_one] at hkey
            exact Option.mem_toList.mp hkey
          exact (km.resolves_to_iff (List.mem_of_find?_eq_some hpartner)).mpr (h a ha hpaired partner hpartner key hhead)
        · exact hown hp
      · exact hown hp

end Keymap

/-! ## 4. Canonical names -/

theorem lowerText_ascii {text : List Char} (h : ∀ c ∈ text, c.toNat < 128) :
    lowerText py text = text.map Char.toLower := by
  induction text with
  | nil => rfl
  | cons c text ih =>
    rw [List.forall_mem_cons] at h
    have htext : text.flatMap py.lower = text.map Char.toLower := ih h.2
    rw [lowerText, List.flatMap_cons, py.lower_ascii c h.1, htext]
    rfl

theorem lowerText_modifier {m : List Char} (h : m ∈ modifierNames) : lowerText py m = m := by
  have hclosed : ∀ m ∈ modifierNames, (∀ c ∈ m, c.toNat < 128) ∧ m.map Char.toLower = m := by decide
  rw [lowerText_ascii (hclosed m h).1, (hclosed m h).2]

theorem modifiers_of_parts (py : CharTable) {parts ms : List (List Char)} {base : List Char} (hparts : parts = ms ++ [base])
    (hms : ∀ m ∈ ms, m ∈ modifierNames) :
    parts.dropLast.map (lowerText py) = ms ∧ parts.getLast?.getD [] = base
      ∧ (ms.all fun m => decide (m ∈ modifierNames)) = true := by
  refine ⟨?_, by simp [hparts], by simpa using hms⟩
  rw [hparts, List.dropLast_concat]
  exact List.map_congr_left (fun m hm => lowerText_modifier (hms m hm)) |>.trans (List.map_id ms)

theorem normalizeBody_named {key body base : List Char} {ms : List (List Char)}
    (halias : assocGet (lowerText py body) aliases = none) (hparts : keyParts body = ms ++ [base])
    (hms : ∀ m ∈ ms, m ∈ modifierNames) (hbase : base ∈ namedKeys) :
    normalizeBody py key body = .ok (joinKey ms base) := by
  have hclosed : ∀ b ∈ namedKeys, (∀ c ∈ b, c.toNat < 128) ∧ b.map Char.toLower = b ∧ assocGet b aliases = none
      ∧ 1 < b.length := by decide
  obtain ⟨hascii, hlower, hnone, hlength⟩ := hclosed base hbase
  obtain ⟨h1, h2, h3⟩ := modifiers_of_parts py hparts hms
  simp only [normalizeBody, halias, Option.getD_none, h1, h2, h3, Bool.not_true, Bool.false_eq_true, if_false]
  split
  · simp at hlength
  · rw [lowerText_ascii hascii, hlower, hnone, Option.getD_none, if_pos hbase]

theorem normalizeBody_single {key body : List Char} {c : Char} {ms : List (List Char)}
    (halias : assocGet (lowerText py body) aliases = none) (hparts : keyParts body = ms ++ [[c]])
    (hms : ∀ m ∈ ms, m ∈ modifierNames) :
    normalizeBody py key body =
      if ms = ["shift".toList] ∧ py.isAlpha c then .ok (py.upper c)
      else if ms ≠ [] ∧ py.isAlpha c then
        if "shift".toList ∉ ms ∧ py.isUpper c ∧ ms ≠ ["ctrl".toList] then
          .ok (joinKey (ms ++ ["shift".toList]) (py.lower c))
        else .ok (joinKey ms (py.lower c))
      else .ok (joinKey ms [c]) := by
  obtain ⟨h1, h2, h3⟩ := modifiers_of_parts py hparts hms
  simp only [normalizeBody, halias, Option.getD_none, h1, h2, h3, Bool.not_true, Bool.false_eq_true, if_false]

/-- A spelling of more than one character, without a leader. -/
theorem normalizeKey_body {key : List Char} (hleader : LEADER.isPrefixOf key = false) (hlength : 1 < key.length) :
    normalizeKey py key = normalizeBody py key key := by
  match key, hlength with
  | a :: b :: rest, _ =>
    rw [normalizeKey, if_neg (by simp)]
    simp only [hleader, Bool.false_eq_true, if_false, List.length_nil, List.drop_zero, List.nil_append]
    cases normalizeBody py (a :: b :: rest) (a :: b :: rest) <;> rfl

/-- Modifiers in their order and a named key. -/
def CanonicalName (name : List Char) : Prop := ∃ ms ∈ modifierNames.sublists, ∃ base ∈ namedKeys, name = joinKey ms base

/-- Modifiers in their order, each with a plus sign, then the key. -/
theorem joinKey_canonical {ms : List (List Char)} (hms : ms ∈ modifierNames.sublists) (base : List Char) :
    joinKey ms base = ['+'].intercalate (ms ++ [base]) ∧ joinKey ms base = ms.flatMap (· ++ ['+']) ++ base := by
  have hfilter : ∀ ms ∈ modifierNames.sublists, modifierNames.filter (· ∈ ms) = ms := by decide
  have hjoin : ∀ ms : List (List Char), ['+'].intercalate (ms ++ [base]) = ms.flatMap (· ++ ['+']) ++ base := by
    intro ms
    induction ms with
    | nil => simp
    | cons m ms ih =>
      rw [List.cons_append, List.intercalate_cons_of_ne_nil (by simp), ih]
      simp
  rw [joinKey, hfilter ms hms]
  exact ⟨rfl, hjoin ms⟩

theorem canonical_closed {ms : List (List Char)} {base : List Char} (hms : ms ∈ modifierNames.sublists)
    (hbase : base ∈ namedKeys) : 1 < (joinKey ms base).length
      ∧ ∀ c ∈ joinKey ms base, c.toNat < 128 ∧ c.toLower = c ∧ c ∉ LEADER.head? := by
  have hnames : ∀ m ∈ modifierNames, ∀ c ∈ m ++ ['+'], c.toNat < 128 ∧ c.toLower = c ∧ c ∉ LEADER.head? := by decide
  have hkeys : ∀ b ∈ namedKeys, 1 < b.length ∧ ∀ c ∈ b, c.toNat < 128 ∧ c.toLower = c ∧ c ∉ LEADER.head? := by decide
  obtain ⟨hlength, hchars⟩ := hkeys base hbase
  rw [(joinKey_canonical hms base).2]
  refine ⟨by rw [List.length_append]; omega, fun c hc => ?_⟩
  obtain hc | hc := List.mem_append.mp hc
  · obtain ⟨m, hm, hc⟩ := List.mem_flatMap.mp hc
    exact hnames m ((List.mem_sublists.mp hms).subset hm) c hc
  · exact hchars c hc

theorem canonical_parts {ms : List (List Char)} {base : List Char} (hms : ms ∈ modifierNames.sublists)
    (hbase : base ∈ namedKeys) : keyParts (joinKey ms base) = ms ++ [base] := by
  have hnames : ∀ m ∈ modifierNames, '+' ∉ m := by decide
  have hkeys : ∀ b ∈ namedKeys, '+' ∉ b ∧ b ≠ [] := by decide
  obtain ⟨hplus, hne⟩ := hkeys base hbase
  have hsuffix : ¬ ['+', '+'] <:+ joinKey ms base := by
    rintro ⟨before, h⟩
    have hlast := congrArg List.getLast? h
    rw [(joinKey_canonical hms base).2, List.getLast?_append, List.getLast?_append_of_ne_nil _ hne] at hlast
    exact hplus (List.mem_of_getLast? hlast.symm)
  rw [keyParts, if_neg hsuffix, (joinKey_canonical hms base).1]
  refine List.splitOn_intercalate '+' (fun l hl => ?_) (by simp)
  obtain hl | hl := List.mem_append.mp hl
  · exact hnames l ((List.mem_sublists.mp hms).subset hl)
  · rw [List.mem_singleton.mp hl]
    exact hplus

theorem canonical_alias {ms : List (List Char)} {base : List Char} (hms : ms ∈ modifierNames.sublists)
    (hbase : base ∈ namedKeys) (hne : (ms, base) ≠ (["ctrl".toList], "enter".toList)) :
    assocGet (joinKey ms base) aliases = none := by
  have hclosed : ∀ p ∈ aliases, keyParts p.1 = ["ctrl".toList, "enter".toList]
      ∨ keyParts p.1 = [p.1] ∧ p.1 ∉ namedKeys := by decide
  cases halias : assocGet (joinKey ms base) aliases with
  | none => rfl
  | some name =>
    obtain hparts | ⟨hparts, hnot⟩ := hclosed _ (mem_of_assocGet halias)
    · rw [canonical_parts hms hbase] at hparts
      have hinit := congrArg List.dropLast hparts
      have hlast := congrArg List.getLast? hparts
      rw [List.dropLast_concat] at hinit
      rw [List.getLast?_concat] at hlast
      exact absurd (Prod.ext hinit (Option.some.inj hlast)) hne
    · rw [canonical_parts hms hbase] at hparts
      have hlast := congrArg List.getLast? hparts
      rw [List.getLast?_concat] at hlast
      have heq : base = joinKey ms base := Option.some.inj hlast
      exact absurd (heq.subst (motive := (· ∈ namedKeys)) hbase) hnot

theorem canonical_fixed {ms : List (List Char)} {base : List Char} (hms : ms ∈ modifierNames.sublists)
    (hbase : base ∈ namedKeys) (hne : (ms, base) ≠ (["ctrl".toList], "enter".toList)) :
    normalizeKey py (joinKey ms base) = .ok (joinKey ms base) := by
  obtain ⟨hlength, hchars⟩ := canonical_closed hms hbase
  have hascii : ∀ c ∈ joinKey ms base, c.toNat < 128 := fun c hc => (hchars c hc).1
  have hlower : (joinKey ms base).map Char.toLower = joinKey ms base :=
    (List.map_congr_left fun c hc => (hchars c hc).2.1).trans (List.map_id _)
  have hleader : LEADER.isPrefixOf (joinKey ms base) = false := by
    rw [Bool.eq_false_iff, ne_eq, List.isPrefixOf_iff_prefix]
    rintro ⟨rest, h⟩
    exact (hchars '<' (h ▸ List.mem_append_left _ (by decide))).2.2 (by decide)
  have hsub : ∀ m ∈ ms, m ∈ modifierNames := fun m hm => (List.mem_sublists.mp hms).subset hm
  rw [normalizeKey_body hleader hlength]
  refine normalizeBody_named ?_ (canonical_parts hms hbase) hsub hbase
  rw [lowerText_ascii hascii, hlower]
  exact canonical_alias hms hbase hne

theorem keyParts_concat (front : List (List Char)) (hfront : ∀ m ∈ front, '+' ∉ m) (hne : front ≠ []) (c : Char) :
    keyParts (['+'].intercalate front ++ ['+', c]) = front ++ [[c]] := by
  rw [keyParts]
  by_cases hc : c = '+'
  · subst hc
    rw [if_pos (List.suffix_append _ _)]
    have hbody : (['+'].intercalate front ++ ['+', '+']).dropLast.dropLast = ['+'].intercalate front := by
      rw [show ['+', '+'] = ['+'] ++ ['+'] from rfl, ← List.append_assoc, List.dropLast_concat, List.dropLast_concat]
    rw [hbody, List.splitOn_intercalate '+' hfront hne]
  · have hsuffix : ¬ ['+', '+'] <:+ ['+'].intercalate front ++ ['+', c] := by
      rintro ⟨before, h⟩
      have hlast := congrArg List.getLast? h
      simp only [List.getLast?_append, List.getLast?_cons_cons, List.getLast?_singleton, Option.some_or,
        Option.some.injEq] at hlast
      exact hc hlast.symm
    rw [if_neg hsuffix, List.splitOn_append_cons_self, List.splitOn_intercalate '+' hfront hne,
      List.splitOn_eq_singleton (by simpa using Ne.symm hc)]

theorem alias_none_alt (rest : List Char) : assocGet ("alt+".toList ++ rest) aliases = none := by
  simp [aliases, assocGet]

theorem lowerText_alt (rest : List Char) : lowerText py ("alt+".toList ++ rest) = "alt+".toList ++ lowerText py rest := by
  rw [lowerText, List.flatMap_append]
  have halt : lowerText py "alt+".toList = "alt+".toList := lowerText_ascii (by decide)
  exact congrArg (· ++ _) halt

theorem normalizeKey_alt (py : CharTable) (rest : List Char) :
    normalizeKey py ("alt+".toList ++ rest) = normalizeBody py ("alt+".toList ++ rest) ("alt+".toList ++ rest) :=
  normalizeKey_body rfl (by simp)

theorem alias_alt (rest : List Char) : assocGet (lowerText py ("alt+".toList ++ rest)) aliases = none := by
  rw [lowerText_alt, alias_none_alt]

theorem joinKey_alt (base : List Char) : joinKey ["alt".toList] base = "alt+".toList ++ base := by
  have hfilter : modifierNames.filter (· ∈ ["alt".toList]) = ["alt".toList] := by decide
  rw [joinKey, hfilter]
  simp [List.intercalate]

theorem joinKey_alt_shift (base : List Char) :
    joinKey (["alt".toList] ++ ["shift".toList]) base = "alt+shift+".toList ++ base := by
  have hfilter : modifierNames.filter (· ∈ ["alt".toList] ++ ["shift".toList]) = ["alt".toList, "shift".toList] := by
    decide
  rw [joinKey, hfilter]
  simp [List.intercalate]

theorem normalizeKey_alt_char (c : Char) : normalizeKey py ("alt+".toList ++ [c]) =
    .ok (if py.isAlpha c then
        (if py.isUpper c then "alt+shift+".toList ++ py.lower c else "alt+".toList ++ py.lower c)
      else "alt+".toList ++ [c]) := by
  have hparts : keyParts ("alt+".toList ++ [c]) = ["alt".toList] ++ [[c]] :=
    keyParts_concat ["alt".toList] (by decide) (by decide) c
  rw [normalizeKey_alt, normalizeBody_single (alias_alt _) hparts (by decide),
    if_neg (fun h => absurd h.1 (by decide : ["alt".toList] ≠ ["shift".toList]))]
  by_cases halpha : py.isAlpha c = true
  · rw [if_pos ⟨by decide, halpha⟩, if_pos halpha]
    by_cases hupper : py.isUpper c = true
    · rw [if_pos ⟨by decide, hupper, by decide⟩, if_pos hupper]
      exact congrArg _ (joinKey_alt_shift _)
    · rw [if_neg (fun h => hupper h.2.1), if_neg hupper, joinKey_alt]
  · rw [if_neg (fun h => halpha h.2), if_neg halpha, joinKey_alt]

theorem normalizeKey_single (c : Char) :
    normalizeKey py [c] = .ok (if c = ' ' then "space".toList else [c]) := by
  have hleader : LEADER.isPrefixOf [c] = false := by
    rw [Bool.eq_false_iff, Ne, List.isPrefixOf_iff_prefix]
    intro h
    have hle := h.length_le
    rw [(by decide : LEADER.length = 8)] at hle
    simp at hle
  rw [normalizeKey, if_neg (by simp)]
  simp only [hleader, Bool.false_eq_true, if_false, List.length_nil, List.drop_zero, List.nil_append]

theorem normalizeKey_alt_shift_char (d : Char) : normalizeKey py ("alt+shift+".toList ++ [d]) =
    .ok ("alt+shift+".toList ++ if py.isAlpha d then py.lower d else [d]) := by
  have hparts : keyParts ("alt+shift+".toList ++ [d]) = (["alt".toList] ++ ["shift".toList]) ++ [[d]] :=
    keyParts_concat (["alt".toList] ++ ["shift".toList]) (by decide) (by decide) d
  have hspelling : "alt+shift+".toList ++ [d] = "alt+".toList ++ ("shift+".toList ++ [d]) := by
    rw [← List.append_assoc, (by decide : "alt+".toList ++ "shift+".toList = "alt+shift+".toList)]
  have hbody := normalizeKey_alt py ("shift+".toList ++ [d])
  rw [← hspelling] at hbody
  rw [hbody, normalizeBody_single (hspelling ▸ alias_alt _) hparts (by decide),
    if_neg (fun h => absurd h.1 (by decide : ["alt".toList] ++ ["shift".toList] ≠ ["shift".toList]))]
  by_cases halpha : py.isAlpha d = true
  · rw [if_pos ⟨by decide, halpha⟩, if_pos halpha, joinKey_alt_shift,
      if_neg (fun h => h.1 (by decide : "shift".toList ∈ ["alt".toList] ++ ["shift".toList]))]
  · rw [if_neg (fun h => halpha h.2), if_neg halpha, joinKey_alt_shift]

/-- The lower case of `U+0130` is no key. -/
theorem normalizeKey_dotted (name : List Char) :
    normalizeKey py ("alt+shift+".toList ++ ['i', '\u0307']) ≠ .ok name := by
  have hspelling : "alt+shift+".toList ++ ['i', '\u0307'] = "alt+".toList ++ "shift+i\u0307".toList := by decide
  have hparts : keyParts ("alt+".toList ++ "shift+i\u0307".toList)
      = ["alt".toList, "shift".toList] ++ [['i', '\u0307']] := by decide
  obtain ⟨d, hd⟩ := py.lower_one '\u0307' (by decide)
  have hlower : lowerText py ['i', '\u0307'] = ['i', d] := by
    rw [lowerText, List.flatMap_cons, List.flatMap_cons, hd, py.lower_ascii 'i' (by decide)]
    rfl
  have hnone : assocGet ['i', d] aliases = none := by simp [aliases, assocGet]
  have hkey : ['i', d] ∉ namedKeys := by simp [namedKeys]
  obtain ⟨h1, h2, h3⟩ := modifiers_of_parts py hparts (by decide)
  intro h
  rw [hspelling, normalizeKey_alt] at h
  simp only [normalizeBody, alias_alt, Option.getD_none, h1, h2, h3, Bool.not_true, Bool.false_eq_true,
    if_false, hlower, hnone, if_neg hkey] at h
  cases h

/-- The characters that Ctrl is reported with. -/
def ctrlChars : List Char := "abcdefgjklnopqrstuvwxyz\\]^_".toList

theorem normalizeBody_ctrlChar {key body : List Char} {ms : List (List Char)} {c : Char} (hc : c ∈ ctrlChars)
    (halias : assocGet (lowerText py body) aliases = none) (hparts : keyParts body = ms ++ [[c]])
    (hms : ∀ m ∈ ms, m ∈ modifierNames) (hshift : ms ≠ ["shift".toList]) :
    normalizeBody py key body = .ok (joinKey ms [c]) := by
  have hclosed : ∀ c ∈ ctrlChars, c.toNat < 128 ∧ c.toLower = c ∧ c.isUpper = false := by decide
  obtain ⟨hascii, hlower, hupper⟩ := hclosed c hc
  have hlower' : py.lower c = [c] := by rw [py.lower_ascii c hascii, hlower]
  have hupper' : ¬ py.isUpper c = true := by rw [py.isUpper_ascii c hascii, hupper]; simp
  rw [normalizeBody_single halias hparts hms, if_neg (fun h => hshift h.1), hlower']
  by_cases halpha : ms ≠ [] ∧ py.isAlpha c = true
  · rw [if_pos halpha, if_neg (fun h => hupper' h.2.1)]
  · rw [if_neg halpha]

theorem ctrlChar_fixed {c : Char} (hc : c ∈ ctrlChars) :
    normalizeKey py ("ctrl+".toList ++ [c]) = .ok ("ctrl+".toList ++ [c]) := by
  have hclosed : ∀ c ∈ ctrlChars, LEADER.isPrefixOf ("ctrl+".toList ++ [c]) = false
      ∧ (∀ d ∈ "ctrl+".toList ++ [c], d.toNat < 128)
      ∧ assocGet (("ctrl+".toList ++ [c]).map Char.toLower) aliases = none
      ∧ joinKey ["ctrl".toList] [c] = "ctrl+".toList ++ [c] := by decide
  obtain ⟨hleader, hascii, halias, hjoin⟩ := hclosed c hc
  have hparts : keyParts ("ctrl+".toList ++ [c]) = ["ctrl".toList] ++ [[c]] :=
    keyParts_concat ["ctrl".toList] (by decide) (by decide) c
  rw [normalizeKey_body hleader (by simp), normalizeBody_ctrlChar hc (by rw [lowerText_ascii hascii]; exact halias)
    hparts (by decide) (by decide), hjoin]

theorem alt_ctrlChar_moves {c : Char} (hc : c ∈ ctrlChars) :
    normalizeKey py ("alt+ctrl+".toList ++ [c]) = .ok ("ctrl+alt+".toList ++ [c]) := by
  have hspelling : "alt+ctrl+".toList ++ [c] = "alt+".toList ++ ("ctrl+".toList ++ [c]) := by
    rw [← List.append_assoc, (by decide : "alt+".toList ++ "ctrl+".toList = "alt+ctrl+".toList)]
  have hparts : keyParts ("alt+ctrl+".toList ++ [c]) = ["alt".toList, "ctrl".toList] ++ [[c]] :=
    keyParts_concat ["alt".toList, "ctrl".toList] (by decide) (by decide) c
  have hbody := normalizeKey_alt py ("ctrl+".toList ++ [c])
  rw [← hspelling] at hbody
  rw [hbody, normalizeBody_ctrlChar hc (hspelling ▸ alias_alt _) hparts (by decide) (by decide)]
  have hclosed : ∀ c ∈ ctrlChars, joinKey ["alt".toList, "ctrl".toList] [c] = "ctrl+alt+".toList ++ [c] := by decide
  rw [hclosed c hc]

theorem alt_ctrl_space_moves :
    normalizeKey py "alt+ctrl+space".toList = .ok "ctrl+alt+space".toList := by
  have hspelling : "alt+ctrl+space".toList = "alt+".toList ++ "ctrl+space".toList := by decide
  have hparts : keyParts ("alt+".toList ++ "ctrl+space".toList) = ["alt".toList, "ctrl".toList] ++ ["space".toList] := by
    decide
  rw [hspelling, normalizeKey_alt, normalizeBody_named (alias_alt _) hparts (by decide) (by decide)]
  decide

/-! ## 5. The names of keystrokes -/

/-- The name is empty, or the one that `normalize_key` makes of it. -/
def NameFixed (py : CharTable) (k : Keystroke) : Prop :=
  keyName py k = [] ∨ normalizeKey py (keyName py k) = .ok (keyName py k)

/-- A binding in any spelling of the key's name triggers its action. -/
def Fires (py : CharTable) (k : Keystroke) : Prop :=
  ∀ spelling key, normalizeKey py spelling = .ok key → normalizeKey py (keyName py k) = .ok key →
    ∀ (km : Keymap py) (context : String) (flags : Finset String) (a : Action),
      Nearest km.actions flags key (Keymap.chain context) a →
      ∃ found, km.resolve context (keyName py k) flags = some found ∧ found.name = a.name

/-- No Alt before a name that has Ctrl in it, and no Alt with a letter whose
lower case is another letter though it is no capital one, or with `U+0130`. -/
def Spellable (py : CharTable) (k : Keystroke) : Prop :=
  ¬ (k.key = .modified ∧ "alt+ctrl+".toList <+: k.ch)
    ∧ (k.key = .alt → ∀ c ∈ k.ch, c ≠ '\u0130' ∧ (py.isAlpha c = true → py.isUpper c = true ∨ py.lower c = [c]))

/-- The names of control keys and of escape sequences. -/
def ClosedName (name : List Char) : Prop :=
  name = [] ∨ (∃ ms ∈ modifierNames.sublists, ∃ base ∈ namedKeys,
      (ms, base) ≠ (["ctrl".toList], "enter".toList) ∧ name = joinKey ms base)
    ∨ ∃ c ∈ ctrlChars, name = "ctrl+".toList ++ [c]

instance (name : List Char) : Decidable (ClosedName name) := by
  unfold ClosedName
  infer_instance

theorem closedName_fixed {name : List Char} (h : ClosedName name) :
    (name = [] ∨ normalizeKey py name = .ok name) ∧ ¬ "alt+ctrl+".toList <+: name := by
  have hclosed : ∀ ms ∈ modifierNames.sublists, ∀ base ∈ namedKeys, ¬ "alt+ctrl+".toList <+: joinKey ms base := by
    decide
  obtain rfl | ⟨ms, hms, base, hbase, hne, rfl⟩ | ⟨c, hc, rfl⟩ := h
  · exact ⟨.inl rfl, by decide⟩
  · exact ⟨.inr (canonical_fixed hms hbase hne), hclosed ms hms base hbase⟩
  · have hchars : ∀ c ∈ ctrlChars, ¬ "alt+ctrl+".toList <+: "ctrl+".toList ++ [c] := by decide
    exact ⟨.inr (ctrlChar_fixed hc), hchars c hc⟩

/-- Only the names of Alt characters need the Unicode tables. -/
theorem keyName_table {k : Keystroke} (h : k.key ≠ .alt) (py py' : CharTable) : keyName py k = keyName py' k := by
  unfold keyName
  rw [if_neg h, if_neg h]

theorem keyName_modified (ch : List Char) : keyName py ⟨.modified, ch⟩ = ch := by
  simp [keyName, Key.isCtrlLetter, Key.value]

theorem fixed_of_closed (py : CharTable) {k : Keystroke} (hkey : k.key ≠ .alt) (h : ClosedName (keyName plainTable k)) :
    NameFixed py k ∧ Spellable py k := by
  rw [keyName_table hkey plainTable py] at h
  obtain ⟨hfixed, hnot⟩ := closedName_fixed h
  refine ⟨hfixed, ?_, fun halt => absurd halt hkey⟩
  rintro ⟨hmodified, halt⟩
  obtain ⟨key, ch⟩ := k
  obtain rfl : key = .modified := hmodified
  rw [keyName_modified] at hnot
  exact hnot halt

theorem closedName_named {base : List Char} (h : base ∈ namedKeys) : ClosedName base := by
  refine .inr (.inl ⟨[], by decide, base, h, fun heq => ?_, by simp [joinKey]⟩)
  cases (Prod.mk.inj heq).1

/-- The names of the control bytes. -/
def ControlName (name : List Char) : Prop :=
  name = [] ∨ (∃ base ∈ namedKeys, name = base) ∨ name = "ctrl+space".toList
    ∨ ∃ c ∈ ctrlChars, name = "ctrl+".toList ++ [c]

instance (name : List Char) : Decidable (ControlName name) := by
  unfold ControlName
  infer_instance

theorem control_cases (byte : UInt8) :
    (decodeControl byte).key ≠ .alt ∧ ControlName (keyName plainTable (decodeControl byte)) := by
  have hkeys : ∀ p ∈ controlKeys, p.2 ≠ .alt ∧ ControlName (keyName plainTable ⟨p.2, []⟩) := by decide
  have hnames : ∀ p ∈ controlNames, ControlName (keyName plainTable ⟨.modified, p.2.toList⟩) := by decide
  rw [decodeControl]
  split
  · rename_i key h
    exact hkeys (byte, key) (mem_of_assocGet h)
  · split
    · rename_i name h
      have hname := hnames (byte, name) (mem_of_assocGet h)
      exact ⟨fun heq => (by cases heq), hname⟩
    · decide

theorem control_closed (byte : UInt8) :
    (decodeControl byte).key ≠ .alt ∧ ClosedName (keyName plainTable (decodeControl byte)) := by
  obtain ⟨halt, hnil | hnamed | hspace | hctrl⟩ := control_cases byte
  · exact ⟨halt, .inl hnil⟩
  · obtain ⟨base, hbase, hname⟩ := hnamed
    exact ⟨halt, hname ▸ closedName_named hbase⟩
  · exact ⟨halt, .inr (.inl ⟨["ctrl".toList], by decide, "space".toList, by decide, by decide, hspace⟩)⟩
  · exact ⟨halt, .inr (.inr hctrl)⟩

theorem ss3_closed (final : Option UInt8) :
    (decodeSs3 final).key ≠ .alt ∧ ClosedName (keyName plainTable (decodeSs3 final)) := by
  have hfunctions : ∀ p ∈ ss3Functions, keyName plainTable ⟨.function, p.2.toList⟩ ∈ namedKeys := by decide
  have hcursor : ∀ p ∈ cursorFinals, p.2.1 ≠ .alt ∧ keyName plainTable ⟨p.2.1, []⟩ ∈ namedKeys := by decide
  rw [decodeSs3]
  split
  · rename_i name h
    obtain ⟨byte, -, hmem⟩ := Option.bind_eq_some_iff.mp h
    have hname := hfunctions (byte, name) (mem_of_assocGet hmem)
    exact ⟨fun heq => (by cases heq), closedName_named hname⟩
  · split
    · rename_i key name h
      obtain ⟨byte, -, hmem⟩ := Option.bind_eq_some_iff.mp h
      have hkey := hcursor (byte, key, name) (mem_of_assocGet hmem)
      exact ⟨hkey.1, closedName_named hkey.2⟩
    · exact ⟨by decide, .inl (by decide)⟩

/-- The keys of the tables, with their names. -/
def tableKeys : List (Key × String) :=
  cursorFinals.map Prod.snd ++ ss3Functions.map (fun p => (.function, p.2)) ++ tildeKeys.map Prod.snd

theorem modifiers_join (parameter : Nat) (base : List Char) :
    ∃ ms ∈ modifierNames.sublists, modifiers parameter ++ base = joinKey ms base := by
  have hclosed : ∀ c a s m : Bool, ∃ ms ∈ modifierNames.sublists,
      (if c then "ctrl+".toList else []) ++ (if a then "alt+".toList else []) ++ (if s then "shift+".toList else [])
        ++ (if m then "meta+".toList else []) = ms.flatMap (· ++ ['+']) := by decide
  obtain ⟨ms, hms, hprefixes⟩ := hclosed ((parameter - 1) &&& 4 ≠ 0) ((parameter - 1) &&& 2 ≠ 0)
    ((parameter - 1) &&& 1 ≠ 0) ((parameter - 1) &&& 8 ≠ 0)
  refine ⟨ms, hms, ?_⟩
  rw [(joinKey_canonical hms base).2, ← hprefixes]
  simp only [modifiers, List.flatMap_cons, List.flatMap_nil, List.append_nil, decide_eq_true_eq, List.append_assoc]

theorem named_closed {key : Key} {name : String} (h : (key, name) ∈ tableKeys) (modifier : Nat) :
    (named key name modifier).key ≠ .alt ∧ ClosedName (keyName plainTable (named key name modifier)) := by
  have hclosed : ∀ p ∈ tableKeys, p.1 ≠ .alt ∧ p.2.toList ∈ namedKeys ∧ p.2.toList ≠ "enter".toList
      ∧ ClosedName (keyName plainTable ⟨p.1, if p.1 = .function then p.2.toList else []⟩) := by decide
  obtain ⟨halt, hname, henter, hplain⟩ := hclosed _ h
  rw [named]
  split
  · exact ⟨halt, hplain⟩
  · split
    · decide
    · obtain ⟨ms, hms, hjoin⟩ := modifiers_join modifier name.toList
      refine ⟨(by decide : Key.modified ≠ .alt), ?_⟩
      rw [keyName_modified, hjoin]
      exact .inr (.inl ⟨ms, hms, _, hname, fun heq => henter (Prod.mk.inj heq).2, rfl⟩)

/-- What a CSI sequence can be: a mouse report, a key without a name of its
own, or one of the tables. -/
def CsiShape (k : Keystroke) : Prop :=
  k.key = .mouse
    ∨ k ∈ ([⟨.unknown, []⟩, ⟨.focusIn, []⟩, ⟨.focusOut, []⟩, ⟨.shiftTab, []⟩, ⟨.enter, []⟩] : List Keystroke)
    ∨ ∃ p ∈ tableKeys, ∃ modifier, k = named p.1 p.2 modifier

theorem CsiShape.unknown : CsiShape ⟨.unknown, []⟩ := .inr (.inl (by simp))

theorem decodeNumbers_shape (final : Option UInt8) (numbers : List Nat) : CsiShape (decodeNumbers final numbers) := by
  have htable : ∀ {key : Key} {name : String} (modifier : Nat), (key, name) ∈ tableKeys →
      CsiShape (named key name modifier) := fun modifier hmem => .inr (.inr ⟨_, hmem, modifier, rfl⟩)
  simp only [decodeNumbers]
  split
  · next key name hfinal =>
    split
    · refine htable _ ?_
      obtain ⟨b, -, hb⟩ := Option.bind_eq_some_iff.mp hfinal
      exact List.mem_append_left _ (List.mem_append_left _ (List.mem_map.mpr ⟨_, mem_of_assocGet hb, rfl⟩))
    · exact .unknown
  · split
    · next function hfinal _ =>
      refine htable _ ?_
      obtain ⟨b, -, hb⟩ := Option.bind_eq_some_iff.mp hfinal
      exact List.mem_append_left _ (List.mem_append_right _ (List.mem_map.mpr ⟨_, mem_of_assocGet hb, rfl⟩))
    · split
      · next key name htilde =>
        refine htable _ ?_
        split at htilde
        · obtain ⟨n, -, hn⟩ := Option.bind_eq_some_iff.mp htilde
          exact List.mem_append_right _ (List.mem_map.mpr ⟨_, mem_of_assocGet hn, rfl⟩)
        · cases htilde
      · exact .unknown

theorem map_eq_ok {ε α β : Type} {x : Except ε α} {f : α → β} {b : β} (h : x.map f = .ok b) :
    ∃ a, x = .ok a ∧ f a = b := by
  cases x with
  | error e => cases h
  | ok a => exact ⟨a, rfl, Except.ok.inj h⟩

theorem decodeCsi_shape {sequence : Bytes} {k : Keystroke} (h : decodeCsi sequence = .ok k) : CsiShape k := by
  simp only [decodeCsi] at h
  split at h
  · obtain ⟨event, -, rfl⟩ := map_eq_ok h
    cases event with
    | none => exact .unknown
    | some event => exact .inl rfl
  · split at h
    · exact Except.ok.inj h ▸ .inr (.inl (by simp))
    · split at h
      · exact Except.ok.inj h ▸ .inr (.inl (by simp))
      · split at h
        · exact Except.ok.inj h ▸ .inr (.inl (by simp))
        · split at h
          · exact Except.ok.inj h ▸ .inr (.inl (by simp))
          · split at h
            · exact Except.ok.inj h ▸ .unknown
            · obtain ⟨numbers, -, rfl⟩ := map_eq_ok h
              exact decodeNumbers_shape _ numbers

theorem csi_closed {k : Keystroke} (h : CsiShape k) : k.key ≠ .alt ∧ ClosedName (keyName plainTable k) := by
  obtain hmouse | hplain | ⟨⟨key, name⟩, hmem, modifier, rfl⟩ := h
  · obtain ⟨key, ch⟩ := k
    obtain rfl : key = .mouse := hmouse
    exact ⟨(by decide : Key.mouse ≠ .alt), .inl (by simp [keyName, Key.isCtrlLetter, Key.value, keyNames])⟩
  · have hclosed : ∀ k ∈ ([⟨.unknown, []⟩, ⟨.focusIn, []⟩, ⟨.focusOut, []⟩, ⟨.shiftTab, []⟩, ⟨.enter, []⟩] :
        List Keystroke), k.key ≠ .alt ∧ ClosedName (keyName plainTable k) := by decide
    exact hclosed k hplain
  · exact named_closed hmem modifier

theorem altControl_fixed_iff {byte : UInt8} (hbyte : isControl byte = true) :
    NameFixed py (decodeAlt py [byte]) ↔ Spellable py (decodeAlt py [byte]) := by
  have hbase := keyName_table (control_closed byte).1 py plainTable
  have halt : decodeAlt py [byte] = if keyName plainTable (decodeControl byte) = [] then ⟨.unknown, []⟩
      else ⟨.modified, "alt+".toList ++ keyName plainTable (decodeControl byte)⟩ := by
    rw [decodeAlt, if_pos hbyte, hbase]
  rw [halt]
  obtain hnil | ⟨base, hmem, hname⟩ | hspace | ⟨c, hc, hctrl⟩ := (control_cases byte).2
  · rw [if_pos hnil]
    have hok := fixed_of_closed py (k := ⟨.unknown, []⟩) (by decide) (by decide)
    exact iff_of_true hok.1 hok.2
  · have hclosed : ∀ base ∈ namedKeys, base ≠ [] ∧ "alt+".toList ++ base = joinKey ["alt".toList] base := by decide
    have hnamed : keyName plainTable (decodeControl byte) ∈ namedKeys := hname ▸ hmem
    obtain ⟨hne, hjoin⟩ := hclosed _ hnamed
    rw [if_neg hne, hjoin]
    have hok := fixed_of_closed py (k := ⟨.modified, joinKey ["alt".toList] (keyName plainTable (decodeControl byte))⟩)
      (by decide : Key.modified ≠ .alt)
      (by rw [keyName_modified]; exact .inr (.inl ⟨_, by decide, _, hnamed, fun h => absurd (Prod.mk.inj h).1 (by decide), rfl⟩))
    exact iff_of_true hok.1 hok.2
  · rw [hspace, if_neg (by decide)]
    have hname : "alt+".toList ++ "ctrl+space".toList = "alt+ctrl+space".toList := by decide
    rw [hname]
    refine iff_of_false ?_ (fun h => h.1 ⟨rfl, (by decide : "alt+ctrl+".toList <+: "alt+ctrl+space".toList)⟩)
    rintro (h | h)
    · rw [keyName_modified] at h
      exact absurd h (by decide)
    · rw [keyName_modified, alt_ctrl_space_moves] at h
      exact absurd (Except.ok.inj h) (by decide)
  · have hname : "alt+".toList ++ ("ctrl+".toList ++ [c]) = "alt+ctrl+".toList ++ [c] := by
      rw [← List.append_assoc, (by decide : "alt+".toList ++ "ctrl+".toList = "alt+ctrl+".toList)]
    rw [hctrl, if_neg (by simp), hname]
    refine iff_of_false ?_ (fun h => h.1 ⟨rfl, List.prefix_append _ _⟩)
    rintro (h | h)
    · rw [keyName_modified] at h
      simp at h
    · rw [keyName_modified, alt_ctrlChar_moves hc] at h
      have hchars : ∀ c ∈ ctrlChars, "ctrl+alt+".toList ++ [c] ≠ "alt+ctrl+".toList ++ [c] := by decide
      exact hchars c hc (Except.ok.inj h)

theorem keyName_alt (c : Char) : keyName py ⟨.alt, [c]⟩ =
    if py.isAlpha c = true ∧ py.isUpper c = true then "alt+shift+".toList ++ py.lower c
    else "alt+".toList ++ if c = ' ' then "space".toList else [c] := by
  have hletter : Key.isCtrlLetter .alt = false := by decide
  simp only [keyName, hletter, reduceCtorEq, Bool.false_eq_true, if_false, if_true, List.all_cons, List.all_nil,
    Bool.and_true, List.flatMap_cons, List.flatMap_nil, List.append_nil, ne_eq, List.cons_ne_nil,
    not_false_eq_true, true_and, List.cons.injEq, and_true]

theorem alt_fixed_iff (c : Char) : NameFixed py ⟨.alt, [c]⟩ ↔ Spellable py ⟨.alt, [c]⟩ := by
  have hspell : Spellable py ⟨.alt, [c]⟩ ↔ c ≠ '\u0130' ∧ (py.isAlpha c = true → py.isUpper c = true ∨ py.lower c = [c]) := by
    simp [Spellable]
  rw [hspell, NameFixed, keyName_alt]
  by_cases hupper : py.isAlpha c = true ∧ py.isUpper c = true
  · rw [if_pos hupper]
    by_cases hdotted : c = '\u0130'
    · subst hdotted
      refine iff_of_false ?_ (fun h => h.1 rfl)
      rw [py.lower_dotted]
      rintro (h | h)
      · simp at h
      · exact normalizeKey_dotted _ h
    · obtain ⟨d, hd⟩ := py.lower_one c hdotted
      refine iff_of_true (.inr ?_) ⟨hdotted, fun _ => .inl hupper.2⟩
      rw [hd, normalizeKey_alt_shift_char, py.lower_lower c d hd, ite_self]
  · rw [if_neg hupper]
    have hdotted : c ≠ '\u0130' := by
      rintro rfl
      exact hupper ⟨py.isAlpha_dotted, py.isUpper_dotted⟩
    by_cases hspace : c = ' '
    · subst hspace
      rw [if_pos rfl]
      have halpha : py.isAlpha ' ' = false := by rw [py.isAlpha_ascii ' ' (by decide)]; decide
      have hcanonical : "alt+".toList ++ "space".toList = joinKey ["alt".toList] "space".toList := by decide
      refine iff_of_true (.inr ?_) ⟨hdotted, fun h => by simp [halpha] at h⟩
      rw [hcanonical]
      exact canonical_fixed (by decide) (by decide) (by decide)
    · rw [if_neg hspace, normalizeKey_alt_char]
      by_cases halpha : py.isAlpha c = true
      · have hnot : ¬ py.isUpper c = true := fun h => hupper ⟨halpha, h⟩
        rw [if_pos halpha, if_neg hnot]
        constructor
        · rintro (h | h)
          · simp at h
          · exact ⟨hdotted, fun _ => .inr (List.append_cancel_left (Except.ok.inj h))⟩
        · rintro ⟨-, h⟩
          obtain h | h := h halpha
          · exact absurd h hnot
          · exact .inr (by rw [h])
      · exact iff_of_true (.inr (by rw [if_neg halpha])) ⟨hdotted, fun h => absurd h halpha⟩

theorem fixed_iff {k : Keystroke} (h : Decoded py k) : NameFixed py k ↔ Spellable py k := by
  have hclosed : ∀ {k : Keystroke}, k.key ≠ .alt ∧ ClosedName (keyName plainTable k) →
      (NameFixed py k ↔ Spellable py k) := by
    intro k hk
    have hok := fixed_of_closed py hk.1 hk.2
    exact iff_of_true hok.1 hok.2
  cases h with
  | @plain key hkey =>
    by_cases hat : key = .at_
    · subst hat
      have hname : keyName py ⟨.at_, []⟩ = ['@'] := by
        rw [keyName_table (by decide) py plainTable]
        decide
      refine iff_of_true (.inr ?_) ⟨fun h => absurd h.1 (by decide), fun h => absurd h (by decide)⟩
      rw [hname, normalizeKey_single, if_neg (by decide)]
    · have hkeys : ∀ key ∈ [Key.esc, .at_, .unknown], key ≠ .at_ →
          (Keystroke.mk key []).key ≠ .alt ∧ ClosedName (keyName plainTable ⟨key, []⟩) := by decide
      exact hclosed (hkeys key hkey hat)
  | control byte hbyte => exact hclosed (control_closed byte)
  | char c =>
    have hname : keyName py ⟨.char, [c]⟩ = if c = ' ' then "space".toList else [c] := by simp [keyName]
    refine iff_of_true (.inr ?_) ⟨fun h => absurd h.1 (by simp), fun h => absurd h (by simp)⟩
    rw [hname]
    by_cases hspace : c = ' '
    · rw [if_pos hspace]
      exact @canonical_fixed py [] "space".toList (by decide) (by decide) (by decide)
    · rw [if_neg hspace, normalizeKey_single, if_neg hspace]
  | alt c => exact alt_fixed_iff c
  | altControl byte hbyte => exact altControl_fixed_iff hbyte
  | csi hcsi => exact hclosed (csi_closed (decodeCsi_shape hcsi))
  | ss3 final => exact hclosed (ss3_closed final)
  | paste text =>
    have hname : keyName plainTable ⟨.paste, text⟩ = [] := by simp [keyName, Key.isCtrlLetter, Key.value, keyNames]
    exact hclosed ⟨(by decide : Key.paste ≠ .alt), .inl hname⟩

theorem fires_of_fixed {k : Keystroke} (h : NameFixed py k) : Fires py k := by
  intro spelling key _ hkey km context flags a hnearest
  obtain hnil | hfixed := h
  · rw [hnil, normalizeKey, if_pos rfl] at hkey
    cases hkey
  · rw [hfixed] at hkey
    obtain rfl := Except.ok.inj hkey
    exact (km.resolves_to_iff hnearest.1).mpr hnearest

/-! ## 6. Keys do what the bindings say -/

/-- In a keymap, at most one action of a context applies to a key, and a key
triggers the applicable action of the nearest context. -/
def KeysResolve (km : Keymap py) (context : String) (flags : Finset String) : Prop :=
  (∀ key, ∀ a ∈ km.actions, ∀ b ∈ km.actions, a.context = b.context → key ∈ a.keys → key ∈ b.keys →
      a.applies flags = true → b.applies flags = true → a = b)
    ∧ (∀ key found, km.resolve context key flags = some found →
      ∃ a, Nearest km.actions flags key (Keymap.chain context) a ∧ found = { a with keys := found.keys })
    ∧ ∀ key, km.resolve context key flags = none ↔
      ∀ a ∈ km.actions, a.context ∈ Keymap.chain context → key ∈ a.keys → a.applies flags = false

theorem keys_resolve (km : Keymap py) (context : String) (flags : Finset String) : KeysResolve km context flags :=
  ⟨fun _ _ ha _ hb hcontext hka hkb haa hab => km.never_together ha hb hcontext hka hkb haa hab,
    fun _ _ h => km.nearest_of_resolve h, fun _ => km.resolve_eq_none⟩

/-- Keys, hints and the names of keystrokes agree with the bindings exactly
under these conditions. -/
theorem keys_do_what_the_bindings_say_iff (py : CharTable) :
    (∀ (km : Keymap py) (context : String) (flags : Finset String) (limit : Option Nat),
        (KeysResolve km context flags ∧ km.HintsResolve context flags limit)
          ↔ km.PartnersInReach context flags limit)
      ∧ ∀ (fuel : Nat) (t t' : Terminal) (k : Keystroke), readKey py fuel t = some (.key k t') →
        ((NameFixed py k ∧ Fires py k) ↔ Spellable py k) := by
  constructor
  · intro km context flags limit
    rw [and_iff_right (keys_resolve km context flags)]
    exact km.hints_resolve_iff limit
  · intro fuel t t' k h
    rw [← fixed_iff (readKey_decoded h)]
    exact ⟨And.left, fun hfixed => ⟨hfixed, fires_of_fixed hfixed⟩⟩

theorem alt_x_fires : NameFixed plainTable ⟨.alt, ['x']⟩ ∧ Fires plainTable ⟨.alt, ['x']⟩ :=
  ((keys_do_what_the_bindings_say_iff plainTable).2 1 { bytes := [0x1B, 0x78] } { bytes := [] } ⟨.alt, ['x']⟩
    (by decide)).mpr ⟨by decide, by decide⟩

/-- Escape and Ctrl+G: a binding written `Alt+Ctrl+g` is `ctrl+alt+g`, the
keystroke is called `alt+ctrl+g` and triggers nothing. -/
theorem alt_ctrl_g_never_fires :
    readKey plainTable 1 { bytes := [0x1B, 0x07] } = some (.key ⟨.modified, "alt+ctrl+g".toList⟩ { bytes := [] })
      ∧ keyName plainTable ⟨.modified, "alt+ctrl+g".toList⟩ = "alt+ctrl+g".toList
      ∧ normalizeKey plainTable "alt+ctrl+g".toList = .ok "ctrl+alt+g".toList
      ∧ parseKeys plainTable (.str "Alt+Ctrl+g") "composer.go" = .ok ["ctrl+alt+g".toList]
      ∧ ∃ km : Keymap plainTable,
        km.actions = [{ name := "go", context := "composer", keys := ["ctrl+alt+g".toList], label := "go" }]
          ∧ km.resolve "composer" "alt+ctrl+g".toList ∅ = none
          ∧ (km.resolve "composer" "ctrl+alt+g".toList ∅).map Action.name = some "go" :=
  ⟨by decide, by decide, by decide, by decide,
    ⟨[{ name := "go", context := "composer", keys := ["ctrl+alt+g".toList], label := "go" }], none, by decide⟩,
    rfl, by decide, by decide⟩

end Agenthicc.Tui
