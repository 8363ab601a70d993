/-
Agenthicc.Python.SortedJson — the canonical form of a JSON value.

`canonical` sorts the pairs of every object by key and keeps the last pair of
each key: what `json.dumps(…, sort_keys=True)` writes for a dict built from
the pairs. Two values are equal as Python objects built from text exactly
when their canonical forms are, so `canonical` is also how dicts are compared
without their order.

`canonicalPairs_ext` is the rule that everything else follows from: a list of
pairs has the canonical form that its answers to `lookup` have.
-/
import Agenthicc.Python.JsonLines
import Mathlib.Data.String.Basic

namespace Python.Json

/-! ## 1. Sorting by key -/

/-- Putting a pair into a sorted list that does not have its key. -/
def insertPair (k : String) (v : Json) : List (String × Json) → List (String × Json)
  | [] => [(k, v)]
  | (k', v') :: rest =>
      if k < k' then (k, v) :: (k', v') :: rest else (k', v') :: insertPair k v rest

mutual
/-- The value with the pairs of its objects sorted, each key once. -/
def canonical : Json → Json
  | .arr xs => .arr (canonicalItems xs)
  | .obj kvs => .obj (canonicalPairs kvs)
  | .null => .null
  | .bool b => .bool b
  | .int n => .int n
  | .float x => .float x
  | .str s => .str s

def canonicalItems : List Json → List Json
  | [] => []
  | x :: xs => canonical x :: canonicalItems xs

def canonicalPairs : List (String × Json) → List (String × Json)
  | [] => []
  | (k, v) :: rest =>
      if k ∈ (canonicalPairs rest).map Prod.fst then canonicalPairs rest
      else insertPair k (canonical v) (canonicalPairs rest)
end

/-- The keys are in order, each once. -/
def Sorted (kvs : List (String × Json)) : Prop := kvs.Pairwise fun a b => a.1 < b.1

theorem mem_insertPair {k : String} {v : Json} {kv : String × Json} :
    ∀ {kvs : List (String × Json)}, kv ∈ insertPair k v kvs ↔ kv = (k, v) ∨ kv ∈ kvs
  | [] => by simp [insertPair]
  | (k', v') :: rest => by
      rw [insertPair]
      split
      · simp
      · rw [List.mem_cons, mem_insertPair, List.mem_cons]
        tauto

theorem sorted_insertPair {k : String} {v : Json} : ∀ {kvs : List (String × Json)},
    Sorted kvs → k ∉ kvs.map Prod.fst → Sorted (insertPair k v kvs)
  | [], _, _ => List.pairwise_singleton _ _
  | (k', v') :: rest, h, hnew => by
      obtain ⟨hhead, hrest⟩ := List.pairwise_cons.mp h
      rw [List.map_cons, List.mem_cons, not_or] at hnew
      rw [insertPair]
      split
      · rename_i hlt
        refine List.pairwise_cons.mpr ⟨fun kv hkv => ?_, h⟩
        rcases List.mem_cons.mp hkv with rfl | hkv
        · exact hlt
        · exact hlt.trans (hhead kv hkv)
      · rename_i hge
        refine List.pairwise_cons.mpr ⟨fun kv hkv => ?_, sorted_insertPair hrest hnew.2⟩
        rcases mem_insertPair.mp hkv with rfl | hkv
        · exact lt_of_le_of_ne (not_lt.mp hge) (Ne.symm hnew.1)
        · exact hhead kv hkv

theorem sorted_canonicalPairs : ∀ kvs : List (String × Json), Sorted (canonicalPairs kvs)
  | [] => by
      rw [canonicalPairs]
      exact List.Pairwise.nil
  | (k, v) :: rest => by
      rw [canonicalPairs]
      split
      · exact sorted_canonicalPairs rest
      · rename_i hnew
        exact sorted_insertPair (sorted_canonicalPairs rest) hnew

/-! ## 2. What a sorted list answers -/

theorem lookup_eq_none {k : String} : ∀ {kvs : List (String × Json)},
    lookup k kvs = none ↔ k ∉ kvs.map Prod.fst
  | [] => by simp [lookup]
  | (k', v') :: rest => by
      have ih := @lookup_eq_none k rest
      rw [lookup]
      cases hrest : lookup k rest with
      | some v =>
          rw [hrest] at ih
          simp only [reduceCtorEq, false_iff, not_not] at ih
          simp [ih]
      | none =>
          have hnew := ih.mp hrest
          by_cases hk : k' = k
          · simp [hk]
          · simp [hk, hnew, Ne.symm hk]

theorem lookup_append (k : String) (b : List (String × Json)) : ∀ a : List (String × Json),
    lookup k (a ++ b) = (lookup k b).or (lookup k a)
  | [] => by
      rw [List.nil_append]
      cases lookup k b <;> rfl
  | (k', v') :: rest => by
      rw [List.cons_append, lookup, lookup_append k b rest, lookup]
      cases lookup k b with
      | some v => rfl
      | none => cases lookup k rest <;> rfl

theorem lookup_insertPair {k : String} {v : Json} (key : String) : ∀ {kvs : List (String × Json)},
    k ∉ kvs.map Prod.fst → lookup key (insertPair k v kvs) = if k = key then some v else lookup key kvs
  | [], _ => by simp [insertPair, lookup]
  | (k', v') :: rest, hnew => by
      rw [List.map_cons, List.mem_cons, not_or] at hnew
      rw [insertPair]
      split
      · rw [lookup]
        by_cases hk : k = key
        · subst hk
          have hnone : lookup k ((k', v') :: rest) = none := by
            rw [lookup_eq_none, List.map_cons, List.mem_cons, not_or]
            exact hnew
          rw [hnone]
        · rw [if_neg hk, if_neg hk]
          cases lookup key ((k', v') :: rest) <;> rfl
      · rw [lookup, lookup_insertPair key hnew.2, lookup]
        by_cases hk : k = key
        · rw [if_pos hk, if_pos hk]
        · rw [if_neg hk, if_neg hk]

theorem lookup_canonicalPairs (key : String) : ∀ kvs : List (String × Json),
    lookup key (canonicalPairs kvs) = (lookup key kvs).map canonical
  | [] => by
      rw [canonicalPairs]
      rfl
  | (k, v) :: rest => by
      have ih := lookup_canonicalPairs key rest
      rw [canonicalPairs, lookup]
      split
      · rename_i hmem
        rw [ih]
        cases hrest : lookup key rest with
        | some w => rfl
        | none =>
            have hnew : key ∉ (canonicalPairs rest).map Prod.fst := by
              rw [← lookup_eq_none, ih, hrest]
              rfl
            have hne : k ≠ key := by
              intro heq
              exact hnew (heq ▸ hmem)
            rw [if_neg hne]
      · rename_i hnew
        rw [lookup_insertPair key hnew, ih]
        by_cases hk : k = key
        · subst hk
          have hnone : lookup k rest = none := by
            have h := lookup_eq_none.mpr hnew
            rw [lookup_canonicalPairs k rest] at h
            exact Option.map_eq_none_iff.mp h
          rw [if_pos rfl, hnone, if_pos rfl]
          rfl
        · rw [if_neg hk]
          cases lookup key rest <;> simp [hk]

theorem lookup_cons_self {k : String} {v : Json} {kvs : List (String × Json)}
    (h : Sorted ((k, v) :: kvs)) : lookup k ((k, v) :: kvs) = some v := by
  have hnone : lookup k kvs = none := by
    rw [lookup_eq_none]
    intro hmem
    obtain ⟨kv, hkv, heq⟩ := List.mem_map.mp hmem
    have hlt := (List.pairwise_cons.mp h).1 kv hkv
    rw [heq] at hlt
    exact lt_irrefl k hlt
  rw [lookup, hnone, if_pos rfl]

theorem lookup_below {key k : String} {v : Json} {kvs : List (String × Json)}
    (h : Sorted ((k, v) :: kvs)) (hlt : key < k) : lookup key ((k, v) :: kvs) = none := by
  rw [lookup_eq_none, List.map_cons, List.mem_cons, not_or]
  refine ⟨hlt.ne, fun hmem => ?_⟩
  obtain ⟨kv, hkv, heq⟩ := List.mem_map.mp hmem
  have hbelow := (List.pairwise_cons.mp h).1 kv hkv
  rw [heq] at hbelow
  exact lt_asymm hlt hbelow

theorem lookup_tail {key k : String} {v : Json} {kvs : List (String × Json)} (hne : k ≠ key) :
    lookup key ((k, v) :: kvs) = lookup key kvs := by
  rw [lookup, if_neg hne]
  cases lookup key kvs <;> rfl

theorem sorted_ext : ∀ {a b : List (String × Json)}, Sorted a → Sorted b →
    (∀ key, lookup key a = lookup key b) → a = b
  | [], [], _, _, _ => rfl
  | [], (k, v) :: b, _, hb, h => by
      have hk := h k
      rw [lookup_cons_self hb] at hk
      cases hk
  | (k, v) :: a, [], ha, _, h => by
      have hk := h k
      rw [lookup_cons_self ha] at hk
      cases hk
  | (k, v) :: a, (k', v') :: b, ha, hb, h => by
      have hkey : k = k' := by
        rcases lt_trichotomy k k' with hlt | heq | hlt
        · have hk := h k
          rw [lookup_cons_self ha, lookup_below hb hlt] at hk
          cases hk
        · exact heq
        · have hk := h k'
          rw [lookup_cons_self hb, lookup_below ha hlt] at hk
          cases hk
      subst hkey
      have hv := h k
      rw [lookup_cons_self ha, lookup_cons_self hb, Option.some.injEq] at hv
      subst hv
      have hrest : a = b := sorted_ext (List.pairwise_cons.mp ha).2 (List.pairwise_cons.mp hb).2
          fun key => by
        by_cases hk : k = key
        · subst hk
          have hnone : ∀ {c : List (String × Json)}, Sorted ((k, v) :: c) → lookup k c = none := by
            intro c hc
            rw [lookup_eq_none]
            intro hmem
            obtain ⟨kv, hkv, heq⟩ := List.mem_map.mp hmem
            have hlt := (List.pairwise_cons.mp hc).1 kv hkv
            rw [heq] at hlt
            exact lt_irrefl k hlt
          rw [hnone ha, hnone hb]
        · have htail := h key
          rw [lookup_tail hk, lookup_tail hk] at htail
          exact htail
      rw [hrest]

/-! ## 3. Laws -/

/-- **Equal answers, equal canonical forms.** -/
theorem canonicalPairs_ext {a b : List (String × Json)}
    (h : ∀ key, (lookup key a).map canonical = (lookup key b).map canonical) :
    canonicalPairs a = canonicalPairs b := by
  refine sorted_ext (sorted_canonicalPairs a) (sorted_canonicalPairs b) fun key => ?_
  rw [lookup_canonicalPairs, lookup_canonicalPairs, h key]

theorem mem_of_lookup {k : String} {v : Json} : ∀ {kvs : List (String × Json)},
    lookup k kvs = some v → (k, v) ∈ kvs
  | [], h => by cases h
  | (k', v') :: rest, h => by
      rw [lookup] at h
      cases hrest : lookup k rest with
      | some w =>
          rw [hrest] at h
          cases h
          exact List.mem_cons_of_mem _ (mem_of_lookup hrest)
      | none =>
          rw [hrest] at h
          dsimp only at h
          split at h
          · rename_i hk
            cases h
            exact hk ▸ List.mem_cons_self
          · cases h

mutual
theorem canonical_canonical : ∀ v : Json, canonical (canonical v) = canonical v
  | .null | .bool _ | .int _ | .float _ | .str _ => by simp only [canonical]
  | .arr xs => by rw [canonical, canonical, canonicalItems_canonicalItems xs]
  | .obj kvs => by
      rw [canonical, canonical]
      congr 1
      refine canonicalPairs_ext fun key => ?_
      rw [lookup_canonicalPairs, Option.map_map]
      cases hv : lookup key kvs with
      | none => rfl
      | some v => exact congrArg some (canonicalPairs_values kvs (key, v) (mem_of_lookup hv))

theorem canonicalItems_canonicalItems : ∀ xs : List Json,
    canonicalItems (canonicalItems xs) = canonicalItems xs
  | [] => by rw [canonicalItems, canonicalItems]
  | x :: xs => by
      rw [canonicalItems, canonicalItems, canonical_canonical x, canonicalItems_canonicalItems xs]

theorem canonicalPairs_values : ∀ (kvs : List (String × Json)), ∀ kv ∈ kvs,
    canonical (canonical kv.2) = canonical kv.2
  | [], _, h => nomatch h
  | (_, v) :: rest, kv, h => by
      rcases List.mem_cons.mp h with rfl | h
      · exact canonical_canonical v
      · exact canonicalPairs_values rest kv h
end

@[simp] theorem canonicalPairs_canonicalPairs (kvs : List (String × Json)) :
    canonicalPairs (canonicalPairs kvs) = canonicalPairs kvs := by
  have h := canonical_canonical (.obj kvs)
  rw [canonical, canonical, obj.injEq] at h
  exact h

theorem canonicalPairs_append {a a' b b' : List (String × Json)}
    (ha : canonicalPairs a = canonicalPairs a') (hb : canonicalPairs b = canonicalPairs b') :
    canonicalPairs (a ++ b) = canonicalPairs (a' ++ b') := by
  refine canonicalPairs_ext fun key => ?_
  have hkey : ∀ {c d : List (String × Json)}, canonicalPairs c = canonicalPairs d →
      (lookup key c).map canonical = (lookup key d).map canonical := by
    intro c d h
    rw [← lookup_canonicalPairs, h, lookup_canonicalPairs]
  have ha := hkey ha
  have hb := hkey hb
  rw [lookup_append, lookup_append]
  cases hc : lookup key b with
  | some v =>
      rw [hc] at hb
      cases hd : lookup key b' with
      | some w =>
          rw [hd] at hb
          exact hb
      | none =>
          rw [hd] at hb
          cases hb
  | none =>
      rw [hc] at hb
      cases hd : lookup key b' with
      | some w =>
          rw [hd] at hb
          cases hb
      | none => exact ha

theorem lookup_filter (p : String → Bool) (key : String) : ∀ kvs : List (String × Json),
    lookup key (kvs.filter fun kv => p kv.1) = if p key then lookup key kvs else none
  | [] => by simp [lookup]
  | (k, v) :: rest => by
      have ih := lookup_filter p key rest
      rw [List.filter_cons]
      by_cases hk : k = key
      · subst hk
        by_cases hp : p k = true
        · rw [if_pos hp, if_pos hp, lookup, ih, if_pos hp, lookup]
        · rw [if_neg hp, if_neg hp, ih, if_neg hp]
      · rw [lookup_tail hk, ← ih]
        split
        · rw [lookup_tail hk]
        · rfl

theorem canonicalPairs_filter (p : String → Bool) {a b : List (String × Json)}
    (h : canonicalPairs a = canonicalPairs b) :
    canonicalPairs (a.filter fun kv => p kv.1) = canonicalPairs (b.filter fun kv => p kv.1) := by
  refine canonicalPairs_ext fun key => ?_
  rw [lookup_filter, lookup_filter]
  split
  · rw [← lookup_canonicalPairs, h, lookup_canonicalPairs]
  · rfl

end Python.Json

namespace Python

open Json

/-! ## 4. Lines of compact records -/

/-- `json.dumps(record, separators=(",", ":")) + "\n"`. -/
def compactLine (v : Json) : List Char := compactDumps v ++ ['\n']

/-- `json.dumps(record, sort_keys=True, separators=(",", ":")) + "\n"`. -/
def sortedLine (v : Json) : List Char := compactDumps (canonical v) ++ ['\n']

/-- `if not line.strip(): …; json.loads(line)`. -/
def readLine (raw : List Char) : Line :=
  if strip raw = [] then .blank
  else
    match loads raw with
    | some v => .entry v
    | none => .corrupt

def readLines (text : List Char) : List Line := (fileLines text).map readLine

theorem readLines_wholeLines {t : List Char} (rest : List Char) (h : WholeLines t) :
    readLines (t ++ rest) = readLines t ++ readLines rest := by
  rw [readLines, fileLines_wholeLines rest h, List.map_append]
  rfl

theorem wholeLines_compactLine (v : Json) : WholeLines (compactLine v) := .inr ⟨_, rfl⟩

theorem wholeLines_sortedLine (v : Json) : WholeLines (sortedLine v) := .inr ⟨_, rfl⟩

theorem strip_brace_ne (t : List Char) : strip ('{' :: t) ≠ [] := by
  exact And.right ( strip_brace_prefix t)

theorem loads_compactDumps_newline (v : Json) : loads (compactDumps v ++ ['\n']) = some v := by
  have h := parseValue_dumpsWith false v ((compactDumps v ++ ['\n']).length + 1) ['\n']
    (by simp only [compactDumps, List.length_append]; omega) (stop_cons (by decide))
  have hw := skipWs_dumpsWith false v ['\n']
  simp only [loads, compactDumps] at h hw ⊢
  rw [hw, h]
  rfl

theorem readLines_compactLine (kvs : List (String × Json)) (rest : List Char) :
    readLines (compactLine (.obj kvs) ++ rest) = .entry (.obj kvs) :: readLines rest := by
  have hlines := fileLines_plain rest (compactDumps_isPlain (.obj kvs))
  have hblank : strip (compactDumps (.obj kvs) ++ ['\n']) ≠ [] := by
    rw [compactDumps, dumpsWith]
    exact strip_brace_ne _
  rw [readLines, compactLine, List.append_assoc, List.singleton_append, hlines, List.map_cons,
    readLine, if_neg hblank, loads_compactDumps_newline]
  rfl

/-- What a reader makes of the beginning of a record that no line break
follows. -/
theorem readLines_beginning {kvs : List (String × Json)} {p : List Char}
    (hp : p <+: compactDumps (.obj kvs)) (hne : p ≠ []) :
    readLines p = [match loads p with
      | some v => .entry v
      | none => .corrupt] := by
  obtain ⟨c, p', rfl⟩ := List.exists_cons_of_ne_nil hne
  have hc : c = '{' := by
    rw [compactDumps, dumpsWith, List.cons_prefix_cons] at hp
    exact hp.1
  subst hc
  have hlines : fileLines ('{' :: p') = ['{' :: p'] :=
    (fileLines_plain_end (prefix_all hp (compactDumps_isPlain _))).trans (if_neg hne)
  rw [readLines, hlines, List.map_singleton, readLine, if_neg (strip_brace_ne p')]

theorem readLines_compactDumps (kvs : List (String × Json)) :
    readLines (compactDumps (.obj kvs)) = [.entry (.obj kvs)] := by
  have hne : compactDumps (.obj kvs) ≠ [] := by simp [compactDumps, dumpsWith]
  rw [readLines_beginning (List.prefix_refl (compactDumps (.obj kvs))) hne, loads_compactDumps]

/-- **A cut record** is nothing, a line that does not decode, or the record
without its line break. -/
theorem readLines_cut {kvs : List (String × Json)} {p : List Char}
    (h : p <+: compactLine (.obj kvs)) (hne : p ≠ compactLine (.obj kvs)) :
    readLines p = [] ∨ readLines p = [.corrupt]
      ∨ (p = compactDumps (.obj kvs) ∧ readLines p = [.entry (.obj kvs)]) := by
  have hp : p <+: compactDumps (.obj kvs) := by
    rcases List.prefix_concat_iff.mp h with heq | hp
    · exact absurd heq hne
    · exact hp
  by_cases hnil : p = []
  · subst hnil
    exact .inl rfl
  by_cases hfull : p = compactDumps (.obj kvs)
  · exact .inr (.inr ⟨hfull, hfull ▸ readLines_compactDumps kvs⟩)
  · refine .inr (.inl ?_)
    rw [readLines_beginning hp hnil, loads_dumpsWith_torn ⟨hp, hfull⟩ hnil]

/-! ## 5. Lines of sorted records -/

theorem sortedLine_eq (kvs : List (String × Json)) :
    sortedLine (.obj kvs) = compactLine (.obj (canonicalPairs kvs)) := by
  rw [sortedLine, canonical, compactLine]

theorem readLines_sortedLine (kvs : List (String × Json)) (rest : List Char) :
    readLines (sortedLine (.obj kvs) ++ rest)
      = .entry (.obj (canonicalPairs kvs)) :: readLines rest := by
  rw [sortedLine_eq, readLines_compactLine]

end Python
