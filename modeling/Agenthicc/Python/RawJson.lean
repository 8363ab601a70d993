/-
Agenthicc.Python.RawJson — `json.dumps(value, ensure_ascii=False)` of a record
whose values are no containers: the decoder reads it back, and the text has no
line break.
-/
import Agenthicc.Python.JsonNewline
import Agenthicc.Python.SortedJson

namespace Python

/-! ## 1. Strings -/

theorem scanString_rawEncodeChar (c : Char) (rest : List Char) :
    scanString (rawEncodeChar c ++ rest) = (scanString rest).map fun p => (c :: p.1, p.2) := by
  rw [rawEncodeChar]
  split
  · exact scanString_encodeChar c rest
  · next h =>
    rw [not_or, not_or] at h
    exact scanString_plain rest h.1 h.2.1 (by omega)

theorem scanString_rawBody (cs rest : List Char) :
    scanString (cs.flatMap rawEncodeChar ++ '"' :: rest) = some (cs, rest) := by
  induction cs with
  | nil => exact scanString_quote rest
  | cons c cs ih =>
    rw [List.flatMap_cons, List.append_assoc, scanString_rawEncodeChar, ih]
    rfl

/-! ## 2. Records of scalars -/

/-- The value is no container. -/
def Json.isScalar : Json → Bool
  | .arr _ | .obj _ => false
  | _ => true

theorem parseValue_rawScalar {v : Json} (hv : v.isScalar = true) {fuel : Nat} {rest : List Char}
    (hfuel : (rawDumps v).length < fuel) (hs : Stop rest) : parseValue fuel (rawDumps v ++ rest) = some (v, rest) := by
  cases v with
  | str s =>
    cases fuel with
    | zero => omega
    | succ fuel =>
      simp only [rawDumps, rawEncodeString, List.cons_append, List.append_assoc, List.singleton_append]
      rw [parseValue, scanString_rawBody]
      simp
  | arr xs => cases hv
  | obj kvs => cases hv
  | null | bool _ | int _ | float _ =>
    simp only [rawDumps] at hfuel ⊢
    rw [← dumpsWith_true] at hfuel ⊢
    exact parseValue_dumpsWith true _ fuel rest hfuel hs

theorem skipWs_rawScalar {v : Json} (hv : v.isScalar = true) (rest : List Char) :
    skipWs (rawDumps v ++ rest) = rawDumps v ++ rest := by
  cases v with
  | str s => exact skipWs_cons _ (by decide)
  | arr xs => cases hv
  | obj kvs => cases hv
  | null | bool _ | int _ | float _ =>
    simp only [rawDumps]
    rw [← dumpsWith_true]
    exact skipWs_dumpsWith true _ rest

theorem stop_rawDumpsPairs (kvs : List (String × Json)) (rest : List Char) : Stop (rawDumpsPairs false kvs ++ rest) := by
  cases kvs with
  | nil => exact stop_cons (by decide)
  | cons kv kvs =>
    simp only [rawDumpsPairs, separator, Bool.false_eq_true, if_false, List.cons_append]
    exact stop_cons (by decide)

theorem parseMembers_rawDumps {kvs : List (String × Json)} (hne : kvs ≠ []) (hkvs : ∀ kv ∈ kvs, kv.2.isScalar = true)
    (fuel : Nat) (rest : List Char) (hfuel : (rawDumpsPairs true kvs).length < fuel) :
    parseMembers fuel (rawDumpsPairs true kvs ++ rest) = some (kvs, rest) := by
  induction kvs generalizing fuel with
  | nil => exact absurd rfl hne
  | cons kv kvs ih =>
    obtain ⟨k, v⟩ := kv
    cases fuel with
    | zero => omega
    | succ fuel =>
      have hv : v.isScalar = true := hkvs (k, v) List.mem_cons_self
      have hlength : (rawDumpsPairs true ((k, v) :: kvs)).length
          = (rawEncodeString k).length + 2 + (rawDumps v).length + (rawDumpsPairs false kvs).length := by
        simp [rawDumpsPairs, separator]
        omega
      have hpos : 0 < (rawDumpsPairs false kvs).length := by
        cases kvs <;> simp [rawDumpsPairs, separator]
      have hvalue : parseValue fuel (rawDumps v ++ (rawDumpsPairs false kvs ++ rest))
          = some (v, rawDumpsPairs false kvs ++ rest) :=
        parseValue_rawScalar hv (by omega) (stop_rawDumpsPairs kvs rest)
      have hgap : skipWs (' ' :: (rawDumps v ++ (rawDumpsPairs false kvs ++ rest)))
          = rawDumps v ++ (rawDumpsPairs false kvs ++ rest) := by
        rw [skipWs, if_pos (by decide), skipWs_rawScalar hv]
      simp only [rawDumpsPairs, separator, if_true, List.nil_append, List.append_assoc, rawEncodeString, List.cons_append,
        parseMembers, expect, scanString_rawBody, Option.bind_eq_bind, Option.bind_some,
        skipWs_cons _ (show isJsonWs ':' = false from rfl), hgap, hvalue, String.ofList_toList]
      cases kvs with
      | nil => simp [rawDumpsPairs, skipWs, isJsonWs]
      | cons kv' kvs =>
        obtain ⟨k', v'⟩ := kv'
        have hrest := ih (by simp) (fun kv hkv => hkvs kv (List.mem_cons_of_mem _ hkv)) fuel (by
          simp [rawDumpsPairs, separator] at hlength hfuel ⊢
          omega)
        simp only [rawDumpsPairs, separator, if_true, List.nil_append, List.append_assoc, rawEncodeString,
          List.cons_append] at hrest
        simp only [rawDumpsPairs, separator, Bool.false_eq_true, if_false, List.cons_append, List.nil_append,
          List.append_assoc, rawEncodeString, skipWs_cons _ (show isJsonWs ',' = false from rfl),
          skipWs_cons _ (show isJsonWs '"' = false from rfl)]
        have hblank : ∀ t, skipWs (' ' :: '"' :: t) = '"' :: t := fun t => by simp [skipWs, isJsonWs]
        rw [hblank, hrest]
        rfl

/-- **Round trip** of a record of scalars. -/
theorem loads_rawDumps {kvs : List (String × Json)} (hkvs : ∀ kv ∈ kvs, kv.2.isScalar = true) :
    loads (rawDumps (.obj kvs)) = some (.obj kvs) := by
  cases kvs with
  | nil => rfl
  | cons kv kvs =>
    obtain ⟨t, ht⟩ : ∃ t, rawDumpsPairs true (kv :: kvs) = '"' :: t := ⟨_, by
      simp only [rawDumpsPairs, rawEncodeString, separator, if_true, List.nil_append, List.cons_append]
      rfl⟩
    have hmembers := parseMembers_rawDumps (List.cons_ne_nil kv kvs) hkvs ('{' :: rawDumpsPairs true (kv :: kvs)).length
      [] (by simp)
    rw [List.append_nil, ht] at hmembers
    rw [rawDumps, ht, loads, skipWs_cons _ (by decide), parseValue_brace _ _ _ (by decide) (by decide), hmembers]
    rfl

/-! ## 3. The characters -/

theorem rawEncodeChar_visible (c : Char) : ∀ d ∈ rawEncodeChar c, 0x20 ≤ d.toNat := by
  intro d hd
  rw [rawEncodeChar] at hd
  split at hd
  · have hplain := List.all_eq_true.mp (encodeChar_isPlain c) d hd
    rw [isPlain, decide_eq_true_eq] at hplain
    exact hplain.1
  · next h =>
    rw [List.mem_singleton] at hd
    rw [hd]
    omega

theorem rawEncodeString_visible (s : String) : ∀ c ∈ rawEncodeString s, 0x20 ≤ c.toNat := by
  intro c hc
  rw [rawEncodeString, List.mem_cons, List.mem_append, List.mem_singleton] at hc
  obtain rfl | hc | rfl := hc
  · decide
  · obtain ⟨d, _, hd⟩ := List.mem_flatMap.mp hc
    exact rawEncodeChar_visible d c hd
  · decide

theorem rawDumps_visible {v : Json} (hv : v.isScalar = true) : ∀ c ∈ rawDumps v, 0x20 ≤ c.toNat := by
  intro c hc
  cases v with
  | str s => exact rawEncodeString_visible s c (by simpa [rawDumps] using hc)
  | arr xs => cases hv
  | obj kvs => cases hv
  | null | bool _ | int _ | float _ =>
    simp only [rawDumps] at hc
    have hplain := List.all_eq_true.mp (dumps_isPlain _) c hc
    rw [isPlain, decide_eq_true_eq] at hplain
    exact hplain.1

theorem rawDumpsPairs_visible {kvs : List (String × Json)} (hkvs : ∀ kv ∈ kvs, kv.2.isScalar = true) (first : Bool) :
    ∀ c ∈ rawDumpsPairs first kvs, 0x20 ≤ c.toNat := by
  induction kvs generalizing first with
  | nil =>
    intro c hc
    rw [rawDumpsPairs, List.mem_singleton] at hc
    rw [hc]
    decide
  | cons kv kvs ih =>
    obtain ⟨k, v⟩ := kv
    intro c hc
    simp only [rawDumpsPairs, List.mem_append, List.mem_cons] at hc
    obtain hc | hc | rfl | rfl | hc | hc := hc
    · cases first with
      | true => cases hc
      | false =>
        rw [separator, if_neg (by decide)] at hc
        simp at hc
        obtain rfl | rfl := hc
        · decide
        · decide
    · exact rawEncodeString_visible k c hc
    · decide
    · decide
    · exact rawDumps_visible (hkvs (k, v) List.mem_cons_self) c hc
    · exact ih (fun kv hkv => hkvs kv (List.mem_cons_of_mem _ hkv)) false c hc

end Python
