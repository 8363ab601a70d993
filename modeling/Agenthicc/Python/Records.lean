/-
Agenthicc.Python.Records — records that are written to a mapping field by
field and read back from one.

A `Codec` says how the value of one field is written and read, with the law
that reading what was written gives the value back. A `Schema` gives a record
its fields: the keys `to_dict` writes them under, where `from_mapping` looks
for each, and what it still makes of them together. `fromMapping_toDict` is
the round trip of a whole record, `fromMapping_normal` that whatever is read
survives it, and `fromMapping_congr` that only the answers of the mapping
count, so a mapping that was updated may be replaced by another one.
-/
import Agenthicc.Python.Builtins
import Agenthicc.Python.SortedJson
import Mathlib.Logic.Function.Basic

namespace Python

/-! ## 1. Codecs -/

/-- What `time.time()` returns: never zero. -/
structure Clock where
  time : PyFloat
  ne_zero : time.isZero = false

/-- How the value of a field is written, and what is read where the mapping
has this value, if it has one. -/
structure Codec (α : Type) where
  read : Interp → Clock → Option Json → Except PyError α
  dump : α → Json
  /-- The values that survive being written. -/
  Normal : α → Prop
  read_dump : ∀ py now {x}, Normal x → read py now (some (dump x)) = .ok x
  read_normal : ∀ {py now v x}, read py now v = .ok x → Normal x

/-! ## 2. Schemas -/

/-- The fields of a record behind its ID. -/
structure Schema where
  idName : String
  /-- The text of the `ValueError` for a mapping without an ID. -/
  idError : String
  Field : Type
  decEq : DecidableEq Field := by infer_instance
  all : List Field
  mem_all : ∀ f, f ∈ all
  Value : Field → Type
  codec : (f : Field) → Codec (Value f)
  /-- The keys that `to_dict` writes behind the ID, in its order. -/
  keys : List (String × Field)
  nodup : (idName :: keys.map Prod.fst).Nodup
  /-- What `from_mapping` reads a field from. -/
  mapped : List (String × Json) → Field → Option Json
  mapped_congr : ∀ {kvs kvs'}, (∀ k, Json.lookup k kvs = Json.lookup k kvs') →
    mapped kvs = mapped kvs'
  mapped_keys : ∀ (id : Json) (j : Field → Json) (f : Field),
    mapped ((idName, id) :: keys.map fun e => (e.1, j e.2)) f = some (j f)
  /-- What becomes of the fields together. -/
  settle : ((f : Field) → Value f) → (f : Field) → Value f
  settle_settle : ∀ v, settle (settle v) = settle v
  settle_normal : ∀ {v}, (∀ f, (codec f).Normal (v f)) → ∀ f, (codec f).Normal (settle v f)

namespace Schema

variable (S : Schema)

instance : DecidableEq S.Field := S.decEq

/-- The values of all fields, or the first exception of reading one. -/
def gather (raw : (f : S.Field) → Except PyError (S.Value f)) :
    Except PyError ((f : S.Field) → S.Value f) :=
  if h : ∀ f ∈ S.all, (raw f).toOption.isSome then
    .ok fun f => (raw f).toOption.get (h f (S.mem_all f))
  else
    .error ((S.all.findSome? fun f =>
      match raw f with
      | .error exc => some exc
      | .ok _ => none).getD (.valueError ""))

variable {S}

theorem gather_eq_ok {raw : (f : S.Field) → Except PyError (S.Value f)}
    {v : (f : S.Field) → S.Value f} : S.gather raw = .ok v ↔ ∀ f, raw f = .ok (v f) := by
  constructor
  · intro h f
    unfold gather at h
    split at h
    · rename_i hall
      cases h
      have hf := hall f (S.mem_all f)
      cases hr : raw f with
      | ok x => simp [hr, Except.toOption]
      | error exc => simp [hr, Except.toOption] at hf
    · cases h
  · intro h
    have hall : ∀ f ∈ S.all, (raw f).toOption.isSome := by
      intro f _
      simp [h f, Except.toOption]
    rw [gather, dif_pos hall]
    congr 1
    funext f
    simp [h f, Except.toOption]

/-- What `to_dict` writes for values that are given per field. -/
def pairs (S : Schema) (id : Json) (j : S.Field → Json) : List (String × Json) :=
  (S.idName, id) :: S.keys.map fun e => (e.1, j e.2)

theorem map_fst_pairs (id : Json) (j : S.Field → Json) :
    (S.pairs id j).map Prod.fst = S.idName :: S.keys.map Prod.fst := by
  simp [pairs, List.map_map, Function.comp_def]

end Schema

/-! ## 3. Looking up in a mapping -/

namespace Json

theorem lookup_of_mem {k : String} {v : Json} : ∀ {kvs : List (String × Json)},
    (kvs.map Prod.fst).Nodup → (k, v) ∈ kvs → lookup k kvs = some v
  | (k', v') :: rest, hnd, h => by
      rw [List.map_cons, List.nodup_cons] at hnd
      rw [lookup]
      rcases List.mem_cons.mp h with heq | hrest
      · cases heq
        simp [lookup_eq_none.mpr hnd.1]
      · rw [lookup_of_mem hnd.2 hrest]

end Json

/-! ## 4. Records -/

/-- `value[:n] if isinstance(value, str) else ""`. -/
def idText : Json → String
  | .str s => strTake 8000 s
  | _ => ""

/-- A record of a schema. -/
@[ext] structure Record (S : Schema) where
  id : String
  value : (f : S.Field) → S.Value f

namespace Record

variable {S : Schema}

def toDict (r : Record S) : List (String × Json) :=
  S.pairs (.str r.id) fun f => (S.codec f).dump (r.value f)

def fromMapping (S : Schema) (py : Interp) (now : Clock) (kvs : List (String × Json)) :
    Except PyError (Record S) :=
  let id := idText ((Json.lookup S.idName kvs).getD .null)
  if id = "" then .error (.valueError S.idError)
  else (S.gather fun f => (S.codec f).read py now (S.mapped kvs f)).map fun v => ⟨id, S.settle v⟩

/-- The records that survive being written: what `from_mapping` returns. -/
structure Normal (r : Record S) : Prop where
  id_ne : r.id ≠ ""
  id_length : r.id.length ≤ 8000
  value : ∀ f, (S.codec f).Normal (r.value f)
  settled : S.settle r.value = r.value

variable {py : Interp} {now : Clock} {kvs kvs' : List (String × Json)} {r : Record S}

theorem fromMapping_eq_ok : fromMapping S py now kvs = .ok r ↔
    r.id ≠ "" ∧ r.id = idText ((Json.lookup S.idName kvs).getD .null) ∧
      ∃ v, (∀ f, (S.codec f).read py now (S.mapped kvs f) = .ok (v f)) ∧ r.value = S.settle v := by
  rw [fromMapping]
  by_cases hid : idText ((Json.lookup S.idName kvs).getD .null) = ""
  · simp only [hid, if_true]
    exact ⟨fun h => (by cases h), fun h => absurd h.2.1 h.1⟩
  simp only [if_neg hid]
  cases hg : S.gather fun f => (S.codec f).read py now (S.mapped kvs f) with
  | error exc =>
      refine ⟨fun h => (by cases h), fun ⟨_, _, v, hv, _⟩ => ?_⟩
      rw [Schema.gather_eq_ok.mpr hv] at hg
      cases hg
  | ok v =>
      refine ⟨fun h => ?_, fun ⟨_, hrid, w, hw, hval⟩ => ?_⟩
      · cases h
        exact ⟨hid, rfl, v, Schema.gather_eq_ok.mp hg, rfl⟩
      · rw [Schema.gather_eq_ok.mpr hw] at hg
        cases hg
        have heq : r = ⟨idText ((Json.lookup S.idName kvs).getD .null), S.settle v⟩ :=
          Record.ext hrid hval
        rw [heq]
        rfl

theorem fromMapping_congr (h : ∀ k, Json.lookup k kvs = Json.lookup k kvs') :
    fromMapping S py now kvs = fromMapping S py now kvs' := by
  simp only [fromMapping, h S.idName, S.mapped_congr h]

theorem length_idText (v : Json) : (idText v).length ≤ 8000 := by
  cases v with
  | str s => simp [idText, strTake, List.length_take]
  | _ => simp [idText]

theorem fromMapping_normal (h : fromMapping S py now kvs = .ok r) : r.Normal := by
  obtain ⟨hne, hid, v, hv, hval⟩ := fromMapping_eq_ok.mp h
  refine ⟨hne, hid ▸ length_idText _, fun f => ?_, ?_⟩
  · rw [hval]
    exact S.settle_normal (fun g => (S.codec g).read_normal (hv g)) f
  · rw [hval, S.settle_settle]

@[simp] theorem map_fst_toDict (r : Record S) :
    r.toDict.map Prod.fst = S.idName :: S.keys.map Prod.fst := Schema.map_fst_pairs _ _

theorem nodup_toDict (r : Record S) : (r.toDict.map Prod.fst).Nodup := by
  rw [map_fst_toDict]
  exact S.nodup

@[simp] theorem lookup_id_toDict (r : Record S) :
    Json.lookup S.idName r.toDict = some (.str r.id) :=
  Json.lookup_of_mem r.nodup_toDict List.mem_cons_self

/-- **Round trip**: a normal record is read back from its own mapping. -/
theorem fromMapping_toDict (py : Interp) (now : Clock) (h : r.Normal) :
    fromMapping S py now r.toDict = .ok r := by
  have hid : idText (.str r.id) = r.id := strTake_eq_self.mpr h.id_length
  refine fromMapping_eq_ok.mpr ⟨h.id_ne, ?_, r.value, fun f => ?_, h.settled.symm⟩
  · rw [lookup_id_toDict, Option.getD_some, hid]
  · have hmapped := S.mapped_keys (.str r.id) (fun g => (S.codec g).dump (r.value g)) f
    rw [toDict, Schema.pairs, hmapped]
    exact (S.codec f).read_dump py now (h.value f)

/-! ### What the mapping of a record answers -/

theorem lookup_key (r : Record S) {k : String} {f : S.Field} (h : (k, f) ∈ S.keys) :
    Json.lookup k r.toDict = some ((S.codec f).dump (r.value f)) :=
  Json.lookup_of_mem r.nodup_toDict
    (List.mem_cons_of_mem _ (List.mem_map.mpr ⟨(k, f), h, rfl⟩))

theorem lookup_eq_none_iff (r : Record S) {k : String} :
    Json.lookup k r.toDict = none ↔ k ∉ S.idName :: S.keys.map Prod.fst := by
  rw [Json.lookup_eq_none, map_fst_toDict]

/-- A record laid over another one of its schema hides it. -/
theorem lookup_or_toDict (r u : Record S) (k : String) :
    (Json.lookup k u.toDict).or (Json.lookup k r.toDict) = Json.lookup k u.toDict := by
  cases hu : Json.lookup k u.toDict with
  | some v => rfl
  | none => rw [Option.none_or, lookup_eq_none_iff, ← lookup_eq_none_iff u, hu]

/-! ### Other values -/

/-- The record with another value of one field. -/
def set (r : Record S) (f : S.Field) (x : S.Value f) : Record S :=
  { r with value := Function.update r.value f x }

@[simp] theorem set_value (r : Record S) (f : S.Field) (x : S.Value f) : (r.set f x).value f = x :=
  Function.update_self ..

theorem set_value_ne (r : Record S) {f g : S.Field} (x : S.Value f) (h : g ≠ f) :
    (r.set f x).value g = r.value g :=
  Function.update_of_ne h _ _

@[simp] theorem set_set (r : Record S) (f : S.Field) (x y : S.Value f) :
    (r.set f x).set f y = r.set f y := by
  simp only [set, Function.update_idem]

theorem set_comm (r : Record S) {f g : S.Field} (x : S.Value f) (y : S.Value g) (h : f ≠ g) :
    (r.set f x).set g y = (r.set g y).set f x := by
  simp only [set, Function.update_comm h]

theorem set_eq_self {f : S.Field} {x : S.Value f} : r.set f x = r ↔ x = r.value f := by
  constructor
  · intro h
    rw [← h, set_value]
  · intro h
    simp only [set, h, Function.update_eq_self]

theorem lookup_set (r : Record S) {f : S.Field} (x : S.Value f) {k : String}
    (h : (k, f) ∉ S.keys) : Json.lookup k (r.set f x).toDict = Json.lookup k r.toDict := by
  by_cases hid : k = S.idName
  · subst hid
    rw [lookup_id_toDict, lookup_id_toDict]
    rfl
  by_cases hmem : k ∈ S.keys.map Prod.fst
  · obtain ⟨⟨k', g⟩, hg, rfl⟩ := List.mem_map.mp hmem
    have hne : g ≠ f := fun heq => h (heq ▸ hg)
    rw [lookup_key _ hg, lookup_key _ hg, set_value_ne r x hne]
  · have hnot : k ∉ S.idName :: S.keys.map Prod.fst :=
      fun hm => (List.mem_cons.mp hm).elim hid hmem
    rw [(lookup_eq_none_iff _).mpr hnot, (lookup_eq_none_iff _).mpr hnot]

/-- A field that is settled alone may take every value that survives being
written. -/
theorem set_normal (hr : r.Normal) {f : S.Field} {x : S.Value f} (hx : (S.codec f).Normal x)
    (hsettled : S.settle (r.set f x).value = (r.set f x).value) : (r.set f x).Normal where
  id_ne := hr.id_ne
  id_length := hr.id_length
  value g := by
    by_cases hg : g = f
    · subst hg
      rw [set_value]
      exact hx
    · rw [set_value_ne r x hg]
      exact hr.value g
  settled := hsettled

end Record

/-! ## 5. Lists of records -/

namespace Record

variable {S : Schema}

/-- The elements that are mappings, read one by one; one without an ID is left
out. -/
def readAll (S : Schema) (py : Interp) (now : Clock) : List Json → Except PyError (List (Record S))
  | [] => .ok []
  | .obj kvs :: rest =>
      match fromMapping S py now kvs with
      | .ok r => (readAll S py now rest).map (r :: ·)
      | .error (.valueError _) => readAll S py now rest
      | .error exc => .error exc
  | _ :: rest => readAll S py now rest

def dumpAll (rs : List (Record S)) : Json := .arr (rs.map fun r => .obj r.toDict)

theorem readAll_dumpAll (py : Interp) (now : Clock) : ∀ {rs : List (Record S)},
    (∀ r ∈ rs, r.Normal) → readAll S py now (rs.map fun r => .obj r.toDict) = .ok rs
  | [], _ => rfl
  | r :: rs, h => by
      rw [List.map_cons, readAll, fromMapping_toDict py now (h r List.mem_cons_self)]
      simp only [readAll_dumpAll py now fun s hs => h s (List.mem_cons_of_mem r hs)]
      rfl

theorem readAll_normal {py : Interp} {now : Clock} {xs : List Json} {rs : List (Record S)}
    (h : readAll S py now xs = .ok rs) : ∀ r ∈ rs, r.Normal := by
  induction xs generalizing rs with
  | nil =>
      cases h
      simp
  | cons x xs ih =>
      unfold readAll at h
      split at h
      · rename_i heq
        cases heq
      · rename_i kvs rest heq
        cases heq
        split at h
        · rename_i r hr
          cases hrest : readAll S py now xs with
          | error exc =>
              rw [hrest] at h
              cases h
          | ok rs' =>
              rw [hrest] at h
              cases h
              intro s hs
              rcases List.mem_cons.mp hs with rfl | hs
              · exact fromMapping_normal hr
              · exact ih hrest s hs
        · exact ih h
        · cases h
      · rename_i heq
        cases heq
        exact ih h

/-- A field that holds records of its own. -/
def codec (S : Schema) : Codec (List (Record S)) where
  read py now
    | some (.arr xs) => readAll S py now xs
    | _ => .ok []
  dump := dumpAll
  Normal rs := ∀ r ∈ rs, r.Normal
  read_dump py now _ h := readAll_dumpAll py now h
  read_normal {py now v x} h := by
    split at h
    · exact readAll_normal h
    · cases h
      simp

end Record

end Python
