/-
Agenthicc.Memory.ToolHistoryTheorems — the repair of a tool history only moves
results.

`results` are the results of a message as the repair reads them, `bare` is what
the message holds besides. One batch takes its results out of the messages
behind its calls and puts them right behind the calls: `bare` is kept in order,
and the results are the same but for the interruption results that are new. The
batches are repaired from the last one to the first, so the results of a batch
stay where they are put, unless an earlier batch expects one of their ids.
-/
import Agenthicc.Memory.ToolHistory

namespace Agenthicc.Memory

open Python

section
variable {py : Interp}

/-! ## 1. Messages -/

/-- The results of a message. -/
def results (py : Interp) (message : Json) : List Json :=
  if !message.isObj then []
  else if message.get "type" = .str "tool_result" then [message]
  else if message.get "role" = .str "tool" then [toolMessageBlock py message]
  else
    match message.get "content" with
    | .arr content => content.filter isResultBlock
    | _ => []

/-- What a message holds besides results. -/
def bare (message : Json) : Option Json :=
  if !message.isObj then some message
  else if message.get "type" = .str "tool_result" then none
  else if message.get "role" = .str "tool" then none
  else
    match message.get "content" with
    | .arr content =>
        let others := content.filter fun block => !isResultBlock block
        if content.filter isResultBlock = [] then some message
        else if others = [] then none else some (withContent others message)
    | _ => some message

/-- What the repair of a batch leaves of a message. -/
def residue (py : Interp) (wanted : List String) (message : Json) : Option Json :=
  (matchingResultBlocks py message wanted).2.1

/-- A message with a list of blocks. -/
structure Listed (message : Json) (content : List Json) : Prop where
  isObj : message.isObj = true
  type_ne : message.get "type" ≠ .str "tool_result"
  role_ne : message.get "role" ≠ .str "tool"
  content_eq : message.get "content" = .arr content

theorem lookup_withContent (content : List Json) (k : String) (kvs : List (String × Json)) :
    Json.lookup k (kvs.map fun kv => if kv.1 = "content" then (kv.1, .arr content) else kv)
      = if k = "content" then (Json.lookup k kvs).map fun _ => .arr content
        else Json.lookup k kvs := by
  induction kvs with
  | nil => simp [Json.lookup]
  | cons kv rest ih =>
    obtain ⟨k', v⟩ := kv
    rw [List.map_cons]
    by_cases hk : k = "content"
    · subst hk
      rw [if_pos rfl] at ih ⊢
      cases hrest : Json.lookup "content" rest <;> rw [hrest] at ih <;>
        by_cases hk' : k' = "content" <;> simp [Json.lookup, hk', ih, hrest]
    · rw [if_neg hk] at ih ⊢
      by_cases hk' : k' = "content"
      · have hne : ¬ "content" = k := fun he => hk he.symm
        simp [Json.lookup, hk', ih, hne]
      · simp [Json.lookup, hk', ih]

theorem get_withContent {message : Json} {content : List Json} (h : Listed message content)
    (others : List Json) (k : String) :
    (withContent others message).get k
      = if k = "content" then .arr others else message.get k := by
  cases message with
  | obj kvs =>
    have hcontent := h.content_eq
    simp only [withContent, Json.get, Json.getD, Json.get?, lookup_withContent] at hcontent ⊢
    by_cases hk : k = "content"
    · subst hk
      cases hlook : Json.lookup "content" kvs with
      | none => simp [hlook] at hcontent
      | some v => simp
    · simp [hk]
  | _ => exact absurd h.isObj (by simp [Json.isObj])

theorem Listed.withContent {message : Json} {content : List Json} (h : Listed message content)
    (others : List Json) : Listed (withContent others message) others where
  isObj := by
    cases message with
    | obj kvs => rfl
    | _ => exact h.isObj
  type_ne := by rw [get_withContent h]; simpa using h.type_ne
  role_ne := by rw [get_withContent h]; simpa using h.role_ne
  content_eq := by rw [get_withContent h]; simp

theorem withContent_withContent (a b : List Json) (message : Json) :
    withContent b (withContent a message) = withContent b message := by
  cases message with
  | obj kvs =>
    simp only [withContent, List.map_map, Json.obj.injEq]
    refine List.map_congr_left fun kv _ => ?_
    by_cases hk : kv.1 = "content" <;> simp [hk]
  | _ => rfl

theorem Listed.results_eq {message : Json} {content : List Json} (h : Listed message content) :
    results py message = content.filter isResultBlock := by
  simp [results, h.isObj, h.type_ne, h.role_ne, h.content_eq]

theorem Listed.bare_eq {message : Json} {content : List Json} (h : Listed message content) :
    bare message
      = if content.filter isResultBlock = [] then some message
        else if content.filter (fun block => !isResultBlock block) = [] then none
        else some (Memory.withContent (content.filter fun block => !isResultBlock block) message) := by
  simp only [bare, h.isObj, h.type_ne, h.role_ne, h.content_eq]
  rfl

/-- The three kinds of messages: one without results, one that is a result, and
one with a list of blocks. -/
theorem message_cases (py : Interp) (message : Json) :
    (results py message = [] ∧ bare message = some message
        ∧ ∀ wanted, matchingResultBlocks py message wanted = ([], some message, false))
      ∨ (∃ block, results py message = [block] ∧ bare message = none
        ∧ ∀ wanted, matchingResultBlocks py message wanted
          = if resultId py block ∈ wanted then ([block], none, true)
            else ([], some message, false))
      ∨ ∃ content, Listed message content := by
  by_cases hobj : message.isObj = true
  · by_cases htype : message.get "type" = .str "tool_result"
    · refine .inr (.inl ⟨message, ?_, ?_, fun wanted => ?_⟩) <;>
        simp [results, bare, matchingResultBlocks, hobj, htype]
    · by_cases hrole : message.get "role" = .str "tool"
      · refine .inr (.inl ⟨toolMessageBlock py message, ?_, ?_, fun wanted => ?_⟩) <;>
          simp [results, bare, matchingResultBlocks, hobj, htype, hrole]
      · cases hcontent : message.get "content" with
        | arr content => exact .inr (.inr ⟨content, hobj, htype, hrole, hcontent⟩)
        | _ =>
          refine .inl ⟨?_, ?_, fun wanted => ?_⟩ <;>
            simp [results, bare, matchingResultBlocks, hobj, htype, hrole, hcontent]
  · refine .inl ⟨?_, ?_, fun wanted => ?_⟩ <;>
      simp [results, bare, matchingResultBlocks, hobj]

/-- Whether a result is one of the wanted ones. -/
def hit (py : Interp) (wanted : List String) (block : Json) : Bool := resultId py block ∈ wanted

theorem Listed.matching_eq {message : Json} {content : List Json} (h : Listed message content)
    (wanted : List String) :
    matchingResultBlocks py message wanted
      = if content.filter (fun b => isResultBlock b && hit py wanted b) = [] then
          ([], some message, false)
        else
          (content.filter (fun b => isResultBlock b && hit py wanted b),
            if content.filter (fun b => !(isResultBlock b && hit py wanted b)) = [] then none
            else some (Memory.withContent
              (content.filter fun b => !(isResultBlock b && hit py wanted b)) message), true) := by
  simp only [matchingResultBlocks, h.isObj, h.type_ne, h.role_ne, h.content_eq]
  rfl

theorem matching_blocks (wanted : List String) (message : Json) :
    (matchingResultBlocks py message wanted).1
      = (results py message).filter (hit py wanted) := by
  rcases message_cases py message with ⟨hres, -, hmatch⟩ | ⟨block, hres, -, hmatch⟩ | ⟨content, h⟩
  · rw [hmatch, hres]; rfl
  · rw [hmatch, hres]
    by_cases hmem : resultId py block ∈ wanted <;> simp [hit, hmem]
  · rw [h.matching_eq, h.results_eq, List.filter_filter]
    have hcomm : (fun b => isResultBlock b && hit py wanted b)
        = fun b => hit py wanted b && isResultBlock b := by
      funext b; exact Bool.and_comm ..
    rw [hcomm]
    split
    · rename_i hnil; exact hnil.symm
    · rfl

theorem results_residue (wanted : List String) (message : Json) :
    (residue py wanted message).toList.flatMap (results py)
      = (results py message).filter fun block => !hit py wanted block := by
  simp only [residue]
  rcases message_cases py message with ⟨hres, -, hmatch⟩ | ⟨block, hres, -, hmatch⟩ | ⟨content, h⟩
  · simp [hmatch, hres]
  · rw [hmatch, hres]
    by_cases hmem : resultId py block ∈ wanted <;> simp [hit, hmem, hres]
  · have hcomm : content.filter (fun b => isResultBlock b && !hit py wanted b)
        = (content.filter isResultBlock).filter fun b => !hit py wanted b := by
      rw [List.filter_filter]
      congr 1; funext b; exact Bool.and_comm ..
    rw [h.matching_eq]
    split
    · rename_i hnil
      have hstay : ∀ b ∈ content.filter isResultBlock, (!hit py wanted b) = true := by
        intro b hb
        obtain ⟨hb, hres⟩ := List.mem_filter.mp hb
        have := List.filter_eq_nil_iff.mp hnil b hb
        simpa [hres] using this
      simp [h.results_eq, List.filter_eq_self.mpr hstay]
    · rw [h.results_eq, ← hcomm]
      split
      · rename_i hnil
        have hnone : content.filter (fun b => isResultBlock b && !hit py wanted b) = [] := by
          refine List.filter_eq_nil_iff.mpr fun b hb => ?_
          have hin : isResultBlock b = true ∧ hit py wanted b = true := by
            simpa using List.filter_eq_nil_iff.mp hnil b hb
          simp [hin.2]
        simp [hnone]
      · simp only [Option.toList_some, List.flatMap_cons, List.flatMap_nil, List.append_nil]
        rw [(h.withContent _).results_eq, List.filter_filter]
        congr 1; funext b
        cases isResultBlock b <;> cases hit py wanted b <;> rfl

theorem matching_of_not_removed {wanted : List String} {message : Json}
    (h : (matchingResultBlocks py message wanted).2.2 = false) :
    (matchingResultBlocks py message wanted).1 = [] ∧ residue py wanted message = some message := by
  simp only [residue]
  rcases message_cases py message with ⟨-, -, hmatch⟩ | ⟨block, -, -, hmatch⟩ | ⟨content, hl⟩
  · simp [hmatch]
  · rw [hmatch] at h ⊢
    split at h
    · cases h
    · rename_i hmem; simp [hmem]
  · rw [hl.matching_eq] at h ⊢
    split at h
    · rename_i hnil; simp [hnil]
    · cases h

theorem bare_residue (wanted : List String) (message : Json) :
    (residue py wanted message).bind bare = bare message := by
  simp only [residue]
  rcases message_cases py message with ⟨-, hbare, hmatch⟩ | ⟨block, -, hbare, hmatch⟩ | ⟨content, h⟩
  · simp [hmatch, hbare]
  · rw [hmatch, hbare]
    by_cases hmem : resultId py block ∈ wanted <;> simp [hmem, hbare]
  · have hothers : (content.filter fun b => !(isResultBlock b && hit py wanted b)).filter
        (fun b => !isResultBlock b) = content.filter fun b => !isResultBlock b := by
      rw [List.filter_filter]
      congr 1; funext b
      cases isResultBlock b <;> simp
    rw [h.matching_eq]
    split
    · rfl
    · rename_i hsome
      have hres : content.filter isResultBlock ≠ [] := by
        intro hnil
        refine hsome (List.filter_eq_nil_iff.mpr fun b hb => ?_)
        have := List.filter_eq_nil_iff.mp hnil b hb
        simp [this]
      split
      · rename_i hnil
        rw [hnil] at hothers
        simp [h.bare_eq, hres, ← hothers]
      · rename_i hrest
        simp only [Option.bind_some]
        rw [(h.withContent _).bare_eq, h.bare_eq, if_neg hres, hothers, withContent_withContent]
        split
        · rename_i hnil
          have hself : content.filter (fun b => !(isResultBlock b && hit py wanted b))
              = content.filter fun b => !isResultBlock b := by
            rw [← hothers]
            refine (List.filter_eq_self.mpr fun b hb => ?_).symm
            have := List.filter_eq_nil_iff.mp hnil b hb
            simpa using this
          rw [hself] at hrest ⊢
          rw [if_neg hrest]
        · rfl

theorem residue_eq_self {wanted : List String} {message : Json}
    (h : ∀ block ∈ results py message, resultId py block ∉ wanted) :
    residue py wanted message = some message := by
  simp only [residue]
  rcases message_cases py message with ⟨-, -, hmatch⟩ | ⟨block, hres, -, hmatch⟩ | ⟨content, hl⟩
  · rw [hmatch]
  · rw [hmatch, if_neg (h block (by simp [hres]))]
  · have hnil : content.filter (fun b => isResultBlock b && hit py wanted b) = [] := by
      refine List.filter_eq_nil_iff.mpr fun b hb => ?_
      cases hres : isResultBlock b with
      | false => simp
      | true =>
        have := h b (by rw [hl.results_eq]; exact List.mem_filter.mpr ⟨hb, hres⟩)
        simp [hit, this]
    rw [hl.matching_eq, if_pos hnil]

theorem toolMessageBlock_type (message : Json) :
    (toolMessageBlock py message).get "type" = .str "tool_result" := by
  simp only [toolMessageBlock]
  cases message.get? "is_error" <;> simp [Json.get, Json.getD, Json.get?, Json.lookup]

theorem isResultBlock_of_mem_results {message block : Json} (h : block ∈ results py message) :
    isResultBlock block = true := by
  simp only [results] at h
  split at h
  · cases h
  · rename_i hobj
    split at h
    · rename_i htype
      rw [List.mem_singleton.mp h]
      simpa [isResultBlock, htype] using hobj
    · split at h
      · rw [List.mem_singleton.mp h]
        have hblock : (toolMessageBlock py message).isObj = true := rfl
        simp [isResultBlock, hblock, toolMessageBlock_type]
      · split at h
        · exact (List.mem_filter.mp h).2
        · cases h

/-! ## 2. One batch -/

theorem addMatches_spec {found found' : Found} {blocks : List Json}
    (h : addMatches py found blocks = some found') :
    found'.items
      = found.items ++ (blocks.filter fun b => resultId py b ≠ "").map fun b =>
          (resultId py b, b) := by
  induction blocks generalizing found with
  | nil => simp only [addMatches, Option.some.injEq] at h; simp [h]
  | cons block rest ih =>
    simp only [addMatches] at h
    by_cases hid : resultId py block = ""
    · rw [if_pos hid] at h
      rw [ih h]
      simp [hid]
    · rw [if_neg hid] at h
      split at h
      · cases h
      · rename_i hnew
        have hnone : found.get? (resultId py block) = none := by simpa using hnew
        rw [ih h, Dict.items_set_of_none _ hnone]
        simp [hid]

/-- What a scan finds and what it leaves, when it ends without a duplicate. -/
theorem scan_spec {wanted : List String} {messages kept : List Json} {found : Found}
    (h : scan py wanted messages = some (found, kept)) :
    kept = messages.filterMap (residue py wanted)
      ∧ (found.items.map Prod.snd).Perm ((messages.flatMap (results py)).filter fun b =>
          hit py wanted b && resultId py b ≠ "")
      ∧ ∀ p ∈ found.items, p.1 = resultId py p.2 ∧ p.1 ∈ wanted ∧ isResultBlock p.2 = true := by
  induction messages generalizing found kept with
  | nil =>
    simp only [scan, Option.some.injEq, Prod.mk.injEq] at h
    obtain ⟨rfl, rfl⟩ := h
    exact ⟨rfl, .refl _, by simp [Dict.empty]⟩
  | cons message later ih =>
    simp only [scan, Option.bind_eq_bind, Option.bind_eq_some_iff, Prod.exists] at h
    obtain ⟨found₁, kept₁, hscan, h⟩ := h
    obtain ⟨hkept, hperm, hall⟩ := ih hscan
    have hhits : ((results py message ++ later.flatMap (results py)).filter fun b =>
        hit py wanted b && resultId py b ≠ "")
          = ((matchingResultBlocks py message wanted).1.filter fun b => resultId py b ≠ "")
            ++ (later.flatMap (results py)).filter fun b => hit py wanted b && resultId py b ≠ "" := by
      rw [matching_blocks, List.filter_append, List.filter_filter]
      congr 2; funext b; exact Bool.and_comm ..
    rw [List.flatMap_cons, hhits, List.filterMap_cons]
    cases hremoved : (matchingResultBlocks py message wanted).2.2 with
    | false =>
      obtain ⟨hnone, hself⟩ := matching_of_not_removed hremoved
      simp only [hremoved, Bool.not_false, if_true, Option.pure_def, Option.some.injEq,
        Prod.mk.injEq] at h
      obtain ⟨rfl, rfl⟩ := h
      rw [hself, hnone, hkept]
      exact ⟨rfl, hperm, hall⟩
    | true =>
      simp only [hremoved, Bool.not_true, Bool.false_eq_true, if_false, Option.bind_eq_some_iff,
        Option.pure_def, Option.some.injEq, Prod.mk.injEq] at h
      obtain ⟨found₂, hadd, rfl, rfl⟩ := h
      have hitems := addMatches_spec hadd
      refine ⟨?_, ?_, ?_⟩
      · rw [hkept]
        simp only [residue]
        cases (matchingResultBlocks py message wanted).2.1 <;> rfl
      · rw [hitems, List.map_append, List.map_map]
        have hmap : ∀ l : List Json, l.map (Prod.snd ∘ fun b => (resultId py b, b)) = l := by
          intro l; exact List.map_id _
        rw [hmap]
        exact List.perm_append_comm.trans (hperm.append_left _)
      · intro p hp
        rw [hitems] at hp
        rcases List.mem_append.mp hp with hp | hp
        · exact hall p hp
        · obtain ⟨b, hb, rfl⟩ := List.mem_map.mp hp
          have hb := (List.mem_filter.mp hb).1
          rw [matching_blocks] at hb
          obtain ⟨hmem, hhit⟩ := List.mem_filter.mp hb
          exact ⟨rfl, by simpa [hit] using hhit, isResultBlock_of_mem_results hmem⟩

variable {sha256 : String → String} {allowed : Option (List String)}

theorem resultId_interruptedResult (id : String) : resultId py (interruptedResult id) = id := by
  by_cases h : id = "" <;>
    simp [resultId, pyOr, interruptedResult, Json.get, Json.getD, Json.get?, Json.lookup, pyTruth, h]

/-- The blocks of a batch: in call order, each the result that was found or one
that says that there is none. -/
theorem resultBlocks_spec {found : Found} {ids : List String} {blocks : List Json}
    (h : resultBlocks sha256 allowed found ids = some blocks) :
    blocks = ids.map (fun id => (found.get? id).getD (interruptedResult id))
      ∧ ∀ id ∈ ids, found.get? id = none → allowedMissing sha256 allowed id = true := by
  induction ids generalizing blocks with
  | nil =>
    simp only [resultBlocks, List.mapM_nil, Option.pure_def, Option.some.injEq] at h
    simp [← h]
  | cons id ids ih =>
    simp only [resultBlocks, List.mapM_cons, Option.bind_eq_bind, Option.bind_eq_some_iff,
      Option.pure_def, Option.some.injEq] at h
    obtain ⟨block, hblock, rest, hrest, rfl⟩ := h
    obtain ⟨hmap, hallowed⟩ := ih hrest
    cases hget : found.get? id with
    | some b =>
      simp only [hget, Option.some.injEq] at hblock
      refine ⟨by simp [hget, hblock, hmap], ?_⟩
      intro j hj hnone
      rcases List.mem_cons.mp hj with rfl | hj
      · rw [hget] at hnone; cases hnone
      · exact hallowed j hj hnone
    | none =>
      simp only [hget] at hblock
      split at hblock
      · rename_i hall
        cases hblock
        refine ⟨by simp [hget, hmap], ?_⟩
        intro j hj hnone
        rcases List.mem_cons.mp hj with rfl | hj
        · exact hall
        · exact hallowed j hj hnone
      · cases hblock

/-- The blocks are the results that were found, and the new ones. -/
theorem resultBlocks_perm {found : Found} {ids : List String} {blocks : List Json}
    (h : resultBlocks sha256 allowed found ids = some blocks) (hnodup : ids.Nodup)
    (hfound : ∀ p ∈ found.items, p.1 ∈ ids) :
    blocks.Perm (found.items.map Prod.snd
      ++ (ids.filter fun id => (found.get? id).isNone).map interruptedResult) := by
  obtain ⟨rfl, -⟩ := resultBlocks_spec h
  have hkeys : (found.items.map Prod.fst).Perm (ids.filter fun id => (found.get? id).isSome) := by
    refine (List.perm_ext_iff_of_nodup found.nodup (hnodup.filter _)).mpr fun id => ?_
    rw [List.mem_filter, Dict.mem_keys_iff, Option.isSome_iff_exists]
    constructor
    · rintro ⟨b, hb⟩
      exact ⟨hfound (id, b) (Dict.mem_items_iff.mpr hb), b, hb⟩
    · exact fun hid => hid.2
  have hvalues : (found.items.map Prod.fst).map
      (fun id => (found.get? id).getD (interruptedResult id)) = found.items.map Prod.snd := by
    rw [List.map_map]
    refine List.map_congr_left fun p hp => ?_
    simp [Dict.mem_items_iff.mp (show (p.1, p.2) ∈ found.items from hp)]
  have hnew : (ids.filter fun id => !(found.get? id).isSome).map
      (fun id => (found.get? id).getD (interruptedResult id))
        = (ids.filter fun id => (found.get? id).isNone).map interruptedResult := by
    have hnot : (fun id => !(found.get? id).isSome) = fun id => (found.get? id).isNone := by
      funext id; simp
    rw [hnot]
    refine List.map_congr_left fun id hid => ?_
    have := (List.mem_filter.mp hid).2
    rw [Option.isNone_iff_eq_none] at this
    simp [this]
  refine ((List.filter_append_perm (fun id => (found.get? id).isSome) ids).symm.map _).trans ?_
  rw [List.map_append, hnew, ← hvalues]
  exact ((hkeys.symm.map _).append_right _)

/-! ## 3. One issue -/

def ToolHistoryIssue.index (issue : ToolHistoryIssue) : Nat :=
  (issue.assistant_index.getD 0).toNat

/-- What a report says of the calls of a batch: where they are, and their ids. -/
structure ToolHistoryIssue.NamesCalls (py : Interp) (messages : List Json)
    (issue : ToolHistoryIssue) : Prop where
  assistant_index : issue.assistant_index = some (issue.index : Int)
  call : ∃ call, messages[issue.index]? = some call ∧ results py call = []
  ids_ne : issue.expected_ids ≠ []
  distinct : issue.expected_ids.Nodup
  named : "" ∉ issue.expected_ids

/-- The blocks of a user message are the results for these ids, in this order. -/
structure Answers (py : Interp) (ids : List String) (blocks : List Json) : Prop where
  ids_eq : blocks.map (resultId py) = ids
  isResult : ∀ block ∈ blocks, isResultBlock block = true

theorem results_resultMessage {blocks : List Json}
    (h : ∀ block ∈ blocks, isResultBlock block = true) :
    results py (resultMessage blocks) = blocks := by
  have hl : Listed (resultMessage blocks) blocks := by
    constructor <;> simp [resultMessage, Json.isObj, Json.get, Json.getD, Json.get?, Json.lookup]
  rw [hl.results_eq]
  exact List.filter_eq_self.mpr h

theorem bare_resultMessage {blocks : List Json}
    (h : ∀ block ∈ blocks, isResultBlock block = true) (hne : blocks ≠ []) :
    bare (resultMessage blocks) = none := by
  have hl : Listed (resultMessage blocks) blocks := by
    constructor <;> simp [resultMessage, Json.isObj, Json.get, Json.getD, Json.get?, Json.lookup]
  have hothers : blocks.filter (fun block => !isResultBlock block) = [] :=
    List.filter_eq_nil_iff.mpr fun b hb => by simp [h b hb]
  rw [hl.bare_eq, List.filter_eq_self.mpr h, if_neg hne, if_pos hothers]

theorem filterMap_residue_bare (wanted : List String) (messages : List Json) :
    (messages.filterMap (residue py wanted)).filterMap bare = messages.filterMap bare := by
  rw [List.filterMap_filterMap]
  congr 1; funext message
  exact bare_residue wanted message

theorem flatMap_residue_results (wanted : List String) (messages : List Json) :
    (messages.filterMap (residue py wanted)).flatMap (results py)
      = (messages.flatMap (results py)).filter fun block => !hit py wanted block := by
  induction messages with
  | nil => rfl
  | cons message rest ih =>
    rw [List.flatMap_cons, List.filter_append, ← ih, ← results_residue, List.filterMap_cons]
    cases residue py wanted message <;> simp

/-- What one issue does to a history: the batch is answered right behind its
calls, and the messages behind lose the results that answer it. -/
structure BatchRepaired (py : Interp) (sha256 : String → String) (allowed : Option (List String))
    (ids : List String) (behind blocks new : List Json) : Prop where
  answers : Answers py ids blocks
  taken : blocks.Perm ((behind.flatMap (results py)).filter (hit py ids) ++ new)
  interrupted : ∀ block ∈ new, ∃ id, block = interruptedResult id
    ∧ allowedMissing sha256 allowed id = true

theorem repairIssue_spec {front behind repaired : List Json} {call : Json} {c c' : Bool}
    {issue : ToolHistoryIssue} (hindex : issue.assistant_index = some (front.length : Int))
    (hne : issue.expected_ids ≠ []) (hnodup : issue.expected_ids.Nodup)
    (hnamed : "" ∉ issue.expected_ids)
    (h : repairIssue py sha256 allowed (front ++ call :: behind, c) issue = some (repaired, c')) :
    c' = true ∧ ∃ blocks new,
      repaired = front ++ call :: resultMessage blocks
          :: behind.filterMap (residue py issue.expected_ids)
        ∧ BatchRepaired py sha256 allowed issue.expected_ids behind blocks new := by
  have hdrop : (front ++ call :: behind).drop (front.length + 1) = behind := by
    rw [List.drop_append]; simp
  have htake : (front ++ call :: behind).take (front.length + 1) = front ++ [call] := by
    rw [List.take_append, List.take_of_length_le (by omega)]; simp
  have hguard : ¬ (issue.expected_ids = [] ∨ (front.length : Int) < 0
      ∨ ((front ++ call :: behind).length : Int) ≤ front.length) := by
    simp only [List.length_append, List.length_cons, not_or]
    exact ⟨hne, by omega, by omega⟩
  simp only [repairIssue, hindex, hguard, if_false, Int.toNat_natCast, hdrop, htake,
    Option.bind_eq_bind, Option.bind_eq_some_iff, Prod.exists, Option.pure_def,
    Option.some.injEq, Prod.mk.injEq] at h
  obtain ⟨found, kept, hscan, blocks, hblocks, rfl, rfl⟩ := h
  obtain ⟨rfl, hperm, hall⟩ := scan_spec hscan
  obtain ⟨hmap, hallowed⟩ := resultBlocks_spec hblocks
  have htaken := resultBlocks_perm hblocks hnodup fun p hp => (hall p hp).2.1
  have hhit : (fun b => hit py issue.expected_ids b && decide (resultId py b ≠ ""))
      = hit py issue.expected_ids := by
    funext b
    by_cases hid : resultId py b = ""
    · simp [hit, hid, hnamed]
    · simp [hid]
  rw [hhit] at hperm
  refine ⟨rfl, blocks, _, by simp, ⟨?_, ?_⟩, htaken.trans (hperm.append_right _), ?_⟩
  · rw [hmap, List.map_map]
    refine (List.map_congr_left fun id _ => ?_).trans (List.map_id _)
    cases hget : found.get? id with
    | none => simp [hget, resultId_interruptedResult]
    | some b => simpa [hget] using (hall (id, b) (Dict.mem_items_iff.mpr hget)).1.symm
  · intro b hb
    rw [hmap] at hb
    obtain ⟨id, -, rfl⟩ := List.mem_map.mp hb
    cases hget : found.get? id with
    | none => simp [isResultBlock, interruptedResult, Json.isObj, Json.get, Json.getD, Json.get?,
        Json.lookup]
    | some b => simpa [hget] using (hall (id, b) (Dict.mem_items_iff.mpr hget)).2.2
  · intro b hb
    obtain ⟨id, hid, rfl⟩ := List.mem_map.mp hb
    obtain ⟨hmem, hnone⟩ := List.mem_filter.mp hid
    exact ⟨id, rfl, hallowed id hmem (by simpa using hnone)⟩

/-! ## 4. All issues -/

/-- The batches from `front` on are repaired, and nothing before them is
touched. -/
structure Progress (py : Interp) (sha256 : String → String) (allowed : Option (List String))
    (messages front tail : List Json) : Prop where
  untouched : ∃ back, messages = front ++ back ∧ tail.filterMap bare = back.filterMap bare
  moved : ∃ new, ((front ++ tail).flatMap (results py)).Perm
      (messages.flatMap (results py) ++ new)
    ∧ ∀ block ∈ new, ∃ id, block = interruptedResult id
      ∧ allowedMissing sha256 allowed id = true

/-- In `tail` the calls at `i` are followed by the message `behind`, and `post`
comes after it. -/
structure Standing (py : Interp) (messages front tail : List Json) (i : Nat) (behind : Json)
    (post : List Json) : Prop where
  split : ∃ pre call, tail = pre ++ call :: behind :: post
    ∧ (front ++ pre).filterMap bare = (messages.take i).filterMap bare
    ∧ messages[i]? = some call ∧ results py call = []

theorem bare_eq_self {message : Json} (h : results py message = []) : bare message = some message := by
  rcases message_cases py message with ⟨-, hbare, -⟩ | ⟨block, hres, -, -⟩ | ⟨content, hl⟩
  · exact hbare
  · rw [hres] at h; cases h
  · rw [hl.results_eq] at h
    rw [hl.bare_eq, if_pos h]

section
variable {messages front mid tail : List Json} {call : Json} {ids : List String}
  {blocks new : List Json}

theorem Progress.step (hp : Progress py sha256 allowed messages (front ++ call :: mid) tail)
    (hcall : results py call = []) (hids : ids ≠ [])
    (hb : BatchRepaired py sha256 allowed ids (mid ++ tail) blocks new) :
    Progress py sha256 allowed messages front
      (call :: resultMessage blocks :: (mid ++ tail).filterMap (residue py ids)) := by
  obtain ⟨back, rfl, hback⟩ := hp.untouched
  obtain ⟨old, hmoved, hold⟩ := hp.moved
  have hblocks : blocks ≠ [] := by
    intro hnil
    have := hb.answers.ids_eq
    rw [hnil] at this
    exact hids this.symm
  refine ⟨⟨call :: mid ++ back, by simp, ?_⟩, old ++ new, ?_, ?_⟩
  · simp only [List.cons_append, List.filterMap_cons, bare_eq_self hcall,
      bare_resultMessage hb.answers.isResult hblocks, filterMap_residue_bare,
      List.filterMap_append, hback]
  · have hkeep := List.filter_append_perm (hit py ids) ((mid ++ tail).flatMap (results py))
    have hrest : (blocks ++ ((mid ++ tail).flatMap (results py)).filter
        fun block => !hit py ids block).Perm ((mid ++ tail).flatMap (results py) ++ new) := by
      refine (hb.taken.append_right _).trans ?_
      rw [List.append_assoc]
      refine (List.perm_append_comm.append_left _).trans ?_
      rw [← List.append_assoc]
      exact hkeep.append_right _
    have hfront : (front ++ call :: resultMessage blocks
        :: (mid ++ tail).filterMap (residue py ids)).flatMap (results py)
          = front.flatMap (results py) ++ (blocks ++ ((mid ++ tail).flatMap (results py)).filter
            fun block => !hit py ids block) := by
      simp only [List.flatMap_append, List.flatMap_cons, hcall, List.nil_append,
        results_resultMessage hb.answers.isResult, flatMap_residue_results]
    have hold' : (front ++ call :: mid ++ tail).flatMap (results py)
        = front.flatMap (results py) ++ (mid ++ tail).flatMap (results py) := by
      simp [hcall]
    rw [hold'] at hmoved
    rw [hfront]
    refine (hrest.append_left _).trans ?_
    rw [← List.append_assoc, ← List.append_assoc]
    exact hmoved.append_right _
  · intro block hblock
    rcases List.mem_append.mp hblock with hblock | hblock
    · exact hold block hblock
    · exact hb.interrupted block hblock

theorem Standing.first (hfront : ∃ back, messages = front ++ call :: mid ++ back)
    (hcall : results py call = []) (behind : Json) (post : List Json) :
    Standing py messages front (call :: behind :: post) front.length behind post := by
  obtain ⟨back, rfl⟩ := hfront
  refine ⟨[], call, rfl, ?_, ?_, hcall⟩
  · simp
  · simp

/-- A batch that stands keeps standing behind an earlier one, as long as its
message keeps a result. -/
theorem Standing.step {i : Nat} {behind behind' : Json} {post : List Json}
    (hs : Standing py messages (front ++ call :: mid) tail i behind post)
    (hcall : results py call = []) (hids : ids ≠ [])
    (hb : BatchRepaired py sha256 allowed ids (mid ++ tail) blocks new)
    (hbehind : residue py ids behind = some behind') :
    Standing py messages front
      (call :: resultMessage blocks :: (mid ++ tail).filterMap (residue py ids)) i behind'
      (post.filterMap (residue py ids)) := by
  obtain ⟨pre, call', rfl, hpre, hcall', hres'⟩ := hs.split
  have hblocks : blocks ≠ [] := by
    intro hnil
    have := hb.answers.ids_eq
    rw [hnil] at this
    exact hids this.symm
  have hself : residue py ids call' = some call' :=
    residue_eq_self fun b hb => by rw [hres'] at hb; cases hb
  refine ⟨call :: resultMessage blocks :: (mid ++ pre).filterMap (residue py ids), call', ?_, ?_,
    hcall', hres'⟩
  · simp [List.filterMap_append, hself, hbehind]
  · rw [← hpre]
    simp only [List.filterMap_append, List.filterMap_cons, bare_eq_self hcall,
      bare_resultMessage hb.answers.isResult hblocks, filterMap_residue_bare, List.append_assoc,
      List.cons_append]

end

/-- One issue of a run, from `front ++ tail` to `front' ++ tail'`. -/
inductive Step (py : Interp) (sha256 : String → String) (allowed : Option (List String))
    (issue : ToolHistoryIssue) : List Json → List Json → List Json → List Json → Prop where
  | batch {front call mid tail blocks new} (hlen : front.length = issue.index)
      (hcall : results py call = []) (hids : issue.expected_ids ≠ [])
      (hb : BatchRepaired py sha256 allowed issue.expected_ids (mid ++ tail) blocks new) :
      Step py sha256 allowed issue (front ++ call :: mid) tail front
        (call :: resultMessage blocks
          :: (mid ++ tail).filterMap (residue py issue.expected_ids))

/-- A run over issues, each of calls before those of the one before it. -/
inductive Steps (py : Interp) (sha256 : String → String) (allowed : Option (List String)) :
    List ToolHistoryIssue → List Json → List Json → List Json → List Json → Prop where
  | nil {front tail} : Steps py sha256 allowed [] front tail front tail
  | cons {issue rest front tail front₁ tail₁ front' tail'}
      (hstep : Step py sha256 allowed issue front tail front₁ tail₁)
      (hrest : Steps py sha256 allowed rest front₁ tail₁ front' tail') :
      Steps py sha256 allowed (issue :: rest) front tail front' tail'

section
variable {messages front tail front' tail' : List Json} {issue : ToolHistoryIssue}
  {issues : List ToolHistoryIssue}

theorem repairIssue_step {repaired : List Json} {c c' : Bool} (hn : issue.NamesCalls py messages)
    (hfront : ∃ back, messages = front ++ back) (hlt : issue.index < front.length)
    (h : repairIssue py sha256 allowed (front ++ tail, c) issue = some (repaired, c')) :
    c' = true ∧ ∃ front₁ tail₁, repaired = front₁ ++ tail₁
      ∧ Step py sha256 allowed issue front tail front₁ tail₁ := by
  obtain ⟨back, rfl⟩ := hfront
  obtain ⟨call, hget, hcall⟩ := hn.call
  rw [List.getElem?_append_left hlt] at hget
  have hlen : (front.take issue.index).length = issue.index := by
    rw [List.length_take]; omega
  have hsplit : front = front.take issue.index ++ call :: front.drop (issue.index + 1) := by
    have hdrop := List.drop_eq_getElem_cons hlt
    rw [List.getElem?_eq_getElem hlt, Option.some.injEq] at hget
    rw [← hget, ← hdrop, List.take_append_drop]
  have hindex : issue.assistant_index = some ((front.take issue.index).length : Int) := by
    rw [hlen]; exact hn.assistant_index
  have hstate : front ++ tail = front.take issue.index
      ++ call :: (front.drop (issue.index + 1) ++ tail) := by
    rw [← List.cons_append, ← List.append_assoc, ← hsplit]
  rw [hstate] at h
  obtain ⟨rfl, blocks, new, rfl, hb⟩ :=
    repairIssue_spec hindex hn.ids_ne hn.distinct hn.named h
  refine ⟨rfl, _, _, rfl, ?_⟩
  have hstep := Step.batch hlen hcall hn.ids_ne hb
  rw [← hsplit] at hstep
  exact hstep

theorem Step.front_append (hs : Step py sha256 allowed issue front tail front' tail')
    (hfront : ∃ back, messages = front ++ back) : ∃ back, messages = front' ++ back := by
  obtain ⟨back, rfl⟩ := hfront
  cases hs with
  | batch => exact ⟨_, List.append_assoc ..⟩

theorem repairIssues_steps {final : List Json} {c c' : Bool}
    (hnames : ∀ issue ∈ issues, issue.NamesCalls py messages)
    (hsorted : issues.Pairwise fun a b => b.index < a.index)
    (hlt : ∀ issue ∈ issues, issue.index < front.length) (hfront : ∃ back, messages = front ++ back)
    (h : issues.foldlM (repairIssue py sha256 allowed) (front ++ tail, c) = some (final, c')) :
    (issues ≠ [] → c' = true) ∧ ∃ front' tail', final = front' ++ tail'
      ∧ Steps py sha256 allowed issues front tail front' tail' := by
  induction issues generalizing front tail c with
  | nil =>
    simp only [List.foldlM_nil, Option.pure_def, Option.some.injEq, Prod.mk.injEq] at h
    exact ⟨fun hne => absurd rfl hne, front, tail, h.1.symm, .nil⟩
  | cons issue rest ih =>
    rw [List.foldlM_cons, Option.bind_eq_bind, Option.bind_eq_some_iff] at h
    obtain ⟨⟨repaired, c₁⟩, hissue, hloop⟩ := h
    obtain ⟨rfl, front₁, tail₁, rfl, hstep⟩ := repairIssue_step
      (hnames issue List.mem_cons_self) hfront (hlt issue List.mem_cons_self) hissue
    obtain ⟨hlater, hsorted⟩ := List.pairwise_cons.mp hsorted
    have hlt' : ∀ other ∈ rest, other.index < front₁.length := by
      intro other hother
      cases hstep with
      | batch hlen => rw [hlen]; exact hlater other hother
    have hfront' := hstep.front_append hfront
    obtain ⟨hchanged, front', tail', rfl, hsteps⟩ := ih
      (fun other hother => hnames other (List.mem_cons_of_mem _ hother)) hsorted hlt' hfront' hloop
    refine ⟨fun _ => ?_, front', tail', rfl, .cons hstep hsteps⟩
    cases rest with
    | nil => simp only [List.foldlM_nil, Option.pure_def, Option.some.injEq, Prod.mk.injEq] at hloop
             exact hloop.2.symm
    | cons => exact hchanged (by simp)

theorem Step.progress (hs : Step py sha256 allowed issue front tail front' tail')
    (hp : Progress py sha256 allowed messages front tail) :
    Progress py sha256 allowed messages front' tail' := by
  cases hs with
  | batch _ hcall hids hb => exact hp.step hcall hids hb

theorem Steps.progress (hs : Steps py sha256 allowed issues front tail front' tail')
    (hp : Progress py sha256 allowed messages front tail) :
    Progress py sha256 allowed messages front' tail' := by
  induction hs with
  | nil => exact hp
  | cons hstep _ ih => exact ih (hstep.progress hp)

/-- The messages of an answered batch survive a batch with other ids. -/
theorem Step.standing {i : Nat} {ids : List String} {blocks post : List Json}
    (hs : Step py sha256 allowed issue front tail front' tail') (ha : Answers py ids blocks)
    (hdisjoint : ids.Disjoint issue.expected_ids)
    (h : Standing py messages front tail i (resultMessage blocks) post) :
    ∃ post', Standing py messages front' tail' i (resultMessage blocks) post' := by
  cases hs with
  | batch _ hcall hids hb =>
    refine ⟨_, h.step hcall hids hb (residue_eq_self fun b hmem => ?_)⟩
    rw [results_resultMessage ha.isResult] at hmem
    intro hwanted
    refine hdisjoint ?_ hwanted
    rw [← ha.ids_eq]
    exact List.mem_map_of_mem hmem

theorem Steps.standing {i : Nat} {ids : List String} {blocks post : List Json}
    (hs : Steps py sha256 allowed issues front tail front' tail') (ha : Answers py ids blocks)
    (hdisjoint : ∀ issue ∈ issues, ids.Disjoint issue.expected_ids)
    (h : Standing py messages front tail i (resultMessage blocks) post) :
    ∃ post', Standing py messages front' tail' i (resultMessage blocks) post' := by
  induction hs generalizing post with
  | nil => exact ⟨post, h⟩
  | cons hstep _ ih =>
    obtain ⟨post₁, h₁⟩ := hstep.standing ha (hdisjoint _ List.mem_cons_self) h
    exact ih (fun other hother => hdisjoint other (List.mem_cons_of_mem _ hother)) h₁

theorem Step.answered (hs : Step py sha256 allowed issue front tail front' tail')
    (hfront : ∃ back, messages = front ++ back) :
    ∃ blocks post, Answers py issue.expected_ids blocks
      ∧ Standing py messages front' tail' issue.index (resultMessage blocks) post
      ∧ ∀ block ∈ post.flatMap (results py), resultId py block ∉ issue.expected_ids := by
  cases hs with
  | batch hlen hcall _ hb =>
    refine ⟨_, _, hb.answers, hlen ▸ Standing.first hfront hcall _ _, fun block hblock => ?_⟩
    rw [flatMap_residue_results] at hblock
    simpa [hit] using (List.mem_filter.mp hblock).2

/-- Where no two batches expect a common id every batch is answered in the end. -/
theorem Steps.answered (hs : Steps py sha256 allowed issues front tail front' tail')
    (hfront : ∃ back, messages = front ++ back)
    (hdisjoint : issues.Pairwise fun a b => a.expected_ids.Disjoint b.expected_ids) :
    ∀ issue ∈ issues, ∃ blocks post, Answers py issue.expected_ids blocks
      ∧ Standing py messages front' tail' issue.index (resultMessage blocks) post := by
  induction hs with
  | nil => intro issue hmem; cases hmem
  | cons hstep hrest ih =>
    obtain ⟨hhead, htail⟩ := List.pairwise_cons.mp hdisjoint
    intro issue hmem
    rcases List.mem_cons.mp hmem with rfl | hmem
    · obtain ⟨blocks, post, ha, hstands, -⟩ := hstep.answered hfront
      obtain ⟨post', h⟩ := hrest.standing ha hhead hstands
      exact ⟨blocks, post', ha, h⟩
    · exact ih (hstep.front_append hfront) htail issue hmem

/-- A message with the result `x` survives a batch that does not expect it, and
no result `x` gets behind it. -/
theorem Step.lone {i : Nat} {x : String} {behind : Json} {post : List Json}
    (hs : Step py sha256 allowed issue front tail front' tail') (hx : x ∉ issue.expected_ids)
    (h : Standing py messages front tail i behind post)
    (hhas : ∃ block ∈ results py behind, resultId py block = x)
    (hpost : ∀ block ∈ post.flatMap (results py), resultId py block ≠ x) :
    ∃ behind' post', Standing py messages front' tail' i behind' post'
      ∧ (∃ block ∈ results py behind', resultId py block = x)
      ∧ ∀ block ∈ post'.flatMap (results py), resultId py block ≠ x := by
  cases hs with
  | batch _ hcall hids hb =>
    obtain ⟨block, hmem, hid⟩ := hhas
    have hstays : block ∈ (residue py issue.expected_ids behind).toList.flatMap (results py) := by
      rw [results_residue]
      exact List.mem_filter.mpr ⟨hmem, by simpa [hit, hid] using hx⟩
    cases hres : residue py issue.expected_ids behind with
    | none => simp [hres] at hstays
    | some behind' =>
      rw [hres] at hstays
      refine ⟨behind', _, h.step hcall hids hb hres, ⟨block, by simpa using hstays, hid⟩, ?_⟩
      intro other hother
      rw [flatMap_residue_results] at hother
      exact hpost other (List.mem_filter.mp hother).1

theorem Steps.lone {i : Nat} {x : String} {behind : Json} {post : List Json}
    (hs : Steps py sha256 allowed issues front tail front' tail')
    (hx : ∀ issue ∈ issues, x ∉ issue.expected_ids)
    (h : Standing py messages front tail i behind post)
    (hhas : ∃ block ∈ results py behind, resultId py block = x)
    (hpost : ∀ block ∈ post.flatMap (results py), resultId py block ≠ x) :
    ∃ behind' post', Standing py messages front' tail' i behind' post'
      ∧ ∀ block ∈ post'.flatMap (results py), resultId py block ≠ x := by
  induction hs generalizing behind post with
  | nil => exact ⟨behind, post, h, hpost⟩
  | cons hstep _ ih =>
    obtain ⟨behind₁, post₁, h₁, hhas₁, hpost₁⟩ :=
      hstep.lone (hx _ List.mem_cons_self) h hhas hpost
    exact ih (fun other hother => hx other (List.mem_cons_of_mem _ hother)) h₁ hhas₁ hpost₁

/-- The earliest batch that expects `x` has the last result `x` of the history. -/
theorem Steps.earliest {x : String} (hs : Steps py sha256 allowed issues front tail front' tail')
    (hfront : ∃ back, messages = front ++ back)
    (hsorted : issues.Pairwise fun a b => b.index < a.index)
    (hx : ∃ issue ∈ issues, x ∈ issue.expected_ids) :
    ∃ issue ∈ issues, (∀ other ∈ issues, x ∈ other.expected_ids → issue.index ≤ other.index)
      ∧ ∃ behind post, Standing py messages front' tail' issue.index behind post
        ∧ ∀ block ∈ post.flatMap (results py), resultId py block ≠ x := by
  induction hs with
  | nil => obtain ⟨issue, hmem, -⟩ := hx; cases hmem
  | @cons head rest _ _ _ _ _ _ hstep hrest ih =>
    obtain ⟨hlater, hsorted⟩ := List.pairwise_cons.mp hsorted
    by_cases hin : ∃ issue ∈ rest, x ∈ issue.expected_ids
    · obtain ⟨issue, hmem, hfirst, hstands⟩ := ih (hstep.front_append hfront) hsorted hin
      refine ⟨issue, List.mem_cons_of_mem _ hmem, ?_, hstands⟩
      intro other hother hxo
      rcases List.mem_cons.mp hother with rfl | hother
      · exact (hlater issue hmem).le
      · exact hfirst other hother hxo
    · have hnone : ∀ issue ∈ rest, x ∉ issue.expected_ids := fun issue hmem hxi =>
        hin ⟨issue, hmem, hxi⟩
      have hhead : x ∈ head.expected_ids := by
        obtain ⟨issue, hmem, hxi⟩ := hx
        rcases List.mem_cons.mp hmem with rfl | hmem
        · exact hxi
        · exact absurd hxi (hnone issue hmem)
      obtain ⟨blocks, post, ha, hstands, hpost⟩ := hstep.answered hfront
      have hhas : ∃ block ∈ results py (resultMessage blocks), resultId py block = x := by
        rw [results_resultMessage ha.isResult]
        rw [← ha.ids_eq] at hhead
        exact List.mem_map.mp hhead
      obtain ⟨behind', post', h, hpost'⟩ := hrest.lone hnone hstands hhas
        fun block hblock he => hpost block hblock (he ▸ hhead)
      refine ⟨head, List.mem_cons_self, ?_, behind', post', h, hpost'⟩
      intro other hother hxo
      rcases List.mem_cons.mp hother with rfl | hother
      · exact le_rfl
      · exact absurd hxo (hnone other hother)

end

/-! ## 5. The repair -/

/-- A history that is `messages` with its late results in place. -/
structure Reordered (py : Interp) (sha256 : String → String) (allowed : Option (List String))
    (issues : List ToolHistoryIssue) (messages final : List Json) : Prop where
  adjacent : ∀ issue ∈ issues, ∃ pre call blocks post,
    final = pre ++ call :: resultMessage blocks :: post
      ∧ pre.filterMap bare = (messages.take issue.index).filterMap bare
      ∧ messages[issue.index]? = some call ∧ Answers py issue.expected_ids blocks
  order : final.filterMap bare = messages.filterMap bare
  moved : ∃ new, (final.flatMap (results py)).Perm (messages.flatMap (results py) ++ new)
    ∧ ∀ block ∈ new, ∃ id, block = interruptedResult id
      ∧ allowedMissing sha256 allowed id = true

/-- The issues of a report on late results: each names its calls, which are not
answered right behind them, and no calls are named twice. -/
structure LateBatches (py : Interp) (messages : List Json) (issues : List ToolHistoryIssue) :
    Prop where
  names : ∀ issue ∈ issues, issue.NamesCalls py messages
  once : (issues.map ToolHistoryIssue.index).Nodup
  late : ∀ issue ∈ issues, ¬ ∃ blocks, messages[issue.index + 1]? = some (resultMessage blocks)
    ∧ Answers py issue.expected_ids blocks

section
variable {messages final : List Json} {issues : List ToolHistoryIssue}

theorem mem_laterFirst {issue : ToolHistoryIssue} :
    issue ∈ laterFirst issues ↔ issue ∈ issues := List.mem_insertionSort _

theorem laterFirst_sorted (h : LateBatches py messages issues) :
    (laterFirst issues).Pairwise fun a b => b.index < a.index := by
  have hkey : ∀ issue ∈ issues, issue.sortKey
      = if issue.index = 0 then (-1 : Int) else issue.index := by
    intro issue hmem
    have hindex := (h.names issue hmem).assistant_index
    simp only [ToolHistoryIssue.sortKey, hindex]
    by_cases hz : issue.index = 0
    · simp [hz]
    · simp [hz]
  have hpairs := List.pairwise_insertionSort
    (fun a b : ToolHistoryIssue => b.sortKey ≤ a.sortKey) issues
  have honce : ((laterFirst issues).map ToolHistoryIssue.index).Nodup :=
    ((List.perm_insertionSort _ issues).map _).nodup_iff.mpr h.once
  refine (hpairs.and (List.pairwise_map.mp honce)).imp_of_mem fun {a b} ha hb hab => ?_
  have hka := hkey a (mem_laterFirst.mp ha)
  have hkb := hkey b (mem_laterFirst.mp hb)
  obtain ⟨hle, hne⟩ := hab
  rw [hka, hkb] at hle
  split at hle <;> split at hle <;> omega

theorem LateBatches.steps (h : LateBatches py messages issues) {changed : Bool}
    (hrun : repairIssues py sha256 allowed messages issues = some (final, changed)) :
    (issues ≠ [] → changed = true) ∧ ∃ front tail, final = front ++ tail
      ∧ Steps py sha256 allowed (laterFirst issues) messages [] front tail := by
  have hlt : ∀ issue ∈ laterFirst issues, issue.index < messages.length := by
    intro issue hmem
    obtain ⟨call, hcall, -⟩ := (h.names issue (mem_laterFirst.mp hmem)).call
    exact (List.getElem?_eq_some_iff.mp hcall).1
  have hself : ∃ back, messages = messages ++ back := ⟨[], by simp⟩
  have hloop : (laterFirst issues).foldlM (repairIssue py sha256 allowed) (messages ++ [], false)
      = some (final, changed) := by
    simpa [repairIssues] using hrun
  obtain ⟨hchanged, hsteps⟩ := repairIssues_steps
    (fun issue hmem => h.names issue (mem_laterFirst.mp hmem)) (laterFirst_sorted h) hlt hself hloop
  refine ⟨fun hne => hchanged fun hnil => hne ?_, hsteps⟩
  exact List.eq_nil_iff_forall_not_mem.mpr fun issue hmem => by
    have := mem_laterFirst.mpr hmem
    rw [hnil] at this
    cases this

/-- Where no two batches expect a common id the repair only reorders. -/
theorem LateBatches.reordered (h : LateBatches py messages issues) {changed : Bool}
    (hrun : repairIssues py sha256 allowed messages issues = some (final, changed))
    (hdisjoint : (issues).Pairwise fun a b => a.expected_ids.Disjoint b.expected_ids) :
    Reordered py sha256 allowed issues messages final := by
  obtain ⟨-, front, tail, rfl, hsteps⟩ := h.steps hrun
  have hfront : ∃ back, messages = messages ++ back := ⟨[], by simp⟩
  have hstart : Progress py sha256 allowed messages messages [] :=
    ⟨⟨[], by simp, rfl⟩, [], by simp, by simp⟩
  have hprogress := hsteps.progress hstart
  have hdisjoint' : (laterFirst issues).Pairwise fun a b =>
      a.expected_ids.Disjoint b.expected_ids :=
    ((List.perm_insertionSort _ issues).pairwise_iff fun {a b} hab =>
      List.disjoint_comm.mp hab).mpr hdisjoint
  have hall := hsteps.answered hfront hdisjoint'
  obtain ⟨back, hmessages, hback⟩ := hprogress.untouched
  refine ⟨fun issue hmem => ?_, ?_, hprogress.moved⟩
  · obtain ⟨blocks, post, ha, hstands⟩ := hall issue (mem_laterFirst.mpr hmem)
    obtain ⟨pre, call, rfl, hpre, hcall, -⟩ := hstands.split
    exact ⟨front ++ pre, call, blocks, post, by simp, hpre, hcall, ha⟩
  · conv_rhs => rw [hmessages]
    rw [List.filterMap_append, List.filterMap_append, hback]

/-- Only the earliest batch that expects `x` keeps its result: it takes it out
of the messages of the later ones. -/
theorem LateBatches.only_earliest (h : LateBatches py messages issues) {changed : Bool}
    (hrun : repairIssues py sha256 allowed messages issues = some (final, changed))
    (hre : Reordered py sha256 allowed issues messages final) {x : String}
    (hx : ∃ issue ∈ issues, x ∈ issue.expected_ids) :
    ∃ i, ∀ issue ∈ issues, x ∈ issue.expected_ids → issue.index = i := by
  obtain ⟨-, front, tail, rfl, hsteps⟩ := h.steps hrun
  have hself : ∃ back, messages = messages ++ back := ⟨[], by simp⟩
  obtain ⟨e, he, hleast, behind, post, hstands, hpost⟩ := hsteps.earliest hself
    (laterFirst_sorted h) (hx.imp fun issue hi => ⟨mem_laterFirst.mpr hi.1, hi.2⟩)
  refine ⟨e.index, fun b hb hxb => ?_⟩
  by_contra hne
  have hlt : e.index < b.index := by
    have := hleast b (mem_laterFirst.mpr hb) hxb
    omega
  obtain ⟨pre, call, rfl, hpre, hcall, hres⟩ := hstands.split
  obtain ⟨preb, callb, blocks, postb, hfinal, hpreb, -, hanswers⟩ := hre.adjacent b hb
  have hcount : ((front ++ pre).filterMap bare).length < (preb.filterMap bare).length := by
    rw [hpre, hpreb]
    have hnext : messages.take (e.index + 1) = messages.take e.index ++ [call] := by
      rw [List.take_add_one, hcall]; rfl
    have hsub : (messages.take (e.index + 1)).Sublist (messages.take b.index) :=
      (List.take_sublist_take_left (by omega))
    have hlen := (hsub.filterMap bare).length_le
    rw [hnext, List.filterMap_append, List.length_append] at hlen
    simp only [List.filterMap_cons, bare_eq_self hres, List.filterMap_nil, List.length_cons,
      List.length_nil] at hlen
    omega
  have hmem : resultMessage blocks ∈ post := by
    rw [← List.append_assoc, List.append_eq_append_iff] at hfinal
    rcases hfinal with ⟨mid, rfl, hmid⟩ | ⟨mid, hmid, -⟩
    · cases mid with
      | nil => simp at hcount
      | cons first mid =>
        simp only [List.cons_append, List.cons.injEq] at hmid
        cases mid with
        | nil =>
          simp only [List.nil_append, List.cons.injEq] at hmid
          simp [hmid.2.2]
        | cons second mid =>
          simp only [List.cons_append, List.cons.injEq] at hmid
          simp [hmid.2.2]
    · rw [hmid, List.filterMap_append, List.length_append] at hcount
      omega
  rw [← hanswers.ids_eq] at hxb
  obtain ⟨block, hblock, hid⟩ := List.mem_map.mp hxb
  refine hpost block (List.mem_flatMap.mpr ⟨_, hmem, ?_⟩) hid
  rw [results_resultMessage hanswers.isResult]
  exact hblock

/-- Two batches that expect a common id are never both answered. -/
theorem LateBatches.disjoint_of_reordered (h : LateBatches py messages issues) {changed : Bool}
    (hrun : repairIssues py sha256 allowed messages issues = some (final, changed))
    (hre : Reordered py sha256 allowed issues messages final) :
    issues.Pairwise fun a b => a.expected_ids.Disjoint b.expected_ids := by
  refine (List.pairwise_map.mp h.once).imp_of_mem fun {a b} ha hb hne x hxa hxb => hne ?_
  obtain ⟨i, hi⟩ := h.only_earliest hrun hre ⟨a, ha, hxa⟩
  rw [hi a ha hxa, hi b hb hxb]

theorem Steps.last {front tail front' tail' : List Json}
    (hs : Steps py sha256 allowed issues front tail front' tail') (hne : issues ≠ []) :
    ∃ issue ∈ issues, ∃ call blocks post, tail' = call :: resultMessage blocks :: post
      ∧ front'.length = issue.index ∧ Answers py issue.expected_ids blocks := by
  induction hs with
  | nil => exact absurd rfl hne
  | @cons issue rest _ _ _ _ _ _ hstep hrest ih =>
    cases rest with
    | nil =>
      cases hrest
      cases hstep with
      | batch hlen _ _ hb => exact ⟨issue, List.mem_cons_self, _, _, _, rfl, hlen, hb.answers⟩
    | cons =>
      obtain ⟨last, hmem, hlast⟩ := ih (by simp)
      exact ⟨last, List.mem_cons_of_mem _ hmem, hlast⟩

theorem LateBatches.final_ne (h : LateBatches py messages issues)
    (hrun : repairIssues py sha256 allowed messages issues = some (final, true)) :
    final ≠ messages := by
  obtain ⟨-, front, tail, rfl, hsteps⟩ := h.steps hrun
  have hne : laterFirst issues ≠ [] := by
    intro hnil
    rw [repairIssues, hnil] at hrun
    simp at hrun
  obtain ⟨issue, hmem, call, blocks, post, rfl, hlen, hanswers⟩ := hsteps.last hne
  intro heq
  refine h.late issue (mem_laterFirst.mp hmem) ⟨blocks, ?_, hanswers⟩
  rw [← heq, ← hlen, List.getElem?_append_right (by omega)]
  simp

end

end

namespace ToolHistoryMemory

variable (t : ToolHistoryMemory) (mem : ToolMemory) (commit : Bool) (allowed : Option (List String))
  (w : CommitFails)

/-- The late batches that the validator reports. -/
def reported : List ToolHistoryIssue :=
  match t.validate mem with
  | .ok report => nonAdjacentIssues report
  | .error _ => []

/-- What is asked of a repair: the history is reordered where it succeeds, and
the messages are what they were where it does not. -/
def OnlyReorders (outcome : ToolMemory × Except PyError Bool) : Prop :=
  (outcome.2 = .ok true →
      Reordered t.py t.base.sha256 allowed (t.reported mem) mem.messages outcome.1.messages)
    ∧ (outcome.2 ≠ .ok true → outcome.1.messages = mem.messages)

/-- The checks and the transaction of a commit. -/
def Accepts (repaired : List Json) : Prop :=
  (∃ final, t.validate (mem.withMessages repaired) = .ok final ∧ final.ok = true)
    ∧ match mem with
      | .journaled m =>
          t.base.historyOk repaired m.summary = true
            ∧ (m.commitState w.uuid (repaired, m.summary) w.replace).2 = .ok ()
      | .plain _ summary =>
          ∃ r, t.base.restore (.obj [("messages", .arr repaired), ("summary", summary)]) = .ok r

/-- The repair gets as far as the new messages. -/
def Takes (repaired : List Json) : Prop :=
  repairIssues t.py t.base.sha256 allowed mem.messages (t.reported mem) = some (repaired, true)
    ∧ (commit = true → Accepts t mem w repaired)

/-- The receipt for the exchange that a commit aborts cannot be written. -/
def ReceiptLost (repaired : List Json) : Prop :=
  match mem with
  | .journaled m =>
      ∃ exchange, m.activeExchange = some exchange ∧ exchange.started = true
        ∧ ((m.commitState w.uuid (repaired, m.summary) w.replace).1.journal.write
            (toolExchangeAbortedEntry exchange.exchange_id exchange.call_ids.length true
              (toolExchangeRecoveryEventId t.base exchange.exchange_id))
            (ConversationJournal.failing w.receipt)).2 ≠ .ok ()
  | .plain _ _ => False

variable {t mem commit allowed w}

/-- `restore` sets the messages it is given. -/
def RestoresMessages (t : ToolHistoryMemory) : Prop :=
  ∀ messages summary r, t.base.restore (.obj [("messages", .arr messages), ("summary", summary)])
    = .ok r → r.1.1 = messages

theorem commitState_cases (m : JournaledShortTermMemory) (uuid : String) (p : Projection)
    (fails : JournaledShortTermMemory.ReplaceFails) :
    (∃ exc, (m.commitState uuid p fails).2 = .error exc
        ∧ (m.commitState uuid p fails).1.messages = m.messages)
      ∨ ((m.commitState uuid p fails).2 = .ok ()
        ∧ (m.commitState uuid p fails).1.messages = p.1
        ∧ (m.commitState uuid p fails).1.activeExchange = m.activeExchange) := by
  simp only [JournaledShortTermMemory.commitState]
  generalize m.journal.replaceState _ _ _ _ _ _ = result
  obtain ⟨journal, result⟩ := result
  cases result with
  | error exc => exact .inl ⟨exc, rfl, rfl⟩
  | ok u => exact .inr ⟨rfl, rfl, rfl⟩

/-- A refused commit leaves the messages alone, an accepted one sets them and
then may lose the receipt. -/
theorem publish_cases (hrestore : t.RestoresMessages) (repaired : List Json)
    (hvalid : ∃ final, t.validate (mem.withMessages repaired) = .ok final ∧ final.ok = true) :
    (¬ Accepts t mem w repaired ∧ (t.publish mem repaired w).1.messages = mem.messages
        ∧ (t.publish mem repaired w).2 ≠ .ok true)
      ∨ (Accepts t mem w repaired ∧ (t.publish mem repaired w).1.messages = repaired
        ∧ ((t.publish mem repaired w).2 = .ok true ↔ ¬ ReceiptLost t mem w repaired)
        ∧ (t.publish mem repaired w).2 ≠ .ok false) := by
  cases mem with
  | plain messages summary =>
    cases hr : t.base.restore (.obj [("messages", .arr repaired), ("summary", summary)]) with
    | error exc =>
      refine .inl ⟨fun h => ?_, by simp [publish, hr], by simp [publish, hr]⟩
      obtain ⟨r, hok⟩ := h.2
      rw [hr] at hok
      cases hok
    | ok r =>
      have hset := hrestore repaired summary r hr
      obtain ⟨⟨messages', summary'⟩, exchange⟩ := r
      refine .inr ⟨⟨hvalid, _, hr⟩, ?_, ?_, ?_⟩ <;>
        simp [publish, hr, ReceiptLost, ToolMemory.messages]
      exact hset
  | journaled m =>
    simp only [publish, JournaledShortTermMemory.commitRepairedToolHistory]
    cases hok : t.base.historyOk repaired m.summary with
    | false =>
      refine .inl ⟨fun h => ?_, by simp [ToolMemory.messages], by simp [Except.map]⟩
      have := h.2.1
      rw [hok] at this
      cases this
    | true =>
      simp only [Bool.not_true, Bool.false_eq_true, if_false]
      have hcases := commitState_cases m w.uuid (repaired, m.summary) w.replace
      simp only [Accepts, ReceiptLost, hok]
      generalize m.commitState w.uuid (repaired, m.summary) w.replace = committed at hcases ⊢
      obtain ⟨m₁, result⟩ := committed
      rcases hcases with ⟨exc, rfl, hsame⟩ | ⟨rfl, hset, hexchange⟩
      · refine .inl ⟨by simp, hsame, by simp [Except.map]⟩
      · have hset : m₁.messages = repaired := hset
        have hexchange : m₁.activeExchange = m.activeExchange := hexchange
        refine .inr ⟨⟨hvalid, trivial, rfl⟩, ?_⟩
        cases hactive : m.activeExchange with
        | none => simp [hexchange, hactive, hset, Except.map, ToolMemory.messages]
        | some exchange =>
          rw [hactive] at hexchange
          cases hstarted : exchange.started with
          | false => simp [hexchange, hstarted, hset, Except.map, ToolMemory.messages]
          | true =>
            simp only [hexchange, hstarted, if_true, Option.some.injEq, exists_eq_left']
            generalize m₁.journal.write _ _ = written
            obtain ⟨journal, result⟩ := written
            cases result <;> simp [hset, hstarted, Except.map, ToolMemory.messages]

theorem repair_of_none
    (h : ∀ repaired, repairIssues t.py t.base.sha256 allowed mem.messages (t.reported mem)
      ≠ some (repaired, true)) :
    t.repairNonAdjacentToolHistory mem commit allowed w = (mem, .ok false) := by
  simp only [reported] at h
  simp only [repairNonAdjacentToolHistory]
  cases hvalidate : t.validate mem with
  | error exc => rfl
  | ok report =>
    simp only [hvalidate] at h ⊢
    match hrun : repairIssues t.py t.base.sha256 allowed mem.messages (nonAdjacentIssues report) with
    | none => rfl
    | some (_, false) => rfl
    | some (repaired, true) => exact absurd hrun (h repaired)

theorem repair_of_some {repaired : List Json}
    (h : repairIssues t.py t.base.sha256 allowed mem.messages (t.reported mem)
      = some (repaired, true)) :
    t.repairNonAdjacentToolHistory mem commit allowed w
      = if !commit then (mem.withMessages repaired, .ok true)
        else
          match t.validate (mem.withMessages repaired) with
          | .error exc => (mem, .error exc)
          | .ok final =>
              if !final.ok then (mem, .error (integrityError final))
              else t.publish mem repaired w := by
  simp only [reported] at h
  simp only [repairNonAdjacentToolHistory]
  cases hvalidate : t.validate mem with
  | error exc => simp [hvalidate, repairIssues, laterFirst] at h
  | ok report =>
    simp only [hvalidate] at h ⊢
    simp only [h] <;> rfl

theorem repair_cases (mem : ToolMemory) (commit : Bool) (allowed : Option (List String))
    (w : CommitFails) (hrestore : t.RestoresMessages) :
    ((∀ repaired, ¬ Takes t mem commit allowed w repaired)
        ∧ (t.repairNonAdjacentToolHistory mem commit allowed w).1.messages = mem.messages
        ∧ (t.repairNonAdjacentToolHistory mem commit allowed w).2 ≠ .ok true)
      ∨ ∃ repaired, Takes t mem commit allowed w repaired
        ∧ (∀ other, Takes t mem commit allowed w other → other = repaired)
        ∧ (t.repairNonAdjacentToolHistory mem commit allowed w).1.messages = repaired
        ∧ ((t.repairNonAdjacentToolHistory mem commit allowed w).2 = .ok true
          ↔ ¬ (commit = true ∧ ReceiptLost t mem w repaired)) := by
  by_cases hrun : ∃ repaired, repairIssues t.py t.base.sha256 allowed mem.messages (t.reported mem)
      = some (repaired, true)
  · obtain ⟨repaired, hrun⟩ := hrun
    have honly : ∀ other, Takes t mem commit allowed w other → other = repaired := by
      intro other h
      have := hrun.symm.trans h.1
      simpa using this.symm
    rw [repair_of_some hrun]
    cases commit with
    | false =>
      refine .inr ⟨repaired, ⟨hrun, by simp⟩, honly, ?_⟩
      cases mem <;> simp [ToolMemory.withMessages, ToolMemory.messages]
    | true =>
      simp only [Bool.not_true, Bool.false_eq_true, if_false, true_and]
      cases hfinal : t.validate (mem.withMessages repaired) with
      | error exc =>
        refine .inl ⟨fun other h => ?_, rfl, by simp⟩
        obtain rfl := honly other h
        obtain ⟨final, hok, -⟩ := (h.2 rfl).1
        rw [hfinal] at hok
        cases hok
      | ok final =>
        cases hok : final.ok with
        | false =>
          refine .inl ⟨fun other h => ?_, by simp [hok], by simp [hok]⟩
          obtain rfl := honly other h
          obtain ⟨final', hok', htrue⟩ := (h.2 rfl).1
          rw [hfinal, Except.ok.injEq] at hok'
          rw [hok', htrue] at hok
          cases hok
        | true =>
          simp only [hok, Bool.not_true, Bool.false_eq_true, if_false]
          rcases publish_cases (w := w) hrestore repaired ⟨final, hfinal, hok⟩ with
            ⟨hno, hsame, hresult⟩ | ⟨hyes, hset, hresult, -⟩
          · refine .inl ⟨fun other h => ?_, hsame, hresult⟩
            obtain rfl := honly other h
            exact hno (h.2 rfl)
          · exact .inr ⟨repaired, ⟨hrun, fun _ => hyes⟩, honly, hset, hresult⟩
  · rw [repair_of_none fun repaired h => hrun ⟨repaired, h⟩]
    exact .inl ⟨fun repaired h => hrun ⟨repaired, h.1⟩, rfl, by simp⟩

/-- **A repair only reorders**, unless it sets new messages although two batches
expect a common id, or although the receipt that it then owes cannot be
written. -/
theorem repair_only_reorders_iff (hrestore : t.RestoresMessages)
    (hlate : LateBatches t.py mem.messages (t.reported mem)) :
    OnlyReorders t mem allowed (t.repairNonAdjacentToolHistory mem commit allowed w)
      ↔ ∀ repaired, Takes t mem commit allowed w repaired →
        (t.reported mem).Pairwise (fun a b => a.expected_ids.Disjoint b.expected_ids)
          ∧ (commit = true → ¬ ReceiptLost t mem w repaired) := by
  rcases repair_cases mem commit allowed w hrestore with
    ⟨hnone, hsame, hresult⟩ | ⟨repaired, htakes, honly, hset, hresult⟩
  · exact ⟨fun _ repaired h => absurd h (hnone repaired),
      fun _ => ⟨fun h => absurd h hresult, fun _ => hsame⟩⟩
  · constructor
    · intro h other hother
      obtain rfl := honly other hother
      have hok : (t.repairNonAdjacentToolHistory mem commit allowed w).2 = .ok true := by
        by_contra hno
        exact hlate.final_ne htakes.1 (hset.symm.trans (h.2 hno))
      have hre := h.1 hok
      rw [hset] at hre
      exact ⟨hlate.disjoint_of_reordered htakes.1 hre,
        fun hc hlost => hresult.mp hok ⟨hc, hlost⟩⟩
    · intro h
      obtain ⟨hdisjoint, hreceipt⟩ := h repaired htakes
      have hok := hresult.mpr fun hlost => hreceipt hlost.1 hlost.2
      refine ⟨fun _ => ?_, fun hno => absurd hok hno⟩
      rw [hset]
      exact hlate.reordered htakes.1 hdisjoint

/-! ### A history with late results -/

def callMessage (id : String) : Json :=
  .obj [("role", .str "assistant"), ("content", .arr [.obj [("type", .str "tool_use"),
    ("id", .str id)]])]

def userMessage (text : String) : Json :=
  .obj [("role", .str "user"), ("content", .str text)]

def toolMessage (id text : String) : Json :=
  .obj [("role", .str "tool"), ("tool_call_id", .str id), ("content", .str text)]

def lateIssue (index : Nat) (id : String) : ToolHistoryIssue where
  code := "non_adjacent_results"
  assistant_index := some index
  expected_ids := [id]

/-- A memory of the base class that reports these issues of this history, and
none of any other. -/
def reporting (history : List Json) (issues : List ToolHistoryIssue) : ToolHistoryMemory where
  py := plainInterp
  base :=
    { addUser := fun _ message => .ok [message]
      addAssistant := fun _ message => .ok [message]
      addToolResult := fun _ message => .ok [message]
      addToolResults := fun _ messages => .ok messages
      restore := fun data => .ok (((match data.get "messages" with | .arr messages => messages | _ => []), data.get "summary"), none)
      historyOk := fun _ _ => true
      sha256 := id }
  validate mem := .ok
    (if mem.messages = history then { ok := false, issues, first_issue := issues.head? }
    else { ok := true, issues := [], first_issue := none })

/-- The result of the first call comes after the next message of the user. -/
def lateHistory : List Json :=
  [callMessage "c1", userMessage "next", toolMessage "c1" "done"]

/-- Two calls with one id, and one result. -/
def sharedHistory : List Json :=
  [callMessage "c1", userMessage "next", callMessage "c1", userMessage "next",
    toolMessage "c1" "done"]

/-- A journaled memory of a running exchange. -/
def exchangeMemory : JournaledShortTermMemory where
  journal := ConversationJournal.opened []
  messages := lateHistory
  summary := .null
  activeExchange := some { exchange_id := "exchange", call_ids := ["c1"], started := true }

theorem lateBatches_lateHistory :
    LateBatches plainInterp lateHistory [lateIssue 0 "c1"] := by
  refine ⟨?_, by decide, ?_⟩
  · intro issue hmem
    obtain rfl := List.mem_singleton.mp hmem
    exact ⟨rfl, ⟨callMessage "c1", rfl, by decide⟩, by decide, by decide, by decide⟩
  · intro issue hmem
    obtain rfl := List.mem_singleton.mp hmem
    rintro ⟨blocks, hnext, -⟩
    simp [lateHistory, lateIssue, ToolHistoryIssue.index, userMessage, resultMessage] at hnext

theorem lateBatches_sharedHistory :
    LateBatches plainInterp sharedHistory [lateIssue 0 "c1", lateIssue 2 "c1"] := by
  refine ⟨?_, by decide, ?_⟩
  · intro issue hmem
    rcases List.mem_pair.mp hmem with rfl | rfl
    · exact ⟨rfl, ⟨callMessage "c1", rfl, by decide⟩, by decide, by decide, by decide⟩
    · exact ⟨rfl, ⟨callMessage "c1", rfl, by decide⟩, by decide, by decide, by decide⟩
  · intro issue hmem
    rcases List.mem_pair.mp hmem with rfl | rfl <;>
    · rintro ⟨blocks, hnext, -⟩
      simp [sharedHistory, lateIssue, ToolHistoryIssue.index, userMessage, resultMessage] at hnext

theorem restoresMessages_reporting (history : List Json) (issues : List ToolHistoryIssue) :
    (reporting history issues).RestoresMessages := by
  intro messages summary r hr
  simp only [reporting, Except.ok.injEq] at hr
  rw [← hr]
  simp [Json.get, Json.getD, Json.get?, Json.lookup]

theorem reported_reporting {history : List Json} {issues : List ToolHistoryIssue} {mem : ToolMemory}
    (hmem : mem.messages = history)
    (hcode : ∀ issue ∈ issues, issue.code = "non_adjacent_results") :
    (reporting history issues).reported mem = issues := by
  simp only [reported, reporting, hmem, if_true, nonAdjacentIssues]
  exact List.filter_eq_self.mpr fun issue hissue => by simp [hcode issue hissue]

/-- A late result goes behind its call. -/
theorem repair_only_reorders_late :
    OnlyReorders (reporting lateHistory [lateIssue 0 "c1"]) (.plain lateHistory .null) none
      ((reporting lateHistory [lateIssue 0 "c1"]).repairNonAdjacentToolHistory
        (.plain lateHistory .null) true none {}) := by
  have hreported : (reporting lateHistory [lateIssue 0 "c1"]).reported (.plain lateHistory .null)
      = [lateIssue 0 "c1"] := reported_reporting rfl (by decide)
  refine (repair_only_reorders_iff (restoresMessages_reporting _ _) ?_).mpr
    fun _ _ => ⟨?_, fun _ h => h⟩
  · rw [hreported]; exact lateBatches_lateHistory
  · rw [hreported]; exact List.pairwise_singleton ..

/-- A receipt that cannot be written leaves the new messages behind a repair
that raises; and the earlier of two calls with one id takes the result of the
later one. -/
theorem repair_not_only_reorders :
    ¬ OnlyReorders (reporting lateHistory [lateIssue 0 "c1"]) (.journaled exchangeMemory) none
        ((reporting lateHistory [lateIssue 0 "c1"]).repairNonAdjacentToolHistory
          (.journaled exchangeMemory) true none { receipt := true })
      ∧ ¬ OnlyReorders (reporting sharedHistory [lateIssue 0 "c1", lateIssue 2 "c1"])
        (.plain sharedHistory .null) none
        ((reporting sharedHistory [lateIssue 0 "c1", lateIssue 2 "c1"]).repairNonAdjacentToolHistory
          (.plain sharedHistory .null) false none {}) := by
  constructor
  · intro h
    have hraised : ((reporting lateHistory [lateIssue 0 "c1"]).repairNonAdjacentToolHistory
        (.journaled exchangeMemory) true none { receipt := true }).2 ≠ .ok true
      ∧ ((reporting lateHistory [lateIssue 0 "c1"]).repairNonAdjacentToolHistory
        (.journaled exchangeMemory) true none { receipt := true }).1.messages ≠ lateHistory := by
      set_option maxRecDepth 8000 in decide
    exact hraised.2 (h.2 hraised.1)
  · intro h
    have hok : ((reporting sharedHistory
        [lateIssue 0 "c1", lateIssue 2 "c1"]).repairNonAdjacentToolHistory
          (.plain sharedHistory .null) false none {}).2 = .ok true := by decide
    have hreported : (reporting sharedHistory [lateIssue 0 "c1", lateIssue 2 "c1"]).reported
        (.plain sharedHistory .null) = [lateIssue 0 "c1", lateIssue 2 "c1"] :=
      reported_reporting rfl (by decide)
    have hre := h.1 hok
    rw [hreported] at hre
    have hrun : repairIssues plainInterp id none sharedHistory [lateIssue 0 "c1", lateIssue 2 "c1"]
        = some (((reporting sharedHistory
          [lateIssue 0 "c1", lateIssue 2 "c1"]).repairNonAdjacentToolHistory
            (.plain sharedHistory .null) false none {}).1.messages, true) := by decide
    have hdisjoint := lateBatches_sharedHistory.disjoint_of_reordered hrun hre
    simp [lateIssue] at hdisjoint

end ToolHistoryMemory

end Agenthicc.Memory
