/-
Agenthicc.Tui.Keymap — the registry of key actions: how a binding is spelled,
which action a key triggers in a context, and which keys the hints show.

A `Keymap` carries the proof that its definitions passed the check that is
made when one is built, so every theorem about keymaps is about those that
`build` and the bindings file can give.
-/
import Agenthicc.Tui.Keyboard
import Mathlib.Data.Finset.Basic

open Python

namespace Agenthicc.Tui

/-! ## 1. Spellings -/

structure KeymapError where
  message : String
  deriving DecidableEq

def LEADER : List Char := "<leader>".toList

/-- `_ALIASES`. -/
def aliases : List (List Char × List Char) :=
  [("esc", "escape"), ("return", "enter"), ("del", "delete"), ("ins", "insert"), ("pgup", "pageup"),
    ("page_up", "pageup"), ("pgdn", "pagedown"), ("pgdown", "pagedown"), ("page_down", "pagedown"),
    ("ctrl+enter", "ctrl+j"), ("bs", "backspace"), (" ", "space")].map fun (a, b) => (a.toList, b.toList)

/-- `_MODIFIERS`, in the order of a canonical name. -/
def modifierNames : List (List Char) := ["ctrl", "alt", "shift", "meta"].map String.toList

/-- `_NAMED_KEYS`. -/
def namedKeys : List (List Char) :=
  ["enter", "tab", "escape", "backspace", "delete", "insert", "space", "up", "down", "left", "right", "home",
    "end", "pageup", "pagedown", "focus_in", "focus_out", "left_on_empty", "f1", "f2", "f3", "f4", "f5",
    "f6", "f7", "f8", "f9", "f10", "f11", "f12"].map String.toList

/-- What stands between the plus signs; a plus at the end is the key itself. -/
def keyParts (body : List Char) : List (List Char) :=
  if ['+', '+'] <:+ body then body.dropLast.dropLast.splitOn '+' ++ [['+']] else body.splitOn '+'

local instance lawfulText : LawfulBEq (List Char) := inferInstance

/-- Modifiers in their order, then the key. -/
def joinKey (modifiers : List (List Char)) (base : List Char) : List Char :=
  ['+'].intercalate (modifierNames.filter (· ∈ modifiers) ++ [base])

def lowerText (py : CharTable) (text : List Char) : List Char := text.flatMap py.lower

/-- The key behind the leader, of more than one character. -/
def normalizeBody (py : CharTable) (key body : List Char) : Except KeymapError (List Char) :=
  let parts := keyParts ((assocGet (lowerText py body) aliases).getD body)
  let modifiers := parts.dropLast.map (lowerText py)
  if !modifiers.all (· ∈ modifierNames) then .error ⟨py.repr key ++ " has an unknown modifier"⟩
  else
    match parts.getLast?.getD [] with
    | [c] =>
        if modifiers = ["shift".toList] ∧ py.isAlpha c then .ok (py.upper c)
        else if modifiers ≠ [] ∧ py.isAlpha c then
          if "shift".toList ∉ modifiers ∧ py.isUpper c ∧ modifiers ≠ ["ctrl".toList] then
            .ok (joinKey (modifiers ++ ["shift".toList]) (py.lower c))
          else .ok (joinKey modifiers (py.lower c))
        else .ok (joinKey modifiers [c])
    | base =>
        let base := (assocGet (lowerText py base) aliases).getD (lowerText py base)
        if base ∈ namedKeys then .ok (joinKey modifiers base) else .error ⟨py.repr key ++ " is not a key"⟩

/-- The canonical form of a binding. -/
def normalizeKey (py : CharTable) (key : List Char) : Except KeymapError (List Char) :=
  if key = [] then .error ⟨"a key binding must be a non-empty string"⟩
  else
    let leader := if LEADER.isPrefixOf key then LEADER else []
    match key.drop leader.length with
    | [] => .error ⟨py.repr key ++ " names no key after <leader>"⟩
    | [c] => .ok (leader ++ if c = ' ' then "space".toList else [c])
    | body => (normalizeBody py key body).map (leader ++ ·)

/-- `_DISPLAY`. -/
def displays : List (List Char × String) :=
  [("enter", "Enter"), ("tab", "Tab"), ("escape", "Esc"), ("backspace", "Backspace"), ("delete", "Del"),
    ("insert", "Ins"), ("space", "Space"), ("up", "↑"), ("down", "↓"), ("left", "←"), ("right", "→"),
    ("home", "Home"), ("end", "End"), ("pageup", "PgUp"), ("pagedown", "PgDn"),
    ("left_on_empty", "← on empty")].map fun (a, b) => (a.toList, b)

/-- `text.capitalize()`. -/
def capitalize (py : CharTable) : List Char → List Char
  | [] => []
  | c :: rest => py.upper c ++ lowerText py rest

/-- A key without a leader, the way hints show it. -/
def displayPlain (py : CharTable) (key : List Char) : List Char :=
  let parts := if 1 < key.length then key.splitOn '+' else [key]
  let base := parts.getLast?.getD []
  let label :=
    match assocGet base displays with
    | some label => label.toList
    | none => if base.length = 1 ∧ parts.dropLast ≠ [] then base.flatMap py.upper else base
  let label :=
    if 1 < base.length ∧ base.head? = some 'f' ∧ base.tail.all Char.isDigit then base.flatMap py.upper
    else label
  ['+'].intercalate (parts.dropLast.map (capitalize py) ++ [label])

/-- `display_key(key)`, without the keymap's leader. -/
def displayAlone (py : CharTable) (key : List Char) : List Char :=
  if LEADER.isPrefixOf key then "Leader ".toList ++ displayAlone py (key.drop LEADER.length)
  else displayPlain py key
termination_by key.length
decreasing_by
  have hprefix : LEADER.isPrefixOf key = true := by assumption
  have hle := (List.isPrefixOf_iff_prefix.mp hprefix).length_le
  have hleader : LEADER.length = 8 := by decide
  rw [List.length_drop]
  omega

def displayKey (py : CharTable) (key : List Char) (leader : Option (List Char)) : List Char :=
  if LEADER.isPrefixOf key then
    (match leader with
      | some l => displayAlone py l
      | none => "Leader".toList) ++ [' '] ++ displayAlone py (key.drop LEADER.length)
  else displayPlain py key

/-! ## 2. Actions -/

def CONTEXTS : List String :=
  ["global", "composer", "agents", "agents.list", "agents.peek", "agents.detail", "transcript", "subagents",
    "overlay"]

def PARENTS : List (String × String) :=
  [("agents.list", "agents"), ("agents.peek", "agents.list"), ("agents.detail", "agents")]

/-- The contexts behind one, each the parent of the one before. -/
def ancestors : Nat → String → List String
  | 0, _ => []
  | n + 1, context =>
      match assocGet context PARENTS with
      | some parent => parent :: ancestors n parent
      | none => []

/-- A context and the contexts it inherits from. -/
def lineage (context : String) : List String := context :: ancestors PARENTS.length context

structure Action where
  name : String
  context : String
  keys : List (List Char)
  label : String
  hint_priority : Int := 0
  /-- The flags `when` and `unless`. -/
  requires : Finset String := ∅
  forbids : Finset String := ∅
  rebindable : Bool := true
  paired : String := ""
  deriving DecidableEq

namespace Action

def applies (a : Action) (conditions : Finset String) : Bool :=
  a.requires ⊆ conditions && a.forbids ∩ conditions = ∅

/-- The action with those of its keys that are not claimed, when there are any. -/
def unclaimed (claimed : List (List Char)) (a : Action) : Option Action :=
  let keys := a.keys.filter (· ∉ claimed)
  if keys = [] then none else some { a with keys }

/-- Whether two actions can never apply at the same time. -/
def excludes (a b : Action) : Bool := a.requires ∩ b.forbids ≠ ∅ || b.requires ∩ a.forbids ≠ ∅

end Action

/-! ## 3. The check -/

/-- `repr` of a tuple of strings. -/
def reprTuple (py : CharTable) (keys : List (List Char)) : String :=
  "(" ++ strJoin ", " (keys.map py.repr) ++ (if keys.length = 1 then ",)" else ")")

/-- Each definition by itself, and no name twice. -/
def checkActions (py : CharTable) (leader : Option (List Char)) :
    (seen : List String) → List Action → Except KeymapError Unit
  | _, [] => .ok ()
  | seen, a :: rest =>
      if a.context ∉ CONTEXTS then
        .error ⟨a.name ++ ": unknown context " ++ py.repr a.context.toList⟩
      else if a.name ∈ seen then .error ⟨a.name ++ " is defined twice"⟩
      else do
        let normalized ← a.keys.mapM (normalizeKey py)
        if normalized ≠ a.keys then
          .error ⟨a.name ++ ": keys must be normalized (" ++ reprTuple py a.keys ++ ")"⟩
        else if a.keys.any LEADER.isPrefixOf && leader.isNone then
          .error ⟨a.name ++ ": <leader> binding without a leader key"⟩
        else checkActions py leader (a.name :: seen) rest

/-- Each key that an action has in its context. -/
def bindings (actions : List Action) : List ((String × List Char) × Action) :=
  actions.flatMap fun a => a.keys.map fun key => ((a.context, key), a)

/-- `by_key`. -/
def byKey (actions : List Action) : Dict (String × List Char) (List Action) :=
  (bindings actions).foldl (fun d p => d.set p.1 ((d.get? p.1).getD [] ++ [p.2])) Dict.empty

/-- The first two actions of one key that can apply together. -/
def clash : List Action → Option (Action × Action)
  | [] => none
  | first :: rest =>
      match rest.find? fun second => !first.excludes second with
      | some second => some (first, second)
      | none => clash rest

def checkClashes (py : CharTable) : List ((String × List Char) × List Action) → Except KeymapError Unit
  | [] => .ok ()
  | ((context, key), actions) :: rest =>
      match clash actions with
      | some (first, second) =>
          .error ⟨String.ofList (displayKey py key none) ++ " is bound to both " ++ first.name ++ " and "
            ++ second.name ++ " in " ++ context⟩
      | none => checkClashes py rest

/-- `__post_init__`. -/
def check (py : CharTable) (actions : List Action) (leader : Option (List Char)) : Except KeymapError Unit := do
  checkActions py leader [] actions
  checkClashes py (byKey actions).items
  match leader with
  | none => .ok ()
  | some l =>
      match actions.find? fun a => l ∈ a.keys with
      | some a => .error ⟨a.name ++ " uses the leader key " ++ String.ofList (displayKey py l none)⟩
      | none => .ok ()

structure Keymap (py : CharTable) where
  actions : List Action
  leader : Option (List Char) := none
  checked : check py actions leader = .ok ()

namespace Keymap

variable {py : CharTable}

/-- The constructor: the check decides. -/
def make (py : CharTable) (actions : List Action) (leader : Option (List Char)) :
    Except KeymapError (Keymap py) :=
  match h : check py actions leader with
  | .ok () => .ok ⟨actions, leader, h⟩
  | .error error => .error error

/-- The first name that occurs again. -/
def repeated : (seen : List String) → List Action → Option String
  | _, [] => none
  | seen, a :: rest => if a.name ∈ seen then some a.name else repeated (a.name :: seen) rest

/-- The definitions with the keys that replace theirs. -/
def overridden (overrides : Dict String (List (List Char))) : List Action → Except KeymapError (List Action)
  | [] => .ok []
  | a :: rest =>
      match overrides.get? a.name with
      | none => (overridden overrides rest).map (a :: ·)
      | some keys =>
          if a.rebindable then (overridden overrides rest).map ({ a with keys } :: ·)
          else .error ⟨a.name ++ " cannot be rebound"⟩

def build (py : CharTable) (actions : List Action) (overrides : Dict String (List (List Char)))
    (leader : Option (List Char)) : Except KeymapError (Keymap py) :=
  match repeated [] actions with
  | some name => .error ⟨name ++ " is defined twice"⟩
  | none =>
      let unknown := ((overrides.items.map Prod.fst).filter (· ∉ actions.map Action.name)).mergeSort (· ≤ ·)
      match unknown with
      | name :: _ => .error ⟨"unknown action " ++ py.repr name.toList⟩
      | [] => do
          let resolved ← overridden overrides actions
          match leader with
          | none => make py resolved none
          | some key => make py resolved (some (← normalizeKey py key))

/-- The contexts that are asked for a key, the nearest first. -/
def chain (context : String) : List String :=
  if context = "global" then lineage context else lineage context ++ ["global"]

/-- The loop of `_in`: what the nearer contexts' applicable actions claim is
taken from the keys of the others. -/
def gather (actions : List Action) (conditions : Option (Finset String)) :
    (nearest : Bool) → (claimed : List (List Char)) → List String → List Action
  | _, _, [] => []
  | nearest, claimed, context :: rest =>
      let own := actions.filter (·.context = context)
      let visible := own.filterMap fun a =>
        if nearest || conditions.isNone then some a else a.unclaimed claimed
      let claims :=
        match conditions with
        | some flags => (own.filter (·.applies flags)).flatMap Action.keys
        | none => []
      visible ++ gather actions conditions false (claimed ++ claims) rest

/-- `_in`. -/
def inContext (km : Keymap py) (context : String) (conditions : Option (Finset String)) : List Action :=
  gather km.actions conditions true [] (chain context)

/-- The action that a key triggers. -/
def resolve (km : Keymap py) (context : String) (key : List Char) (conditions : Finset String) :
    Option Action :=
  if key = [] then none
  else (km.inContext context (some conditions)).find? fun a => key ∈ a.keys && a.applies conditions

/-- `action`. -/
def action? (km : Keymap py) (name : String) : Option Action := km.actions.find? (·.name = name)

/-- The keys that the hint of an action shows: its own first one, and before
it the first one of the action it is paired with. -/
def hintKeys (km : Keymap py) (a : Action) : List (Action × List Char) :=
  let own := (a.keys.take 1).map (a, ·)
  if a.paired = "" then own
  else
    match km.action? a.paired with
    | some partner => (partner.keys.take 1).map (partner, ·) ++ own
    | none => own

structure Hint where
  keys : List Char
  label : String
  action : String
  deriving DecidableEq

/-- The actions that get a hint, the most important first. -/
def ranked (km : Keymap py) (context : String) (conditions : Finset String) : List Action :=
  ((km.inContext context (some conditions)).filter fun a =>
    0 < a.hint_priority && a.keys ≠ [] && a.applies conditions).mergeSort
      fun a b => b.hint_priority ≤ a.hint_priority

def hints (km : Keymap py) (context : String) (conditions : Finset String) (limit : Option Nat) :
    List Hint :=
  let all := (km.ranked context conditions).map fun a =>
    ⟨(km.hintKeys a).flatMap fun p => displayKey py p.2 km.leader, a.label, a.name⟩
  match limit with
  | none => all
  | some n => all.take n

end Keymap

/-- `_parse_keys`, of a value of the bindings file. -/
def parseKeys (py : CharTable) (value : Json) (where_ : String) : Except KeymapError (List (List Char)) :=
  match value with
  | .str s => if lowerText py s.toList = "none".toList then .ok [] else (normalizeKey py s.toList).map ([·])
  | .arr items => (loop items).map List.eraseDups
  | _ => .error ⟨where_ ++ ": expected a key, a list of keys or \"none\""⟩
where
  loop : List Json → Except KeymapError (List (List Char))
    | [] => .ok []
    | .str s :: rest =>
        if lowerText py s.toList = "none".toList then loop rest
        else do
          let key ← normalizeKey py s.toList
          return key :: (← loop rest)
    | _ :: _ => .error ⟨where_ ++ ": every key must be a string"⟩

end Agenthicc.Tui
