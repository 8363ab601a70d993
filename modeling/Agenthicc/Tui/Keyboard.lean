/-
Agenthicc.Tui.Keyboard — the keyboard reader: which key the next bytes of the
terminal are, and what a binding calls that key.

A `Terminal` holds the bytes that were written and not yet read, so a wait
ends at once when there are some. With `ended` the other side is closed: a
wait ends at once and a read returns nothing. A read of one byte returns one;
`fills` says how much each of the larger reads returns. The two loops of
`readKey` that need not end take a fuel, `none` is that it ran out.
-/
import Agenthicc.Python.Builtins
import Agenthicc.Python.Codecs
import Agenthicc.Python.Dict
import Agenthicc.Library.Occurrences

open Python

namespace Agenthicc.Tui

/-! ## 1. Keys -/

/-- A statement about the members of a list is checked on the list, not over
the whole of a finite type. -/
scoped instance (priority := 2000) decidableForallMem {α : Type} (l : List α) (p : α → Prop) [DecidablePred p] :
    Decidable (∀ a ∈ l, p a) := List.decidableBAll p l

scoped instance (priority := 2000) decidableExistsMem {α : Type} (l : List α) (p : α → Prop) [DecidablePred p] :
    Decidable (∃ a ∈ l, p a) := List.decidableBEx p l

inductive Key where
  | up | down | left | right | home | end_ | enter | ctrlEnter | ctrlV | paste | tab | esc | backspace
  | ctrlC | ctrlD | ctrlU | ctrlX | shiftTab | pageUp | pageDown | at_ | char
  | ctrlA | ctrlB | ctrlE | ctrlF | ctrlG | ctrlK | ctrlL | ctrlN | ctrlO | ctrlP | ctrlQ | ctrlR | ctrlS
  | ctrlT | ctrlW | ctrlY | ctrlZ | delete | insert | function | alt | modified | focusIn | focusOut
  | mouse | unknown
  deriving DecidableEq

def Key.value : Key → String
  | .up => "UP" | .down => "DOWN" | .left => "LEFT" | .right => "RIGHT" | .home => "HOME" | .end_ => "END"
  | .enter => "ENTER" | .ctrlEnter => "CTRL_ENTER" | .ctrlV => "CTRL_V" | .paste => "PASTE" | .tab => "TAB"
  | .esc => "ESC" | .backspace => "BACKSPACE" | .ctrlC => "CTRL_C" | .ctrlD => "CTRL_D" | .ctrlU => "CTRL_U"
  | .ctrlX => "CTRL_X" | .shiftTab => "SHIFT_TAB" | .pageUp => "PAGE_UP" | .pageDown => "PAGE_DOWN"
  | .at_ => "AT" | .char => "CHAR" | .ctrlA => "CTRL_A" | .ctrlB => "CTRL_B" | .ctrlE => "CTRL_E"
  | .ctrlF => "CTRL_F" | .ctrlG => "CTRL_G" | .ctrlK => "CTRL_K" | .ctrlL => "CTRL_L" | .ctrlN => "CTRL_N"
  | .ctrlO => "CTRL_O" | .ctrlP => "CTRL_P" | .ctrlQ => "CTRL_Q" | .ctrlR => "CTRL_R" | .ctrlS => "CTRL_S"
  | .ctrlT => "CTRL_T" | .ctrlW => "CTRL_W" | .ctrlY => "CTRL_Y" | .ctrlZ => "CTRL_Z" | .delete => "DELETE"
  | .insert => "INSERT" | .function => "FUNCTION" | .alt => "ALT" | .modified => "MODIFIED"
  | .focusIn => "FOCUS_IN" | .focusOut => "FOCUS_OUT" | .mouse => "MOUSE" | .unknown => "UNKNOWN"

/-- What `read_key` returns: a key and the text that comes with it. -/
structure Keystroke where
  key : Key
  ch : List Char := []
  deriving DecidableEq

/-- The interpreter's Unicode tables, for one character, and its `repr`. The
laws are those of the character database that the reader's own strings meet. -/
structure CharTable where
  repr : List Char → String
  isPrintable : Char → Bool
  isAlpha : Char → Bool
  isUpper : Char → Bool
  lower : Char → List Char
  upper : Char → List Char
  isPrintable_ascii : ∀ c : Char, c.toNat < 128 → isPrintable c = decide (32 ≤ c.toNat ∧ c.toNat < 127)
  isAlpha_ascii : ∀ c : Char, c.toNat < 128 → isAlpha c = c.isAlpha
  isUpper_ascii : ∀ c : Char, c.toNat < 128 → isUpper c = c.isUpper
  lower_ascii : ∀ c : Char, c.toNat < 128 → lower c = [c.toLower]
  /-- `U+0130` is the one letter whose lower case is two characters. -/
  lower_one : ∀ c : Char, c ≠ '\u0130' → ∃ d, lower c = [d]
  lower_dotted : lower '\u0130' = ['i', '\u0307']
  isAlpha_dotted : isAlpha '\u0130' = true
  isUpper_dotted : isUpper '\u0130' = true
  lower_lower : ∀ c d : Char, lower c = [d] → lower d = [d]

theorem toLower_cases (c : Char) : c.toLower = c ∨ (c.toLower.toNat < 128 ∧ c.toLower.toLower = c.toLower) := by
  have hkeep : ∀ d : Char, ¬ (d.val ≥ 'A'.val ∧ d.val ≤ 'Z'.val) → d.toLower = d := by
    intro d hd
    delta Char.toLower
    rw [dif_neg hd]
  by_cases h : c.val ≥ 'A'.val ∧ c.val ≤ 'Z'.val
  · have hval : c.toLower.val = c.val + ('a'.val - 'A'.val) := by delta Char.toLower; rw [dif_pos h]
    simp only [ge_iff_le, UInt32.le_iff_toNat_le] at h
    have hnat : c.toLower.toNat = c.toNat + 32 := by
      have hsum := congrArg UInt32.toNat hval
      rw [UInt32.toNat_add] at hsum
      simp only [Char.reduceVal, UInt32.reduceSub, UInt32.reduceToNat] at h hsum
      exact hsum.trans (Nat.mod_eq_of_lt (by omega))
    have hle : c.toNat ≤ 90 := h.2
    have hge : 65 ≤ c.toNat := h.1
    refine .inr ⟨by omega, hkeep _ ?_⟩
    simp only [ge_iff_le, UInt32.le_iff_toNat_le]
    intro hback
    have hupper : c.toLower.toNat ≤ 90 := hback.2
    omega
  · exact .inl (hkeep c h)

/-- The table of a language whose letters are the ASCII ones and `U+0130`. -/
def plainTable : CharTable where
  repr s := "'" ++ String.ofList s ++ "'"
  isPrintable c := decide (32 ≤ c.toNat ∧ c.toNat < 127)
  isAlpha c := c.isAlpha || c = '\u0130'
  isUpper c := c.isUpper || c = '\u0130'
  lower c := if c = '\u0130' then ['i', '\u0307'] else [c.toLower]
  upper c := [c.toUpper]
  isPrintable_ascii := fun _ _ => rfl
  isAlpha_ascii := by
    intro c hc
    have hne : c ≠ '\u0130' := by rintro rfl; simp at hc
    simp [hne]
  isUpper_ascii := by
    intro c hc
    have hne : c ≠ '\u0130' := by rintro rfl; simp at hc
    simp [hne]
  lower_ascii := by
    intro c hc
    have hne : c ≠ '\u0130' := by rintro rfl; simp at hc
    simp [hne]
  lower_one := fun c hc => ⟨c.toLower, if_neg hc⟩
  lower_dotted := if_pos rfl
  isAlpha_dotted := by decide
  isUpper_dotted := by decide
  lower_lower := by
    intro c d h
    by_cases hc : c = '\u0130'
    · simp [hc] at h
    · obtain rfl : c.toLower = d := by simpa [hc] using h
      obtain hsame | ⟨hsmall, hlower⟩ := toLower_cases c
      · rw [hsame, if_neg hc, hsame]
      · have hne : c.toLower ≠ '\u0130' := by
          intro heq
          rw [heq] at hsmall
          simp at hsmall
        rw [if_neg hne, hlower]

/-! ## 2. Control bytes -/

/-- `_CONTROL_KEYS`. -/
def controlKeys : List (UInt8 × Key) :=
  [(0x01, .ctrlA), (0x02, .ctrlB), (0x03, .ctrlC), (0x04, .ctrlD), (0x05, .ctrlE), (0x06, .ctrlF),
    (0x07, .ctrlG), (0x08, .backspace), (0x09, .tab), (0x0A, .ctrlEnter), (0x0B, .ctrlK), (0x0C, .ctrlL),
    (0x0D, .enter), (0x0E, .ctrlN), (0x0F, .ctrlO), (0x10, .ctrlP), (0x11, .ctrlQ), (0x12, .ctrlR),
    (0x13, .ctrlS), (0x14, .ctrlT), (0x15, .ctrlU), (0x16, .ctrlV), (0x17, .ctrlW), (0x18, .ctrlX),
    (0x19, .ctrlY), (0x1A, .ctrlZ), (0x1B, .esc), (0x7F, .backspace)]

/-- `_CONTROL_NAMES`. -/
def controlNames : List (UInt8 × String) :=
  [(0x00, "ctrl+space"), (0x1C, "ctrl+\\"), (0x1D, "ctrl+]"), (0x1E, "ctrl+^"), (0x1F, "ctrl+_")]

def decodeControl (byte : UInt8) : Keystroke :=
  match assocGet byte controlKeys with
  | some key => ⟨key, []⟩
  | none =>
      match assocGet byte controlNames with
      | some name => ⟨.modified, name.toList⟩
      | none => ⟨.unknown, []⟩

/-! ## 3. Names -/

/-- `_KEY_NAMES`. -/
def keyNames : Key → String
  | .up => "up" | .down => "down" | .left => "left" | .right => "right" | .home => "home" | .end_ => "end"
  | .enter => "enter" | .ctrlEnter => "ctrl+j" | .tab => "tab" | .shiftTab => "shift+tab" | .esc => "escape"
  | .backspace => "backspace" | .delete => "delete" | .insert => "insert" | .pageUp => "pageup"
  | .pageDown => "pagedown" | .at_ => "@" | .focusIn => "focus_in" | .focusOut => "focus_out"
  | _ => ""

/-- `key in _CTRL_LETTER_KEYS`. -/
def Key.isCtrlLetter (key : Key) : Bool :=
  "CTRL_".toList.isPrefixOf key.value.toList && key.value.toList.length = "CTRL_A".toList.length

/-- The canonical binding name of a keystroke. -/
def keyName (py : CharTable) (k : Keystroke) : List Char :=
  if k.key = .char then (if k.ch = [' '] then "space".toList else k.ch)
  else if k.key.isCtrlLetter then "ctrl+".toList ++ k.key.value.toList.getLast?.toList.map Char.toLower
  else if k.key = .alt then
    if k.ch ≠ [] ∧ k.ch.all py.isAlpha ∧ k.ch.all py.isUpper then "alt+shift+".toList ++ k.ch.flatMap py.lower
    else "alt+".toList ++ (if k.ch = [' '] then "space".toList else k.ch)
  else if k.key = .modified ∨ k.key = .function then k.ch
  else (keyNames k.key).toList

/-! ## 4. Escape sequences -/

/-- `_CURSOR_FINALS`. -/
def cursorFinals : List (UInt8 × Key × String) :=
  [(0x41, .up, "up"), (0x42, .down, "down"), (0x43, .right, "right"), (0x44, .left, "left"),
    (0x48, .home, "home"), (0x46, .end_, "end")]

/-- `_SS3_FUNCTIONS`. -/
def ss3Functions : List (UInt8 × String) := [(0x50, "f1"), (0x51, "f2"), (0x52, "f3"), (0x53, "f4")]

/-- `_TILDE_KEYS`. -/
def tildeKeys : List (Nat × Key × String) :=
  [(1, .home, "home"), (2, .insert, "insert"), (3, .delete, "delete"), (4, .end_, "end"),
    (5, .pageUp, "pageup"), (6, .pageDown, "pagedown"), (7, .home, "home"), (8, .end_, "end"),
    (11, .function, "f1"), (12, .function, "f2"), (13, .function, "f3"), (14, .function, "f4"),
    (15, .function, "f5"), (17, .function, "f6"), (18, .function, "f7"), (19, .function, "f8"),
    (20, .function, "f9"), (21, .function, "f10"), (23, .function, "f11"), (24, .function, "f12")]

/-- The prefix of an xterm modifier parameter. -/
def modifiers (parameter : Nat) : List Char :=
  [(4, "ctrl+"), (2, "alt+"), (1, "shift+"), (8, "meta+")].flatMap fun (bit, text) =>
    if (parameter - 1) &&& bit ≠ 0 then text.toList else []

/-- `_named`. -/
def named (key : Key) (name : String) (modifier : Nat) : Keystroke :=
  if modifiers modifier = [] then ⟨key, if key = .function then name.toList else []⟩
  else if modifiers modifier = "shift+".toList ∧ key = .tab then ⟨.shiftTab, []⟩
  else ⟨.modified, modifiers modifier ++ name.toList⟩

/-- `field.isdigit()` of bytes. -/
def isDigits (field : Bytes) : Bool := !field.isEmpty && field.all fun b => 0x30 ≤ b && b ≤ 0x39

/-- The limit on the digits that `int` reads. -/
def maxStrDigits : Nat := 4300

/-- `int(field)` of digits. -/
def intOf (field : Bytes) : Except PyError Nat :=
  if maxStrDigits < field.length then
    .error (.valueError ("Exceeds the limit (4300 digits) for integer string conversion: value has "
      ++ toString field.length ++ " digits; use sys.set_int_max_str_digits() to increase the limit"))
  else .ok (field.foldl (fun n b => 10 * n + (b.toNat - 0x30)) 0)

/-- `MouseEvent`. -/
structure MouseEvent where
  button : Nat
  column : Nat
  row : Nat
  pressed : Bool
  deriving DecidableEq

namespace MouseEvent

def parse (body : Bytes) (pressed : Bool) : Except PyError (Option MouseEvent) :=
  match body.splitOn 0x3B with
  | [button, column, row] =>
      if isDigits button && isDigits column && isDigits row then do
        return some ⟨← intOf button, ← intOf column, ← intOf row, pressed⟩
      else .ok none
  | _ => .ok none

def encode (event : MouseEvent) : String :=
  toString event.button ++ ";" ++ toString event.column ++ ";" ++ toString event.row ++ ";"
    ++ if event.pressed then "press" else "release"

end MouseEvent

/-- The parameters of a sequence. -/
def csiFields (body : Bytes) : List Bytes := if body = [] then [] else body.splitOn 0x3B

/-- The key of a final byte and numbers. -/
def decodeNumbers (final : Option UInt8) (numbers : List Nat) : Keystroke :=
  let modifier := numbers[1]?.getD 1
  match final.bind (assocGet · cursorFinals) with
  | some (key, name) =>
      if numbers = [] ∨ numbers[0]? = some 1 then named key name modifier else ⟨.unknown, []⟩
  | none =>
      match final.bind (assocGet · ss3Functions), numbers[0]? with
      | some function, some 1 => named .function function modifier
      | _, number =>
          match (if final = some 0x7E then number.bind (assocGet · tildeKeys) else none) with
          | some (key, name) => named key name modifier
          | none => ⟨.unknown, []⟩

/-- The bytes behind `ESC [`, with the final one. -/
def decodeCsi (sequence : Bytes) : Except PyError Keystroke :=
  let final := sequence.getLast?
  let body := sequence.dropLast
  if sequence.head? = some 0x3C ∧ (final = some 0x4D ∨ final = some 0x6D) then
    (MouseEvent.parse body.tail (final = some 0x4D)).map fun
      | some event => ⟨.mouse, event.encode.toList⟩
      | none => ⟨.unknown, []⟩
  else if final = some 0x49 ∧ body = [] then .ok ⟨.focusIn, []⟩
  else if final = some 0x4F ∧ body = [] then .ok ⟨.focusOut, []⟩
  else if final = some 0x5A ∧ body = [] then .ok ⟨.shiftTab, []⟩
  -- `13;5u`, `13;1u` and `13u`
  else if sequence ∈ ([[0x31, 0x33, 0x3B, 0x35, 0x75], [0x31, 0x33, 0x3B, 0x31, 0x75], [0x31, 0x33, 0x75]] :
      List Bytes) then .ok ⟨.enter, []⟩
  else if !(csiFields body).all isDigits then .ok ⟨.unknown, []⟩
  else ((csiFields body).mapM intOf).map (decodeNumbers final)

/-- The byte behind `ESC O`. -/
def decodeSs3 (final : Option UInt8) : Keystroke :=
  match final.bind (assocGet · ss3Functions) with
  | some function => ⟨.function, function.toList⟩
  | none =>
      match final.bind (assocGet · cursorFinals) with
      | some (key, _) => ⟨key, []⟩
      | none => ⟨.unknown, []⟩

def isControl (byte : UInt8) : Bool := byte < 0x20 || byte = 0x7F

/-- What is typed with Alt held. -/
def decodeAlt (py : CharTable) (data : Bytes) : Keystroke :=
  match data with
  | [byte] =>
      if isControl byte then
        let base := keyName py (decodeControl byte)
        if base = [] then ⟨.unknown, []⟩ else ⟨.modified, "alt+".toList ++ base⟩
      else text
  | _ => text
where
  text : Keystroke :=
    match decodeUtf8 data with
    | some text => if text.all py.isPrintable then ⟨.alt, text⟩ else ⟨.unknown, []⟩
    | none => ⟨.unknown, []⟩

/-! ## 5. Reading -/

structure Terminal where
  bytes : Bytes
  ended : Bool := false
  /-- How much the next large reads return; the ones behind them, all there is. -/
  fills : List Nat := []
  /-- The mode reports that were recorded. -/
  modes : List (Nat × Nat) := []
  deriving DecidableEq

inductive ReadKey where
  | key (k : Keystroke) (t : Terminal)
  | raised (error : PyError) (t : Terminal)
  /-- Nothing to read yet: the call waits. -/
  | waits (t : Terminal)
  deriving DecidableEq

namespace Terminal

/-- `_wait_readable`. -/
def readable (t : Terminal) : Bool := !t.bytes.isEmpty || t.ended

/-- A read of at most `size` bytes. -/
def read (t : Terminal) (size : Nat) : Bytes × Terminal :=
  let n := min size (max 1 (t.fills.head?.getD size))
  (t.bytes.take n, { t with bytes := t.bytes.drop n, fills := t.fills.tail })

end Terminal

/-- How many continuation bytes `_read_utf8_tail` reads. -/
def utf8Extra (first : UInt8) : Nat :=
  if first &&& 0b11100000 = 0b11000000 then 1
  else if first &&& 0b11110000 = 0b11100000 then 2
  else if first &&& 0b11111000 = 0b11110000 then 3
  else 0

def indexError : PyError := .raised "IndexError" "index out of range"

/-- A byte that ends a CSI sequence. -/
def isFinal (b : UInt8) : Bool := 0x40 ≤ b && b ≤ 0x7E

/-- The bytes of a CSI sequence, up to its final one: what was read and what
is left. -/
def readCsi (ended : Bool) : (seq bytes : Bytes) → Except PyError (Bytes × Bytes)
  | seq, [] => if ended then .error indexError else .ok (seq, [])
  | seq, b :: rest =>
      if isFinal b then .ok (seq ++ [b], rest) else readCsi ended (seq ++ [b]) rest

/-- `ESC [201~`. -/
def pasteEnd : Bytes := [0x1B, 0x5B, 0x32, 0x30, 0x31, 0x7E]

/-- The text of a paste. -/
def readPaste : Nat → Bytes → Terminal → Option (Bytes × Terminal)
  | 0, _, _ => none
  | fuel + 1, paste, t =>
      if !t.readable then some (paste, t)
      else
        let (block, t) := t.read 4096
        match Occurrences.find pasteEnd (paste ++ block) with
        | some i => some ((paste ++ block).take i, t)
        | none => readPaste fuel (paste ++ block) t

/-- `_record_mode_report`. -/
def recordModeReport (body : Bytes) (t : Terminal) : Except PyError Terminal :=
  let mode := body.takeWhile (· ≠ 0x3B)
  let value := (body.dropWhile (· ≠ 0x3B)).tail
  if 0x3B ∈ body ∧ isDigits mode ∧ isDigits value then do
    let mode ← intOf mode
    let value ← intOf value
    return { t with modes := t.modes ++ [(mode, value)] }
  else .ok t

/-- The keystroke of a result, where there is one. -/
def ReadKey.of (result : Except PyError Keystroke) (t : Terminal) : ReadKey :=
  match result with
  | .ok k => .key k t
  | .error error => .raised error t

/-- The sequence is the answer to a mode query: `?`, then `$y` at the end. -/
def IsReport (seq : Bytes) : Prop := seq.head? = some 0x3F ∧ [0x24, 0x79] <:+ seq

instance (seq : Bytes) : Decidable (IsReport seq) := inferInstanceAs (Decidable (_ ∧ _))

/-- `200~`. -/
def pasteStart : Bytes := [0x32, 0x30, 0x30, 0x7E]

/-- What the bytes of a CSI sequence make of the call; `again` reads another key. -/
def afterCsi (again : Terminal → Option ReadKey) (fuel : Nat) (seq : Bytes) (t : Terminal) : Option ReadKey :=
  if IsReport seq then
    match recordModeReport seq.tail.dropLast.dropLast t with
    | .error error => some (.raised error t)
    | .ok t => again t
  else if seq = pasteStart then
    (readPaste fuel [] t).map fun p => .key ⟨.paste, (decodeUtf8 p.1).getD (decodeReplace p.1)⟩ p.2
  else if seq = [] then some (.key ⟨.alt, ['[']⟩ t)
  else some (.of (decodeCsi seq) t)

/-- Behind an escape byte. -/
def afterEscape (py : CharTable) (again : Terminal → Option ReadKey) (fuel : Nat) (t : Terminal) :
    Option ReadKey :=
  match t.bytes with
  | [] => some (if t.ended then .raised indexError t else .key ⟨.esc, []⟩ t)
  | second :: rest =>
      if second = 0x4F then
        match rest with
        | [] => some (.key (if t.ended then decodeSs3 none else ⟨.alt, ['O']⟩) { t with bytes := [] })
        | final :: rest => some (.key (decodeSs3 (some final)) { t with bytes := rest })
      else if second = 0x5B then
        match readCsi t.ended [] rest with
        | .error error => some (.raised error { t with bytes := [] })
        | .ok (seq, rest) => afterCsi again fuel seq { t with bytes := rest }
      else if second = 0x1B then some (.key ⟨.esc, []⟩ { t with bytes := rest })
      else
        some (.key (decodeAlt py (second :: rest.take (utf8Extra second)))
          { t with bytes := rest.drop (utf8Extra second) })

/-- Not an escape byte. -/
def afterByte (py : CharTable) (first : UInt8) (rest : Bytes) (t : Terminal) : ReadKey :=
  if isControl first then .key (decodeControl first) { t with bytes := rest }
  else if first = 0x40 then .key ⟨.at_, []⟩ { t with bytes := rest }
  else
    .key (match decodeUtf8 (first :: rest.take (utf8Extra first)) with
        | some ch => if ch.all py.isPrintable then ⟨.char, ch⟩ else ⟨.unknown, []⟩
        | none => ⟨.unknown, []⟩)
      { t with bytes := rest.drop (utf8Extra first) }

def readKey (py : CharTable) : Nat → Terminal → Option ReadKey
  | 0, _ => none
  | fuel + 1, t =>
      match t.bytes with
      | [] => some (if t.ended then .raised indexError t else .waits t)
      | first :: rest =>
          if first = 0x1B then afterEscape py (readKey py fuel) fuel { t with bytes := rest }
          else some (afterByte py first rest t)

end Agenthicc.Tui
