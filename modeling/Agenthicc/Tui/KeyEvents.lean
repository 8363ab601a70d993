/-
Agenthicc.Tui.KeyEvents — what a terminal writes for a key event, and that the
calls of the reader return the events that were written.

`Returned` is the property of a run of calls: one call for each event returns
its key and leaves exactly what was written behind it; a report of a mode is
taken along by the next call. `AllReadable` is the condition, event by event.
The end of input has its own part: which bytes a call never returns from.
-/
import Agenthicc.Tui.KeyboardTheorems

open Python

namespace Agenthicc.Tui

/-! ## 1. Events -/

/-- The end marker, as text. -/
def pasteEndText : List Char := ['\x1B', '[', '2', '0', '1', '~']

inductive KeyEvent where
  | char (c : Char)
  | control (byte : UInt8)
  /-- Cursor and function keys with their modifiers, focus and mouse reports. -/
  | csi (parameters : Bytes) (final : UInt8)
  | ss3 (final : UInt8)
  | alt (c : Char)
  | modeReport (body : Bytes)
  | paste (text : List Char)

namespace KeyEvent

def encode : KeyEvent → Bytes
  | .char c => String.utf8EncodeChar c
  | .control byte => [byte]
  | .csi parameters final => [0x1B, 0x5B] ++ parameters ++ [final]
  | .ss3 final => [0x1B, 0x4F, final]
  | .alt c => 0x1B :: String.utf8EncodeChar c
  | .modeReport body => [0x1B, 0x5B] ++ (0x3F :: body ++ [0x24]) ++ [0x79]
  | .paste text => [0x1B, 0x5B] ++ pasteStart ++ (utf8 text ++ pasteEnd)

/-- The events that a terminal writes. -/
def Valid : KeyEvent → Prop
  | .char c => 0x20 ≤ c.toNat ∧ c.toNat ≠ 0x7F
  | .control byte => isControl byte = true
  | .csi parameters final => (∀ b ∈ parameters, isFinal b = false) ∧ isFinal final = true
      ∧ ¬ IsReport (parameters ++ [final]) ∧ parameters ++ [final] ≠ pasteStart
  | .ss3 _ => True
  | .alt _ => True
  | .modeReport body => ∀ b ∈ body, isFinal b = false
  | .paste text => ¬ pasteEndText <:+: text

instance : DecidablePred Valid
  | .char _ => inferInstanceAs (Decidable (_ ∧ _))
  | .control byte => inferInstanceAs (Decidable (isControl byte = true))
  | .csi _ _ => inferInstanceAs (Decidable (_ ∧ _ ∧ _ ∧ _))
  | .ss3 _ => inferInstanceAs (Decidable True)
  | .alt _ => inferInstanceAs (Decidable True)
  | .modeReport body => inferInstanceAs (Decidable (∀ b ∈ body, isFinal b = false))
  | .paste text => inferInstanceAs (Decidable (¬ pasteEndText <:+: text))

/-- The keystroke that is the event. -/
def Means (py : CharTable) : KeyEvent → Keystroke → Prop
  | .char c, k => k = if c = '@' then ⟨.at_, []⟩ else if py.isPrintable c then ⟨.char, [c]⟩ else ⟨.unknown, []⟩
  | .control byte, k => k = decodeControl byte
  | .csi parameters final, k => decodeCsi (parameters ++ [final]) = .ok k
  | .ss3 final, k => k = decodeSs3 (some final)
  | .alt c, k => k = decodeAlt py (String.utf8EncodeChar c)
  | .modeReport _, _ => False
  | .paste text, k => k = ⟨.paste, text⟩

end KeyEvent

def encodeAll (events : List KeyEvent) : Bytes := events.flatMap KeyEvent.encode

/-- Successive calls return the events, then the next one waits. -/
def Returned (py : CharTable) : List KeyEvent → Terminal → Prop
  | [], t => readKey py 1 t = some (.waits t)
  | .modeReport body :: rest, t =>
      ∃ t', recordModeReport body { t with bytes := encodeAll rest } = .ok t'
        ∧ (∀ fuel, readKey py (fuel + 1) t = readKey py fuel t') ∧ Returned py rest t'
  | e :: rest, t =>
      ∃ k t' fuel, e.Means py k ∧ readKey py fuel t = some (.key k t') ∧ t'.bytes = encodeAll rest
        ∧ Returned py rest t'

/-! ## 2. The condition -/

/-- A number of more digits than `int` reads. -/
def Long (field : Bytes) : Prop := maxStrDigits < field.length

/-- A CSI sequence with a number that `int` refuses. -/
def LongCsi (seq : Bytes) : Prop :=
  if seq.head? = some 0x3C ∧ (seq.getLast? = some 0x4D ∨ seq.getLast? = some 0x6D) then
    (seq.dropLast.tail.splitOn 0x3B).length = 3 ∧ (seq.dropLast.tail.splitOn 0x3B).all isDigits = true
      ∧ ∃ field ∈ seq.dropLast.tail.splitOn 0x3B, Long field
  else (csiFields seq.dropLast).all isDigits = true ∧ ∃ field ∈ csiFields seq.dropLast, Long field

/-- A report of a mode with such a number. -/
def LongReport (body : Bytes) : Prop :=
  0x3B ∈ body ∧ isDigits (body.takeWhile (· ≠ 0x3B)) = true ∧ isDigits (body.dropWhile (· ≠ 0x3B)).tail = true
    ∧ (Long (body.takeWhile (· ≠ 0x3B)) ∨ Long (body.dropWhile (· ≠ 0x3B)).tail)

/-- How much the next large read returns where there is enough. -/
def blockSize (fills : List Nat) : Nat := min 4096 (max 1 (fills.head?.getD 4096))

theorem blockSize_pos (fills : List Nat) : 0 < blockSize fills := by
  unfold blockSize
  omega

/-- What the large reads return together until `needed` bytes are there, and
the sizes of the reads behind them. -/
def readBlocks (needed : Nat) (fills : List Nat) : Nat × List Nat :=
  if needed ≤ blockSize fills then (blockSize fills, fills.tail)
  else
    let r := readBlocks (needed - blockSize fills) fills.tail
    (blockSize fills + r.1, r.2)
termination_by needed
decreasing_by
  have hpos := blockSize_pos fills
  omega

namespace KeyEvent

/-- The bytes of a paste up to the end of its marker. -/
def pasteLength (text : List Char) : Nat := (utf8 text).length + pasteEnd.length

/-- The event is read for itself, with this written behind it: no Escape, no
Alt with `[` or `O` before something else, no Alt with Escape; no number that
`int` refuses; and the reads of a paste end where it ends. -/
def Readable (fills : List Nat) (behind : Bytes) : KeyEvent → Prop
  | .control byte => byte = 0x1B → behind = []
  | .alt c => c ≠ '\x1B' ∧ (c = '[' ∨ c = 'O' → behind = [])
  | .csi parameters final => ¬ LongCsi (parameters ++ [final])
  | .modeReport body => ¬ LongReport body
  | .paste text => behind = [] ∨ (readBlocks (pasteLength text) fills).1 = pasteLength text
  | _ => True

/-- The sizes of the reads that are left. -/
def fillsBehind (fills : List Nat) : KeyEvent → List Nat
  | .paste text => (readBlocks (pasteLength text) fills).2
  | _ => fills

end KeyEvent

def AllReadable : List KeyEvent → List Nat → Prop
  | [], _ => True
  | e :: rest, fills => e.Readable fills (encodeAll rest) ∧ AllReadable rest (e.fillsBehind fills)

/-- The bytes open a paste that nothing closes, behind any reports of modes. -/
inductive UnclosedPaste : Bytes → Prop
  | here {rest : Bytes} : ¬ pasteEnd <:+: rest → UnclosedPaste ([0x1B, 0x5B] ++ pasteStart ++ rest)
  | behindReport {body rest : Bytes} : (∀ b ∈ body, isFinal b = false) → ¬ LongReport body → UnclosedPaste rest →
      UnclosedPaste (KeyEvent.encode (.modeReport body) ++ rest)

end Agenthicc.Tui
