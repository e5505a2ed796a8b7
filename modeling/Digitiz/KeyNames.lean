import Mathlib.Tactic.Common

/-!
From the key name a guest sends to a Windows virtual-key code. Names are byte strings; anything
not in the table is unknown rather than guessed at.
-/

namespace Digitiz

/-- The bytes of an ASCII string. -/
def ascii (s : String) : List UInt8 := s.toList.map fun c => UInt8.ofNat c.toNat

def vkControl : UInt16 := 0x11
def vkShift : UInt16 := 0x10
def vkMenu : UInt16 := 0x12
def vkLWin : UInt16 := 0x5B
def vkF1 : UInt16 := 0x70
def vkNumpad0 : UInt16 := 0x60

def kNamedKeys : List (String × UInt16) := [
  ("escape", 0x1B), ("esc", 0x1B), ("tab", 0x09), ("enter", 0x0D), ("return", 0x0D),
  ("space", 0x20), ("backspace", 0x08), ("delete", 0x2E), ("del", 0x2E), ("insert", 0x2D),
  ("home", 0x24), ("end", 0x23), ("pageup", 0x21), ("pagedown", 0x22), ("up", 0x26),
  ("down", 0x28), ("left", 0x25), ("right", 0x27), ("printscreen", 0x2C), ("pause", 0x13),
  ("capslock", 0x14), ("numlock", 0x90), ("scrolllock", 0x91), ("menu", 0x5D),
  ("minus", 0xBD), ("equal", 0xBB), ("comma", 0xBC), ("period", 0xBE), ("slash", 0xBF),
  ("backslash", 0xDC), ("semicolon", 0xBA), ("quote", 0xDE), ("leftbracket", 0xDB),
  ("rightbracket", 0xDD), ("backquote", 0xC0), ("numpadplus", 0x6B), ("numpadminus", 0x6D),
  ("numpadmultiply", 0x6A), ("numpaddivide", 0x6F), ("numpaddecimal", 0x6E)]

/-- The decimal value of the digits, given up on as soon as it passes `last`. -/
def parseDigits (last : ℕ) : ℕ → List UInt8 → Option ℕ
  | value, [] => some value
  | value, c :: cs =>
    if c < 0x30 ∨ c > 0x39 then none
    else
      let value := value * 10 + (c.toNat - 0x30)
      if value > last then none else parseDigits last value cs

/-- A name made of a fixed part and a number from `first` to `last`. -/
def parseIndexed (name : List UInt8) (stem : String) (first last : ℕ) (base : UInt16) :
    Option UInt16 :=
  if !(ascii stem).isPrefixOf name ∨ name.length ≤ (ascii stem).length then none
  else
    match parseDigits last 0 (name.drop (ascii stem).length) with
    | none => none
    | some value => if value < first then none else some (base + UInt16.ofNat (value - first))

def keyNameToCode (name : List UInt8) : Option UInt16 :=
  match name with
  | [] => none
  | [c] =>
    if c ≥ 0x61 ∧ c ≤ 0x7A then some (0x41 + (c - 0x61).toUInt16)
    else if c ≥ 0x41 ∧ c ≤ 0x5A then some c.toUInt16
    else if c ≥ 0x30 ∧ c ≤ 0x39 then some c.toUInt16
    else none
  | name =>
    (parseIndexed name "f" 1 24 vkF1).or <|
      (parseIndexed name "numpad" 0 9 vkNumpad0).or <|
        (kNamedKeys.find? fun k => ascii k.1 = name).map (·.2)

end Digitiz
