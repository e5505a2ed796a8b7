import Mathlib.Logic.Function.Basic
import Digitiz.InputInjector
import Digitiz.KeyNames

/-!
The Windows injector.

Every press and release goes to the system as a batch of input events, of which the system may
insert any number from the front; how many is a parameter, asked once for every call. The
system's own record of what is down is kept beside the injector's, so that the two can be
compared.
-/

namespace Digitiz

/-- The three mouse buttons the system knows. -/
inductive MouseKey
  | left | right | middle
  deriving DecidableEq, Repr

/-- One event for the system's input queue. A mouse event may move, and may carry one button
going one way. -/
inductive Input
  | keyboard (vk : UInt16) (up extended : Bool)
  | mouse (dx dy : ℤ) (move : Bool) (flag : Option (MouseKey × Bool))
  deriving DecidableEq, Repr

/-- What the inserted events have left down. -/
structure Desktop where
  keys : UInt16 → Bool := fun _ => false
  buttons : MouseKey → Bool := fun _ => false

def Desktop.insert (d : Desktop) : Input → Desktop
  | .keyboard vk up _ => { d with keys := Function.update d.keys vk (!up) }
  | .mouse _ _ _ (some (b, down)) => { d with buttons := Function.update d.buttons b down }
  | .mouse _ _ _ none => d

def buttonIndex (b : MouseButton) : MouseKey :=
  if b = .right then .right else if b = .middle then .middle else .left

/-- The event flag of a button; a byte that names no button has none. -/
def buttonFlag (b : MouseButton) (down : Bool) : Option (MouseKey × Bool) :=
  if b = .left then some (.left, down)
  else if b = .right then some (.right, down)
  else if b = .middle then some (.middle, down)
  else none

structure ModifierKey where
  bit : UInt8
  vk : UInt16
  deriving DecidableEq

/-- In the order they are pressed; they are released in reverse. -/
def kModifierKeys : List ModifierKey :=
  [⟨kModCtrl, vkControl⟩, ⟨kModShift, vkShift⟩, ⟨kModAlt, vkMenu⟩, ⟨kModMeta, vkLWin⟩]

def isExtended (vk : UInt16) : Bool :=
  [0x2D, 0x2E, 0x24, 0x23, 0x21, 0x22, 0x26, 0x28, 0x25, 0x27, 0x6F, 0x90, 0x2C, 0xA3,
    0xA5].contains vk

def keyInput (vk : UInt16) (down : Bool) : Input := .keyboard vk (!down) (isExtended vk)

def kNormalizedSpan : ℤ := 65536
def kNormalizedMax : ℤ := 65535

/-- The smallest normalized value that the system truncates back to the pixel. -/
def pixelToNormalized (offset extent : ℤ) : ℤ :=
  if extent ≤ 0 then 0
  else
    let clamped := max 0 (min offset (extent - 1))
    let n := (clamped * kNormalizedSpan + extent - 1) / extent
    max 0 (min n kNormalizedMax)

/-- What the system does with a normalized value. -/
def normalizedToPixel (normalized extent : ℤ) : ℤ :=
  if extent ≤ 0 then 0
  else ((normalized * extent).tdiv kNormalizedSpan).bmod (2 ^ 32)

structure Win32InputInjector where
  bounds : Recti := ⟨0, 0, 1, 1⟩
  held : MouseKey → Bool := fun _ => false
  heldKeys : List UInt16 := []
  heldMods : UInt8 := 0
  clamped : ℕ := 0
  desktop : Desktop := {}
  /-- How many times the system has been called. -/
  sends : ℕ := 0

namespace Win32InputInjector

/-- How many events of a batch the system inserts, for each call. -/
abbrev SendInput := ℕ → List Input → ℕ

variable (sys : SendInput)

/-- Inserts a prefix of the batch; the answer is how long a prefix. -/
def send (i : Win32InputInjector) (batch : List Input) : ℕ × Win32InputInjector :=
  let n := min (sys i.sends batch) batch.length
  (n, { i with desktop := (batch.take n).foldl Desktop.insert i.desktop, sends := i.sends + 1 })

def setVirtualBounds (i : Win32InputInjector) (bounds : Recti) : Win32InputInjector :=
  if bounds.w > 0 ∧ bounds.h > 0 then { i with bounds := bounds } else i

def normalize (i : Win32InputInjector) (x y : ℤ) : (ℤ × ℤ) × Win32InputInjector :=
  let w := max i.bounds.w 1
  let h := max i.bounds.h 1
  let rx := x - i.bounds.x
  let ry := y - i.bounds.y
  let cx := max 0 (min rx (w - 1))
  let cy := max 0 (min ry (h - 1))
  ((pixelToNormalized cx w, pixelToNormalized cy h),
    if cx ≠ rx ∨ cy ≠ ry then { i with clamped := i.clamped + 1 } else i)

def emit (i : Win32InputInjector) (x y : ℤ) (flag : Option (MouseKey × Bool)) :
    Bool × Win32InputInjector :=
  let ((nx, ny), i) := i.normalize x y
  let (n, i) := i.send sys [.mouse nx ny true flag]
  (n == 1, i)

def moveTo (i : Win32InputInjector) (x y : ℤ) : Bool × Win32InputInjector := i.emit sys x y none

def button (i : Win32InputInjector) (b : MouseButton) (down : Bool) (x y : ℤ) :
    Bool × Win32InputInjector :=
  let (ok, i) := i.emit sys x y (buttonFlag b down)
  if !ok then (false, i)
  else (true, { i with held := Function.update i.held (buttonIndex b) down })

/-- The events of one key message. -/
def keyBatch (k : Key) (vk : UInt16) : List Input :=
  let mods := kModifierKeys.filter fun m => k.modifiers &&& m.bit ≠ 0
  (if k.action ≠ .up then mods.map (fun m => keyInput m.vk true) ++ [keyInput vk true] else [])
    ++ (if k.action ≠ .down then
        keyInput vk false :: mods.reverse.map (fun m => keyInput m.vk false)
      else [])

def key (i : Win32InputInjector) (k : Key) : Bool × Win32InputInjector :=
  match keyNameToCode k.key with
  | none => (false, i)
  | some vk =>
    let batch := keyBatch k vk
    let (n, i) := i.send sys batch
    if n ≠ batch.length then (false, i)
    -- only a bare Down leaves anything behind
    else if k.action = .down then
      (true, { i with heldKeys := i.heldKeys ++ [vk], heldMods := i.heldMods ||| k.modifiers })
    else
      (true, { i with
        heldKeys := i.heldKeys.filter (· ≠ vk)
        heldMods := if k.action = .up then i.heldMods &&& ~~~k.modifiers else i.heldMods })

def releaseAll (i : Win32InputInjector) : Win32InputInjector :=
  let i := i.heldKeys.foldl (fun i vk => (i.send sys [keyInput vk false]).2) i
  let i := { i with heldKeys := [] }
  let i := (kModifierKeys.reverse.filter fun m => i.heldMods &&& m.bit ≠ 0).foldl
    (fun i m => (i.send sys [keyInput m.vk false]).2) i
  let i := { i with heldMods := 0 }
  [MouseKey.left, .right, .middle].foldl (fun i b =>
    if !i.held b then i
    else { (i.send sys [.mouse 0 0 false (some (b, false))]).2 with
      held := Function.update i.held b false }) i

/-- The injector behind the interface, with the cursor read from `cursor`. -/
def interface (cursor : Option (ℤ × ℤ)) : IInputInjector Win32InputInjector where
  moveTo x y i := i.moveTo sys x y
  button b down x y i := i.button sys b down x y
  key k i := i.key sys k
  releaseAll i := i.releaseAll sys
  cursorPos _ := cursor

end Win32InputInjector

end Digitiz
