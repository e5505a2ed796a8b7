import Digitiz.KeyNames
import Digitiz.TextLines

/-!
The guest's settings, stored as a small key=value file, and the host's look into that file.

The host has to know whether it may launch the app while the app is not running, so it reads the
file itself. Strings are byte strings; how a `float` is printed and read is left to the library,
given by a class.
-/

namespace Digitiz

open TextLines

/-- How the library compares, reads and prints a `float`. -/
class FloatText (F : Type*) where
  zero : F
  same : F → F → Bool
  atof : List UInt8 → F
  print : F → List UInt8

/-- The blanks that both sides trim. -/
def isBlank (c : UInt8) : Bool := c = 32 ∨ c = 9 ∨ c = 13 ∨ c = 10

def trim (s : List UInt8) : List UInt8 := trimBy isBlank s

/-- A line taken apart at its first equals sign. -/
def cutAtEq (line : List UInt8) : Option (List UInt8 × List UInt8) :=
  if 61 ∈ line then some (line.takeWhile (· ≠ 61), (line.dropWhile (· ≠ 61)).tail) else none

def kAutoLaunchKey : List UInt8 := ascii "auto_launch"
def kMinIntervalKey : List UInt8 := ascii "min_interval_ms"
def kMinDistanceKey : List UInt8 := ascii "min_distance_dp"
def kStripVerticalKey : List UInt8 := ascii "strip_vertical"
def kStripExpandedKey : List UInt8 := ascii "strip_expanded"
def kStripSlotsKey : List UInt8 := ascii "strip_slots"
def kScreenKey : List UInt8 := ascii "screen"
def kStylusKey : List UInt8 := ascii "stylus_only"

structure Settings (F : Type*) [FloatText F] where
  path : List UInt8 := []
  autoLaunch : Bool := true
  minIntervalMs : Int32 := 0
  minDistanceDp : F := FloatText.zero
  stripVertical : Bool := false
  stripExpanded : Bool := false
  stripSlots : Int32 := 0
  screenEnabled : Bool := false
  stylusOnly : Bool := false

namespace Settings

variable {F : Type*} [FloatText F]

/-! ### Reading the file -/

/-- A switch is on unless its value is a zero. -/
def isOn (value : List UInt8) : Bool := value ≠ ascii "0"

def set (s : Settings F) (key value : List UInt8) : Settings F :=
  if key = kAutoLaunchKey then { s with autoLaunch := isOn value }
  else if key = kMinIntervalKey then { s with minIntervalMs := atoi value }
  else if key = kMinDistanceKey then { s with minDistanceDp := FloatText.atof value }
  else if key = kStripVerticalKey then { s with stripVertical := isOn value }
  else if key = kStripExpandedKey then { s with stripExpanded := isOn value }
  else if key = kStripSlotsKey then { s with stripSlots := atoi value }
  else if key = kScreenKey then { s with screenEnabled := isOn value }
  else if key = kStylusKey then { s with stylusOnly := isOn value }
  else s

/-- One turn of the loop of `load`. -/
def readLine (s : Settings F) (line : List UInt8) : Settings F :=
  match cutAtEq line with
  | none => s
  | some (key, value) => s.set (trim key) (trim value)

/-! ### Writing the file -/

def bit (b : Bool) : List UInt8 := if b then ascii "1" else ascii "0"

def line (key value : List UInt8) : List UInt8 := key ++ ascii "=" ++ value

/-- What `save` writes. -/
def fileText (s : Settings F) : List UInt8 :=
  unlines 10 [ascii "# digitiz guest settings",
    line kAutoLaunchKey (bit s.autoLaunch),
    line kMinIntervalKey (decimal s.minIntervalMs.toInt),
    line kMinDistanceKey (FloatText.print s.minDistanceDp),
    line kStripVerticalKey (bit s.stripVertical),
    line kStripExpandedKey (bit s.stripExpanded),
    line kStripSlotsKey (decimal s.stripSlots.toInt),
    line kScreenKey (bit s.screenEnabled),
    line kStylusKey (bit s.stylusOnly)]

def save (s : Settings F) : Option (List UInt8) := if s.path = [] then none else some s.fileText

/-- `load`, from the directory given (empty for none) and the file in it (none on a first run, when
the defaults are written). -/
def load (s : Settings F) (externalDir : List UInt8) (file : Option (List UInt8)) :
    Settings F × Option (List UInt8) :=
  if externalDir = [] then (s, none)
  else
    let s := { s with path := externalDir ++ ascii "/" ++ ascii "settings.txt" }
    match file with
    | none => (s, s.save)
    | some text => ((lines 10 text).foldl readLine s, none)

/-! ### Changes -/

def saved (s : Settings F) : Settings F × Option (List UInt8) := (s, s.save)

def setThrottle (s : Settings F) (intervalMs : Int32) (distanceDp : F) :
    Settings F × Option (List UInt8) :=
  if s.minIntervalMs = intervalMs ∧ FloatText.same s.minDistanceDp distanceDp then (s, none)
  else saved { s with minIntervalMs := intervalMs, minDistanceDp := distanceDp }

def setStrip (s : Settings F) (vertical expanded : Bool) : Settings F × Option (List UInt8) :=
  if s.stripVertical = vertical ∧ s.stripExpanded = expanded then (s, none)
  else saved { s with stripVertical := vertical, stripExpanded := expanded }

def setStripSlots (s : Settings F) (slots : Int32) : Settings F × Option (List UInt8) :=
  if s.stripSlots = slots then (s, none) else saved { s with stripSlots := slots }

def setScreenEnabled (s : Settings F) (on : Bool) : Settings F × Option (List UInt8) :=
  if s.screenEnabled = on then (s, none) else saved { s with screenEnabled := on }

def setStylusOnly (s : Settings F) (on : Bool) : Settings F × Option (List UInt8) :=
  if s.stylusOnly = on then (s, none) else saved { s with stylusOnly := on }

def setAutoLaunch (s : Settings F) (on : Bool) : Settings F × Option (List UInt8) :=
  if s.autoLaunch = on then (s, none) else saved { s with autoLaunch := on }

/-- What can be done to the settings. -/
inductive Change (F : Type*) where
  | load (externalDir : List UInt8) (file : Option (List UInt8))
  | throttle (intervalMs : Int32) (distanceDp : F)
  | strip (vertical expanded : Bool)
  | stripSlots (slots : Int32)
  | screenEnabled (on : Bool)
  | stylusOnly (on : Bool)
  | autoLaunch (on : Bool)

/-- The settings after the change, and what was written to the file. -/
def apply (s : Settings F) : Change F → Settings F × Option (List UInt8)
  | .load externalDir file => s.load externalDir file
  | .throttle intervalMs distanceDp => s.setThrottle intervalMs distanceDp
  | .strip vertical expanded => s.setStrip vertical expanded
  | .stripSlots slots => s.setStripSlots slots
  | .screenEnabled on => s.setScreenEnabled on
  | .stylusOnly on => s.setStylusOnly on
  | .autoLaunch on => s.setAutoLaunch on

end Settings

/-! ### The host's look -/

/-- The loop of `read_guest_flag`: the first line with the key decides. -/
def readFlagLines (key : List UInt8) (fallback : Bool) : List (List UInt8) → Bool
  | [] => fallback
  | line :: rest =>
    let line := trim line
    if line = [] ∨ line.head? = some 35 then readFlagLines key fallback rest
    else
      match cutAtEq line with
      | none => readFlagLines key fallback rest
      | some (name, value) =>
        if trim name = key then trim value ≠ ascii "0" else readFlagLines key fallback rest

/-- `read_guest_flag`, given what `adb shell cat` printed (none if it could not be launched). -/
def readGuestFlag (output : Option (List UInt8)) (key : List UInt8) (fallback : Bool) : Bool :=
  match output with
  | none => fallback
  | some text => readFlagLines key fallback (lines 10 text)

end Digitiz
