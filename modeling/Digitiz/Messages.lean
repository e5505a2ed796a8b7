import Digitiz.Wire

/-!
Message payloads.

These are in-memory types. An enumeration of the source is a byte with names for the values in
use, since a decoder casts whatever byte it finds. A float travels as its bit pattern.
-/

namespace Digitiz

open Digitiz.Wire

def kDeviceNameBytes : ℕ := 64
def kProcessNameBytes : ℕ := 64
def kKeyNameBytes : ℕ := 16

structure HostOs where
  raw : UInt8
  deriving DecidableEq, Repr

namespace HostOs
def windows : HostOs := ⟨0⟩
def linux : HostOs := ⟨1⟩
def macOS : HostOs := ⟨2⟩
end HostOs

structure LogLevel where
  raw : UInt8
  deriving DecidableEq, Repr

namespace LogLevel
def trace : LogLevel := ⟨0⟩
def debug : LogLevel := ⟨1⟩
def info : LogLevel := ⟨2⟩
def warn : LogLevel := ⟨3⟩
def error : LogLevel := ⟨4⟩
end LogLevel

structure PointerAction where
  raw : UInt8
  deriving DecidableEq, Repr

namespace PointerAction
def down : PointerAction := ⟨0⟩
def move : PointerAction := ⟨1⟩
def up : PointerAction := ⟨2⟩
def cancel : PointerAction := ⟨3⟩
def hover : PointerAction := ⟨4⟩
end PointerAction

structure MouseButton where
  raw : UInt8
  deriving DecidableEq, Repr

namespace MouseButton
def left : MouseButton := ⟨0⟩
def right : MouseButton := ⟨1⟩
def middle : MouseButton := ⟨2⟩
end MouseButton

/-- The pointer carries a delta instead of a position. -/
def kPointerRelative : UInt8 := 1
/-- The first event of a relative gesture. -/
def kPointerGestureStart : UInt8 := 2
/-- The coordinates are an offset inside the host's focused window. -/
def kPointerWindowRelative : UInt8 := 4

structure Hello where
  protoVer : UInt16 := kProtocolVersion
  screenW : Int32 := 0
  screenH : Int32 := 0
  density : UInt32 := 0x3F800000
  device : List UInt8 := []
  deriving DecidableEq, Repr

structure Monitor where
  x : Int32 := 0
  y : Int32 := 0
  w : Int32 := 0
  h : Int32 := 0
  dpi : UInt32 := 96
  primary : Bool := false
  deriving DecidableEq, Repr

structure HelloAck where
  protoVer : UInt16 := kProtocolVersion
  hostOs : HostOs := .windows
  vx : Int32 := 0
  vy : Int32 := 0
  vw : Int32 := 0
  vh : Int32 := 0
  monitors : List Monitor := []
  deriving DecidableEq, Repr

structure Ping where
  tSendUs : UInt64 := 0
  deriving DecidableEq, Repr

structure Pong where
  tSendUs : UInt64 := 0
  tReplyUs : UInt64 := 0
  deriving DecidableEq, Repr

structure HostState where
  enabled : Bool := false
  injecting : Bool := false
  deriving DecidableEq, Repr

/-- The program that has the focus; empty when it could not be identified. -/
structure ActiveWindow where
  pid : UInt32 := 0
  process : List UInt8 := []
  deriving DecidableEq, Repr

structure LogMessage where
  level : LogLevel := .info
  text : List UInt8 := []
  deriving DecidableEq, Repr

structure Pointer where
  tUs : UInt64 := 0
  x : Int32 := 0
  y : Int32 := 0
  action : PointerAction := .move
  button : MouseButton := .left
  pointerId : UInt8 := 0
  flags : UInt8 := 0
  pressure : UInt32 := 0x3F800000
  deriving DecidableEq, Repr

structure FrameFormat where
  raw : UInt8
  deriving DecidableEq, Repr

namespace FrameFormat
def off : FrameFormat := ⟨0⟩
def etc2Rgb8 : FrameFormat := ⟨1⟩
end FrameFormat

/-- What the guest wants to see. The default is the request to send nothing. -/
structure ViewportReq where
  x : Int32 := 0
  y : Int32 := 0
  w : Int32 := 0
  h : Int32 := 0
  outW : UInt16 := 0
  outH : UInt16 := 0
  fps : UInt8 := 0
  format : FrameFormat := .off
  tile : UInt8 := 0
  flags : UInt8 := 0
  deriving DecidableEq, Repr

/-- Opens a batch of tiles; the bytes follow in `FrameData` chunks. -/
structure FrameInfo where
  seq : UInt32 := 0
  x : Int32 := 0
  y : Int32 := 0
  w : Int32 := 0
  h : Int32 := 0
  outW : UInt16 := 0
  outH : UInt16 := 0
  format : FrameFormat := .off
  tile : UInt8 := 0
  rawBytes : UInt32 := 0
  payloadBytes : UInt32 := 0
  tiles : List UInt16 := []
  deriving DecidableEq, Repr

def kFrameChunkBytes : ℕ := 16 * 1024

/-- One slice of the payload named by the `FrameInfo` with the same sequence number. -/
structure FrameData where
  seq : UInt32 := 0
  offset : UInt32 := 0
  bytes : List UInt8 := []
  deriving DecidableEq, Repr

def kModCtrl : UInt8 := 1
def kModShift : UInt8 := 2
def kModAlt : UInt8 := 4
def kModMeta : UInt8 := 8

structure KeyAction where
  raw : UInt8
  deriving DecidableEq, Repr

namespace KeyAction
/-- Down and up, with the modifiers held around it. -/
def press : KeyAction := ⟨0⟩
def down : KeyAction := ⟨1⟩
def up : KeyAction := ⟨2⟩
end KeyAction

/-- A shortcut; the key travels as a name, one byte a character. -/
structure Key where
  modifiers : UInt8 := 0
  action : KeyAction := .press
  key : List UInt8 := []
  deriving DecidableEq, Repr

/-! ### Hello -/

namespace Hello

def payload (m : Hello) : List UInt8 :=
  Writer.u16 m.protoVer ++ Writer.u16 0 ++ Writer.i32 m.screenW ++ Writer.i32 m.screenH
    ++ Writer.f32 m.density ++ Writer.fixedStr m.device kDeviceNameBytes

def encode (m : Hello) : List UInt8 := message .hello 0 m.payload

def read : Read Hello := do
  let protoVer ← Reader.u16
  let _ ← Reader.u16
  let screenW ← Reader.i32
  let screenH ← Reader.i32
  let density ← Reader.f32
  let device ← Reader.fixedStr kDeviceNameBytes
  return { protoVer, screenW, screenH, density, device }

def decode (payload : List UInt8) : Option Hello := decodeWith read payload

end Hello

/-! ### HelloAck -/

namespace Monitor

def payload (m : Monitor) : List UInt8 :=
  Writer.i32 m.x ++ Writer.i32 m.y ++ Writer.i32 m.w ++ Writer.i32 m.h ++ Writer.u32 m.dpi
    ++ Writer.boolean m.primary ++ Writer.pad 3

def read : Read Monitor := do
  let x ← Reader.i32
  let y ← Reader.i32
  let w ← Reader.i32
  let h ← Reader.i32
  let dpi ← Reader.u32
  let primary ← Reader.boolean
  Reader.skip 3
  return { x, y, w, h, dpi, primary }

end Monitor

namespace HelloAck

/-- The number of monitors travels in a byte. -/
def payload (m : HelloAck) : List UInt8 :=
  Writer.u16 m.protoVer ++ Writer.u8 m.hostOs.raw ++ Writer.u8 (UInt8.ofNat m.monitors.length)
    ++ Writer.i32 m.vx ++ Writer.i32 m.vy ++ Writer.i32 m.vw ++ Writer.i32 m.vh ++ Writer.u32 0
    ++ m.monitors.flatMap Monitor.payload

def encode (m : HelloAck) : List UInt8 := message .helloAck 0 m.payload

/-- Monitors, as long as nothing overran. -/
def readMonitors : ℕ → Read (List Monitor)
  | 0 => return []
  | n + 1 => fun r =>
    if r.ok then
      let (m, r) := Monitor.read r
      let (ms, r) := readMonitors n r
      (m :: ms, r)
    else ([], r)

def read : Read HelloAck := do
  let protoVer ← Reader.u16
  let hostOs ← Reader.u8
  let count ← Reader.u8
  let vx ← Reader.i32
  let vy ← Reader.i32
  let vw ← Reader.i32
  let vh ← Reader.i32
  let _ ← Reader.u32
  let monitors ← readMonitors count.toNat
  return { protoVer, hostOs := ⟨hostOs⟩, vx, vy, vw, vh, monitors }

def decode (payload : List UInt8) : Option HelloAck := decodeWith read payload

end HelloAck

/-! ### Ping and Pong -/

namespace Ping

def payload (m : Ping) : List UInt8 := Writer.u64 m.tSendUs

def encode (m : Ping) : List UInt8 := message .ping 0 m.payload

def read : Read Ping := do
  let tSendUs ← Reader.u64
  return { tSendUs }

def decode (payload : List UInt8) : Option Ping := decodeWith read payload

end Ping

namespace Pong

def payload (m : Pong) : List UInt8 := Writer.u64 m.tSendUs ++ Writer.u64 m.tReplyUs

def encode (m : Pong) : List UInt8 := message .pong 0 m.payload

def read : Read Pong := do
  let tSendUs ← Reader.u64
  let tReplyUs ← Reader.u64
  return { tSendUs, tReplyUs }

def decode (payload : List UInt8) : Option Pong := decodeWith read payload

end Pong

/-! ### Pointer -/

namespace Pointer

def payload (m : Pointer) : List UInt8 :=
  Writer.u64 m.tUs ++ Writer.i32 m.x ++ Writer.i32 m.y ++ Writer.u8 m.action.raw
    ++ Writer.u8 m.button.raw ++ Writer.u8 m.pointerId ++ Writer.u8 m.flags
    ++ Writer.f32 m.pressure

def encode (m : Pointer) : List UInt8 := message .pointer 0 m.payload

def read : Read Pointer := do
  let tUs ← Reader.u64
  let x ← Reader.i32
  let y ← Reader.i32
  let action ← Reader.u8
  let button ← Reader.u8
  let pointerId ← Reader.u8
  let flags ← Reader.u8
  let pressure ← Reader.f32
  return { tUs, x, y, action := ⟨action⟩, button := ⟨button⟩, pointerId, flags, pressure }

def decode (payload : List UInt8) : Option Pointer := decodeWith read payload

end Pointer

/-! ### HostState -/

namespace HostState

def payload (m : HostState) : List UInt8 :=
  Writer.boolean m.enabled ++ Writer.boolean m.injecting ++ Writer.pad 2

def encode (m : HostState) : List UInt8 := message .hostState 0 m.payload

def read : Read HostState := do
  let enabled ← Reader.boolean
  let injecting ← Reader.boolean
  Reader.skip 2
  return { enabled, injecting }

def decode (payload : List UInt8) : Option HostState := decodeWith read payload

end HostState

/-! ### ActiveWindow -/

namespace ActiveWindow

def payload (m : ActiveWindow) : List UInt8 :=
  Writer.u32 m.pid ++ Writer.fixedStr m.process kProcessNameBytes

def encode (m : ActiveWindow) : List UInt8 := message .activeWindow 0 m.payload

def read : Read ActiveWindow := do
  let pid ← Reader.u32
  let process ← Reader.fixedStr kProcessNameBytes
  return { pid, process }

def decode (payload : List UInt8) : Option ActiveWindow := decodeWith read payload

end ActiveWindow

/-! ### ViewportReq -/

namespace ViewportReq

def payload (m : ViewportReq) : List UInt8 :=
  Writer.i32 m.x ++ Writer.i32 m.y ++ Writer.i32 m.w ++ Writer.i32 m.h ++ Writer.u16 m.outW
    ++ Writer.u16 m.outH ++ Writer.u8 m.fps ++ Writer.u8 m.format.raw ++ Writer.u8 m.tile
    ++ Writer.u8 m.flags

def encode (m : ViewportReq) : List UInt8 := message .viewportReq 0 m.payload

def read : Read ViewportReq := do
  let x ← Reader.i32
  let y ← Reader.i32
  let w ← Reader.i32
  let h ← Reader.i32
  let outW ← Reader.u16
  let outH ← Reader.u16
  let fps ← Reader.u8
  let format ← Reader.u8
  let tile ← Reader.u8
  let flags ← Reader.u8
  return { x, y, w, h, outW, outH, fps, format := ⟨format⟩, tile, flags }

def decode (payload : List UInt8) : Option ViewportReq := decodeWith read payload

end ViewportReq

/-! ### FrameInfo -/

namespace FrameInfo

def payload (m : FrameInfo) : List UInt8 :=
  Writer.u32 m.seq ++ Writer.i32 m.x ++ Writer.i32 m.y ++ Writer.i32 m.w ++ Writer.i32 m.h
    ++ Writer.u16 m.outW ++ Writer.u16 m.outH ++ Writer.u8 m.format.raw ++ Writer.u8 m.tile
    ++ Writer.pad 2 ++ Writer.u32 m.rawBytes ++ Writer.u32 m.payloadBytes
    ++ m.tiles.flatMap Writer.u16

def encode (m : FrameInfo) : List UInt8 := message .frameInfo 0 m.payload

/-- However many indices the rest of the payload holds. -/
def readTiles : ℕ → Read (List UInt16)
  | 0 => return []
  | n + 1 => fun r =>
    if r.ok ∧ 2 ≤ r.remaining then
      let (t, r) := Reader.u16 r
      let (ts, r) := readTiles n r
      (t :: ts, r)
    else ([], r)

def read : Read FrameInfo := do
  let seq ← Reader.u32
  let x ← Reader.i32
  let y ← Reader.i32
  let w ← Reader.i32
  let h ← Reader.i32
  let outW ← Reader.u16
  let outH ← Reader.u16
  let format ← Reader.u8
  let tile ← Reader.u8
  Reader.skip 2
  let rawBytes ← Reader.u32
  let payloadBytes ← Reader.u32
  let r ← Reader.current
  let tiles ← readTiles r.remaining
  return { seq, x, y, w, h, outW, outH, format := ⟨format⟩, tile, rawBytes, payloadBytes, tiles }

def decode (payload : List UInt8) : Option FrameInfo := decodeWith read payload

lemma length_tiles (ts : List UInt16) : (ts.flatMap Writer.u16).length = 2 * ts.length := by
  induction ts with
  | nil => rfl
  | cons t ts ih => simp only [List.flatMap_cons, List.length_append, Writer.length_u16, ih,
      List.length_cons]; omega

@[simp] lemma length_payload (m : FrameInfo) : m.payload.length = 36 + 2 * m.tiles.length := by
  simp only [payload, List.length_append, length_tiles, Writer.length_u32, Writer.length_i32,
    Writer.length_u16, Writer.length_u8, Writer.length_pad]

lemma readTiles_append (ts : List UInt16) (l : List UInt8) (n : ℕ) (hl : l.length < 2)
    (h : ts.length ≤ n) : readTiles n ⟨ts.flatMap Writer.u16 ++ l, true⟩ = (ts, ⟨l, true⟩) := by
  induction n generalizing ts with
  | zero =>
    obtain rfl : ts = [] := List.length_eq_zero_iff.mp (by omega)
    rfl
  | succ n ih =>
    cases ts with
    | nil =>
      have hno : ¬2 ≤ l.length := Nat.not_le.mpr hl
      simp [readTiles, Reader.remaining, hno]
    | cons t ts =>
      have hlen : 2 ≤ ((t :: ts).flatMap Writer.u16 ++ l).length := by
        rw [List.length_append, length_tiles, List.length_cons]
        omega
      simp only [readTiles, Reader.remaining, if_true, hlen, and_self]
      simp only [List.flatMap_cons, List.append_assoc, Reader.u16_apply, ih ts (by simpa using h)]

lemma readTiles_apply (ts : List UInt16) (n : ℕ) (h : ts.length ≤ n) :
    readTiles n ⟨ts.flatMap Writer.u16, true⟩ = (ts, ⟨[], true⟩) := by
  simpa using readTiles_append ts [] n (by decide) h

/-- What is encoded is decoded. -/
theorem decode_payload (m : FrameInfo) : decode m.payload = some m := by
  have hpad := fun l => Reader.skip_apply (Writer.pad 2) l
  rw [Writer.length_pad] at hpad
  have htiles := readTiles_apply m.tiles (m.tiles.flatMap Writer.u16).length
    (by rw [length_tiles]; omega)
  simp only [decode, decodeWith, read, payload, List.append_assoc, Reader.bind_apply,
    Reader.u32_apply, Reader.i32_apply, Reader.u16_apply, Reader.u8_apply, hpad,
    Reader.current_apply, Reader.remaining, if_true, htiles, Reader.pure_apply]
  rfl

end FrameInfo

/-! ### FrameData -/

namespace FrameData

def payload (m : FrameData) : List UInt8 :=
  Writer.u32 m.seq ++ Writer.u32 m.offset ++ m.bytes

def encode (m : FrameData) : List UInt8 := message .frameData 0 m.payload

def read : Read FrameData := do
  let seq ← Reader.u32
  let offset ← Reader.u32
  let bytes ← Reader.restBytes
  return { seq, offset, bytes }

def decode (payload : List UInt8) : Option FrameData := decodeWith read payload

@[simp] lemma length_payload (m : FrameData) : m.payload.length = 8 + m.bytes.length := by
  simp only [payload, List.length_append, Writer.length_u32]

/-- What is encoded is decoded. -/
theorem decode_payload (m : FrameData) : decode m.payload = some m := by
  simp only [decode, decodeWith, read, payload, List.append_assoc, Reader.bind_apply,
    Reader.u32_apply, Reader.restBytes_apply, Reader.pure_apply]
  rfl

end FrameData

/-! ### Key -/

namespace Key

def payload (m : Key) : List UInt8 :=
  Writer.u8 m.modifiers ++ Writer.u8 m.action.raw ++ Writer.pad 2
    ++ Writer.fixedStr m.key kKeyNameBytes

def encode (m : Key) : List UInt8 := message .key 0 m.payload

def read : Read Key := do
  let modifiers ← Reader.u8
  let action ← Reader.u8
  Reader.skip 2
  let key ← Reader.fixedStr kKeyNameBytes
  return { modifiers, action := ⟨action⟩, key }

def decode (payload : List UInt8) : Option Key := decodeWith read payload

end Key

/-! ### Log -/

namespace LogMessage

def payload (m : LogMessage) : List UInt8 :=
  Writer.u8 m.level.raw ++ Writer.pad 3 ++ Writer.rawStr m.text

def encode (m : LogMessage) : List UInt8 := message .log 0 m.payload

def read : Read LogMessage := do
  let level ← Reader.u8
  Reader.skip 3
  let text ← Reader.restStr
  return { level := ⟨level⟩, text }

def decode (payload : List UInt8) : Option LogMessage := decodeWith read payload

end LogMessage

end Digitiz
