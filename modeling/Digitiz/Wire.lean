import Digitiz.Bytes

/-!
Wire format primitives.

Everything is little-endian, written field by field. A writer appends to a byte string; a
reader walks one and latches a failure flag instead of stopping: every read after the first
short one returns zero, and the flag is looked at once, at the end. A message is an eight-byte
header, whose length is patched in last, and a payload.
-/

namespace Digitiz.Wire

open Digitiz.Bytes

/-- The bytes on the wire are `D`, `I`. -/
def kMagic : UInt16 := 0x4944
def kMagicByte0 : UInt8 := 0x44
def kMagicByte1 : UInt8 := 0x49
def kProtocolVersion : UInt16 := 1
def kHeaderSize : ℕ := 8
def kMaxPayload : ℕ := 4 * 1024 * 1024

/-- A message type is whatever byte the header carries; the named ones are those in use. -/
structure MsgType where
  raw : UInt8
  deriving DecidableEq, Repr

namespace MsgType

def hello : MsgType := ⟨0x01⟩
def helloAck : MsgType := ⟨0x02⟩
def ping : MsgType := ⟨0x03⟩
def pong : MsgType := ⟨0x04⟩
def pointer : MsgType := ⟨0x10⟩
def hostState : MsgType := ⟨0x11⟩
def viewportReq : MsgType := ⟨0x20⟩
def frameInfo : MsgType := ⟨0x21⟩
def frameData : MsgType := ⟨0x22⟩
def activeWindow : MsgType := ⟨0x23⟩
def key : MsgType := ⟨0x24⟩
def log : MsgType := ⟨0x7F⟩

end MsgType

/-! ### Writer -/

namespace Writer

def u8 (v : UInt8) : List UInt8 := [v]
def u16 (v : UInt16) : List UInt8 := u8 v.toUInt8 ++ u8 (v >>> 8).toUInt8
def u32 (v : UInt32) : List UInt8 := u16 v.toUInt16 ++ u16 (v >>> 16).toUInt16
def u64 (v : UInt64) : List UInt8 := u32 v.toUInt32 ++ u32 (v >>> 32).toUInt32
def i32 (v : Int32) : List UInt8 := u32 v.toUInt32
/-- A float is written as its bit pattern. -/
def f32 (v : UInt32) : List UInt8 := u32 v
def boolean (v : Bool) : List UInt8 := u8 (if v then 1 else 0)
def pad (n : ℕ) : List UInt8 := List.replicate n 0
def rawStr (s : List UInt8) : List UInt8 := s

/-- Exactly `n` bytes: truncated if longer, NUL-padded if shorter. -/
def fixedStr (s : List UInt8) (n : ℕ) : List UInt8 :=
  let take := if s.length < n then s.length else n
  s.take take ++ pad (n - take)

lemma u16_eq_toLe (v : UInt16) : u16 v = toLe 2 v.toNat := by
  simp only [u16, u8, List.singleton_append, toLe, List.cons.injEq, and_true]
  constructor <;> apply UInt8.toNat_inj.mp <;> simp [Nat.shiftRight_eq_div_pow]

lemma u32_eq_toLe (v : UInt32) : u32 v = toLe 4 v.toNat := by
  have := v.toNat_lt
  simp only [u32, u16_eq_toLe, toLe, List.cons_append, List.nil_append, List.cons.injEq, and_true]
  refine ⟨?_, ?_, ?_, ?_⟩ <;> apply UInt8.toNat_inj.mp <;>
    simp [Nat.shiftRight_eq_div_pow] <;> omega

@[simp] lemma length_u8 (v : UInt8) : (u8 v).length = 1 := rfl
@[simp] lemma length_u16 (v : UInt16) : (u16 v).length = 2 := rfl
@[simp] lemma length_u32 (v : UInt32) : (u32 v).length = 4 := rfl
@[simp] lemma length_u64 (v : UInt64) : (u64 v).length = 8 := rfl
@[simp] lemma length_i32 (v : Int32) : (i32 v).length = 4 := rfl
@[simp] lemma length_pad (n : ℕ) : (pad n).length = n := by simp [pad]

end Writer

/-! ### Reader -/

/-- What is left to read, and whether every read so far was in bounds. -/
structure Reader where
  rest : List UInt8
  ok : Bool
  deriving DecidableEq

/-- A computation that reads from a payload. -/
def Read (α : Type) : Type := Reader → α × Reader

instance : Monad Read where
  pure a := fun r => (a, r)
  bind x f := fun r => f (x r).1 (x r).2

namespace Reader

def current : Read Reader := fun r => (r, r)

def need (n : ℕ) : Read Bool := fun r =>
  if !r.ok || r.rest.length < n then (false, { r with ok := false }) else (true, r)

/-- Hands out a value and moves over `n` bytes, once they are known to be there. -/
def take {α : Type} (n : ℕ) (short : α) (f : List UInt8 → α) : Read α := do
  if !(← need n) then return short
  fun r => (f (r.rest.take n), { r with rest := r.rest.drop n })

def u8 : Read UInt8 := take 1 0 (·.headD 0)

def u16 : Read UInt16 := do
  let lo ← u8
  let hi ← u8
  return lo.toUInt16 ||| hi.toUInt16 <<< 8

def u32 : Read UInt32 := do
  let lo ← u16
  let hi ← u16
  return lo.toUInt32 ||| hi.toUInt32 <<< 16

def u64 : Read UInt64 := do
  let lo ← u32
  let hi ← u32
  return lo.toUInt64 ||| hi.toUInt64 <<< 32

def i32 : Read Int32 := do
  let v ← u32
  return v.toInt32

def f32 : Read UInt32 := u32

def boolean : Read Bool := do
  let v ← u8
  return v != 0

def skip (n : ℕ) : Read Unit := take n () fun _ => ()

/-- Reads exactly `n` bytes, returning the content up to the first NUL. -/
def fixedStr (n : ℕ) : Read (List UInt8) := take n [] (·.takeWhile (· ≠ 0))

def restBytes : Read (List UInt8) := fun r => (r.rest, { r with rest := [] })

def remaining (r : Reader) : ℕ := if r.ok then r.rest.length else 0

def restStr : Read (List UInt8) := do
  let r ← current
  fixedStr r.remaining

/-- The payload was fully consumed and nothing overran. -/
def done (r : Reader) : Bool := r.ok && r.rest.isEmpty

end Reader

/-- Runs a payload reader; its result counts only if it consumed the payload exactly. -/
def decodeWith {α : Type} (rd : Read α) (payload : List UInt8) : Option α :=
  let (a, r) := rd ⟨payload, true⟩
  if r.done then some a else none

/-! ### What was written is read back -/

namespace Reader

variable {α β : Type}

lemma bind_apply (x : Read α) (f : α → Read β) (r : Reader) :
    (x >>= f) r = f (x r).1 (x r).2 := rfl

lemma pure_apply (a : α) (r : Reader) : (pure a : Read α) r = (a, r) := rfl

lemma current_apply (r : Reader) : current r = (r, r) := rfl

lemma restBytes_apply (r : Reader) : restBytes r = (r.rest, { r with rest := [] }) := rfl

lemma take_apply (short : α) (f : List UInt8 → α) (p l : List UInt8) :
    take p.length short f ⟨p ++ l, true⟩ = (f p, ⟨l, true⟩) := by
  simp [take, need, bind_apply]

lemma u8_apply (b : UInt8) (l : List UInt8) :
    u8 ⟨Writer.u8 b ++ l, true⟩ = (b, ⟨l, true⟩) :=
  take_apply 0 (·.headD 0) [b] l

lemma u16_apply (v : UInt16) (l : List UInt8) :
    u16 ⟨Writer.u16 v ++ l, true⟩ = (v, ⟨l, true⟩) := by
  simp only [u16, Writer.u16, List.append_assoc, bind_apply, u8_apply, pure_apply, Prod.mk.injEq,
    and_true]
  apply UInt16.toNat_inj.mp
  have := v.toNat_lt
  rw [toNat_or16]
  simp [Nat.shiftRight_eq_div_pow]; omega

lemma u32_apply (v : UInt32) (l : List UInt8) :
    u32 ⟨Writer.u32 v ++ l, true⟩ = (v, ⟨l, true⟩) := by
  simp only [u32, Writer.u32, List.append_assoc, bind_apply, u16_apply, pure_apply, Prod.mk.injEq,
    and_true]
  apply UInt32.toNat_inj.mp
  have := v.toNat_lt
  rw [toNat_or32]
  simp [Nat.shiftRight_eq_div_pow]; omega

lemma i32_apply (v : Int32) (l : List UInt8) :
    i32 ⟨Writer.i32 v ++ l, true⟩ = (v, ⟨l, true⟩) := by
  simp [i32, Writer.i32, bind_apply, u32_apply, pure_apply]

lemma skip_apply (p l : List UInt8) : skip p.length ⟨p ++ l, true⟩ = ((), ⟨l, true⟩) :=
  take_apply () (fun _ => ()) p l

end Reader

/-! ### MessageBuilder -/

/-- A complete framed message: the header with the payload length patched in, then the
payload. -/
def message (type : MsgType) (flags : UInt8) (payload : List UInt8) : List UInt8 :=
  Writer.u16 kMagic ++ Writer.u8 type.raw ++ Writer.u8 flags
    ++ Writer.u32 (UInt32.ofNat payload.length) ++ payload

@[simp] lemma length_message (type : MsgType) (flags : UInt8) (payload : List UInt8) :
    (message type flags payload).length = kHeaderSize + payload.length := by
  simp [message, kHeaderSize]; omega

@[simp] lemma drop_message (type : MsgType) (flags : UInt8) (payload : List UInt8) :
    (message type flags payload).drop kHeaderSize = payload :=
  List.drop_left' rfl

lemma message_eq (type : MsgType) (flags : UInt8) (payload : List UInt8) :
    message type flags payload = kMagicByte0 :: kMagicByte1 :: type.raw :: flags ::
      (toLe 4 (payload.length % 2 ^ 32) ++ payload) := by
  simp only [message, Writer.u32_eq_toLe, UInt32.toNat_ofNat']
  rfl

end Digitiz.Wire
