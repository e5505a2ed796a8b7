import Digitiz.Codec
import Digitiz.Messages

/-!
The twelve messages.

Each message is put together from the fields of its layout, in the order its payload is written
and read; what holds of the fields then holds of it. Three messages end in whatever is left of the
payload, and one in as many monitors as a byte of it says.
-/

namespace Digitiz

open Digitiz.Wire Digitiz.Wire.Codec

/-! ### Messages of a fixed size -/

def Hello.codec : Codec Hello :=
  (u16.pair ((u16.ignored 0).pair (i32.pair (i32.pair (u32.pair (fixedStr kDeviceNameBytes)))))).map
    (fun ⟨protoVer, _, screenW, screenH, density, device⟩ =>
      { protoVer, screenW, screenH, density, device })
    fun m => ⟨m.protoVer, (), m.screenW, m.screenH, m.density, m.device⟩

lemma Hello.lawful : Hello.codec.Lawful :=
  (lawful_u16.pair ((lawful_u16.ignored trivial rfl).pair (lawful_i32.pair (lawful_i32.pair
    (lawful_u32.pair (lawful_fixedStr _)))))).map (fun _ => rfl) fun _ => rfl

def Monitor.codec : Codec Monitor :=
  (i32.pair (i32.pair (i32.pair (i32.pair (u32.pair (boolean.pair (skip 3))))))).map
    (fun ⟨x, y, w, h, dpi, primary, _⟩ => { x, y, w, h, dpi, primary })
    fun m => ⟨m.x, m.y, m.w, m.h, m.dpi, m.primary, ()⟩

lemma Monitor.lawful : Monitor.codec.Lawful :=
  (lawful_i32.pair (lawful_i32.pair (lawful_i32.pair (lawful_i32.pair (lawful_u32.pair
    (lawful_boolean.pair (lawful_skip 3))))))).map (fun _ => rfl) fun _ => rfl

def Ping.codec : Codec Ping := u64.map (fun tSendUs => { tSendUs }) fun m => m.tSendUs

lemma Ping.lawful : Ping.codec.Lawful := lawful_u64.map (fun _ => rfl) fun _ => rfl

def Pong.codec : Codec Pong :=
  (u64.pair u64).map (fun ⟨tSendUs, tReplyUs⟩ => { tSendUs, tReplyUs })
    fun m => ⟨m.tSendUs, m.tReplyUs⟩

lemma Pong.lawful : Pong.codec.Lawful :=
  (lawful_u64.pair lawful_u64).map (fun _ => rfl) fun _ => rfl

def Pointer.codec : Codec Pointer :=
  (u64.pair (i32.pair (i32.pair (u8.pair (u8.pair (u8.pair (u8.pair u32))))))).map
    (fun ⟨tUs, x, y, action, button, pointerId, flags, pressure⟩ =>
      { tUs, x, y, action := ⟨action⟩, button := ⟨button⟩, pointerId, flags, pressure })
    fun m => ⟨m.tUs, m.x, m.y, m.action.raw, m.button.raw, m.pointerId, m.flags, m.pressure⟩

lemma Pointer.lawful : Pointer.codec.Lawful :=
  (lawful_u64.pair (lawful_i32.pair (lawful_i32.pair (lawful_u8.pair (lawful_u8.pair
    (lawful_u8.pair (lawful_u8.pair lawful_u32))))))).map (fun _ => rfl) fun _ => rfl

def HostState.codec : Codec HostState :=
  (boolean.pair (boolean.pair (skip 2))).map (fun ⟨enabled, injecting, _⟩ => { enabled, injecting })
    fun m => ⟨m.enabled, m.injecting, ()⟩

lemma HostState.lawful : HostState.codec.Lawful :=
  (lawful_boolean.pair (lawful_boolean.pair (lawful_skip 2))).map (fun _ => rfl) fun _ => rfl

def ActiveWindow.codec : Codec ActiveWindow :=
  (u32.pair (fixedStr kProcessNameBytes)).map (fun ⟨pid, process⟩ => { pid, process })
    fun m => ⟨m.pid, m.process⟩

lemma ActiveWindow.lawful : ActiveWindow.codec.Lawful :=
  (lawful_u32.pair (lawful_fixedStr _)).map (fun _ => rfl) fun _ => rfl

def ViewportReq.codec : Codec ViewportReq :=
  (i32.pair (i32.pair (i32.pair (i32.pair (u16.pair (u16.pair (u8.pair (u8.pair
    (u8.pair u8))))))))).map
    (fun ⟨x, y, w, h, outW, outH, fps, format, tile, flags⟩ =>
      { x, y, w, h, outW, outH, fps, format := ⟨format⟩, tile, flags })
    fun m => ⟨m.x, m.y, m.w, m.h, m.outW, m.outH, m.fps, m.format.raw, m.tile, m.flags⟩

lemma ViewportReq.lawful : ViewportReq.codec.Lawful :=
  (lawful_i32.pair (lawful_i32.pair (lawful_i32.pair (lawful_i32.pair (lawful_u16.pair
    (lawful_u16.pair (lawful_u8.pair (lawful_u8.pair (lawful_u8.pair lawful_u8))))))))).map
    (fun _ => rfl) fun _ => rfl

def Key.codec : Codec Key :=
  (u8.pair (u8.pair ((skip 2).pair (fixedStr kKeyNameBytes)))).map
    (fun ⟨modifiers, action, _, key⟩ => { modifiers, action := ⟨action⟩, key })
    fun m => ⟨m.modifiers, m.action.raw, (), m.key⟩

lemma Key.lawful : Key.codec.Lawful :=
  (lawful_u8.pair (lawful_u8.pair ((lawful_skip 2).pair (lawful_fixedStr _)))).map (fun _ => rfl)
    fun _ => rfl

/-! ### Tails -/

/-- As many indices as there is room for. -/
def tilesTail : Tail (List UInt16) where
  write ts := ts.flatMap Writer.u16
  read := do
    let r ← Reader.current
    FrameInfo.readTiles r.remaining
  Takes l := ∃ k, l.length = 2 * k
  parts l := [.kept l.length]
  Good _ := True

/-- Every even number of bytes is the bytes of some indices. -/
lemma exists_tiles (k : ℕ) (l : List UInt8) (h : l.length = 2 * k) :
    ∃ ts : List UInt16, ts.flatMap Writer.u16 = l ∧ ts.length = k := by
  induction k generalizing l with
  | zero => exact ⟨[], (List.length_eq_zero_iff.mp h).symm, rfl⟩
  | succ k ih =>
    obtain ⟨p, q, rfl, hp⟩ : ∃ p q, l = p ++ q ∧ p.length = 2 :=
      ⟨_, _, (List.take_append_drop 2 l).symm, List.length_take_of_le (by omega)⟩
    rw [List.length_append] at h
    obtain ⟨ts, hts, hlen⟩ := ih q (by omega)
    obtain ⟨t, -, -, hw⟩ := lawful_u16.read_bytes p [] hp
    refine ⟨t :: ts, ?_, by rw [List.length_cons, hlen]⟩
    rw [List.flatMap_cons, hts, show Writer.u16 t = canon u16.parts p from hw]
    exact congrArg (· ++ q) (canon_singleton (.kept 2) hp)

lemma tilesTail_lawful : tilesTail.Lawful := by
  have happly : ∀ ts l, l.length < 2 →
      tilesTail.read ⟨ts.flatMap Writer.u16 ++ l, true⟩ = (ts, ⟨l, true⟩) := by
    intro ts l hl
    simp only [tilesTail, Reader.bind_apply, Reader.current_apply, Reader.remaining, if_true]
    refine FrameInfo.readTiles_append ts l _ hl ?_
    rw [List.length_append, FrameInfo.length_tiles]
    omega
  refine ⟨fun ts _ => ?_, fun l h => ?_, fun l h => ?_, fun r h => ?_⟩
  · have := happly ts [] (by decide)
    rwa [List.append_nil] at this
  · obtain ⟨k, hk⟩ := h
    obtain ⟨ts, rfl, -⟩ := exists_tiles k l hk
    have := happly ts [] (by decide)
    rw [List.append_nil] at this
    exact ⟨ts, trivial, this, (canon_singleton (.kept _) rfl).symm⟩
  · -- one byte is left over
    have hodd : l.length = 2 * (l.length / 2) + 1 := by
      rcases Nat.even_or_odd' l.length with ⟨k, hk | hk⟩
      · exact absurd ⟨k, hk⟩ h
      · omega
    obtain ⟨ts, hts, -⟩ := exists_tiles (l.length / 2) (l.take (2 * (l.length / 2)))
      (List.length_take_of_le (by omega))
    have := happly ts (l.drop (2 * (l.length / 2))) (by rw [List.length_drop]; omega)
    rw [hts, List.take_append_drop] at this
    rw [this, Reader.done, Bool.true_and, List.isEmpty_eq_false_iff, ← List.length_pos_iff,
      List.length_drop]
    omega
  · simp only [tilesTail, Reader.bind_apply, Reader.current_apply, Reader.remaining, h]
    exact h

def bytesTail : Tail (List UInt8) where
  write b := b
  read := Reader.restBytes
  Takes _ := True
  parts l := [.kept l.length]
  Good _ := True

lemma bytesTail_lawful : bytesTail.Lawful :=
  ⟨fun _ _ => rfl, fun l _ => ⟨l, trivial, rfl, (canon_singleton (.kept l.length) rfl).symm⟩,
    fun _ h => absurd trivial h, fun _ h => h⟩

def textTail : Tail (List UInt8) where
  write := Writer.rawStr
  read := Reader.restStr
  Takes _ := True
  parts l := [.rest l.length]
  Good s := 0 ∉ s

lemma restStr_apply (l : List UInt8) :
    Reader.restStr ⟨l, true⟩ = (l.takeWhile (· ≠ 0), ⟨[], true⟩) := by
  have h := Reader.take_apply [] (fun p : List UInt8 => p.takeWhile (· ≠ 0)) l []
  rw [List.append_nil] at h
  simp only [Reader.restStr, Reader.bind_apply, Reader.current_apply, Reader.remaining, if_true]
  exact h

lemma textTail_lawful : textTail.Lawful := by
  refine ⟨fun s hs => ?_, fun l _ => ?_, fun _ h => absurd trivial h, fun r h => ?_⟩
  · have h := takeWhile_fixed hs 0
    rw [List.replicate_zero, List.append_nil] at h
    refine (restStr_apply s).trans ?_
    rw [h]
  · exact ⟨l.takeWhile (· ≠ 0), not_mem_takeWhile l, restStr_apply l,
      (canon_singleton (.rest l.length) rfl).symm⟩
  · exact take_short (.inl h)

/-- So many monitors. -/
def monitorList (n : ℕ) : Codec (List Monitor) where
  write ms := ms.flatMap Monitor.payload
  read := HelloAck.readMonitors n
  parts := (List.replicate n Monitor.codec.parts).flatten
  Good ms := ms.length = n

lemma Monitor.payload_eq (m : Monitor) : m.payload = Monitor.codec.write m := by
  simp only [Monitor.payload, List.append_assoc]
  rfl

lemma Monitor.read_eq : Monitor.read = Monitor.codec.read := by
  simp only [Monitor.read, Monitor.codec, Codec.map, Codec.pair, Codec.bind_assoc, Codec.pure_bind]
  rfl

lemma Monitor.good (m : Monitor) : Monitor.codec.Good m := by
  simp [Monitor.codec, Codec.map, Codec.pair, i32, u32, Codec.boolean, Codec.skip]

lemma monitorList_write (n : ℕ) (m : Monitor) (ms : List Monitor) :
    (monitorList (n + 1)).write (m :: ms) = (Monitor.codec.pair (monitorList n)).write (m, ms) := by
  simp only [monitorList, List.flatMap_cons, Monitor.payload_eq, Codec.pair]

lemma readMonitors_succ (n : ℕ) (l : List UInt8) :
    HelloAck.readMonitors (n + 1) ⟨l, true⟩ =
      ((((Monitor.codec.pair (monitorList n)).read ⟨l, true⟩).1.1 ::
        ((Monitor.codec.pair (monitorList n)).read ⟨l, true⟩).1.2),
        ((Monitor.codec.pair (monitorList n)).read ⟨l, true⟩).2) := by
  simp only [HelloAck.readMonitors, Monitor.read_eq, Codec.pair, Reader.bind_apply,
    Reader.pure_apply, monitorList, if_true]

lemma monitorList_lawful (n : ℕ) : (monitorList n).Lawful := by
  induction n with
  | zero =>
    refine ⟨fun ms l h => ?_, fun p l h => ?_, fun r h => ?_⟩
    · obtain rfl := List.length_eq_zero_iff.mp h
      rfl
    · obtain rfl := List.length_eq_zero_iff.mp h
      exact ⟨[], rfl, rfl, rfl⟩
    · exact h.resolve_right (Nat.not_lt_zero _)
  | succ n ih =>
    have hp := Monitor.lawful.pair ih
    have hparts : (monitorList (n + 1)).parts = (Monitor.codec.pair (monitorList n)).parts := by
      rw [monitorList, List.replicate_succ, List.flatten_cons]
      rfl
    refine ⟨fun ms l h => ?_, fun p l h => ?_, fun r h => ?_⟩
    · obtain ⟨m, ms, rfl⟩ := List.exists_cons_of_length_eq_add_one h
      have hms : (monitorList n).Good ms := Nat.succ.inj h
      rw [monitorList_write]
      refine (readMonitors_succ n _).trans ?_
      rw [hp.read_write (m, ms) l ⟨Monitor.good m, hms⟩]
    · rw [hparts] at h ⊢
      obtain ⟨⟨m, ms⟩, ⟨-, hms⟩, hread, hwrite⟩ := hp.read_bytes p l h
      refine ⟨m :: ms, ?_, ?_, ?_⟩
      · exact congrArg (· + 1) hms
      · refine (readMonitors_succ n _).trans ?_
        rw [hread]
      · rw [monitorList_write, hwrite]
    · rw [hparts] at h
      obtain ⟨rest, ok⟩ := r
      cases ok with
      | false => rfl
      | true =>
        have := hp.read_short _ h
        rw [show (monitorList (n + 1)).read ⟨rest, true⟩ = _ from readMonitors_succ n rest]
        exact this

lemma monitorList_size (n : ℕ) : size (monitorList n).parts = 24 * n := by
  induction n with
  | zero => rfl
  | succ n ih =>
    have hone : size Monitor.codec.parts = 24 := by decide
    rw [monitorList, List.replicate_succ, List.flatten_cons, size_append, hone]
    change 24 + size (monitorList n).parts = _
    rw [ih]
    omega

/-! ### What stands before a tail -/

def HelloAck.header : Codec (UInt16 × UInt8 × UInt8 × Int32 × Int32 × Int32 × Int32 × Unit) :=
  u16.pair (u8.pair (u8.pair (i32.pair (i32.pair (i32.pair (i32.pair (u32.ignored 0)))))))

lemma HelloAck.header_lawful : HelloAck.header.Lawful :=
  lawful_u16.pair (lawful_u8.pair (lawful_u8.pair (lawful_i32.pair (lawful_i32.pair
    (lawful_i32.pair (lawful_i32.pair (lawful_u32.ignored trivial rfl)))))))

def FrameInfo.header : Codec (UInt32 × Int32 × Int32 × Int32 × Int32 × UInt16 × UInt16 × UInt8 ×
    UInt8 × Unit × UInt32 × UInt32) :=
  u32.pair (i32.pair (i32.pair (i32.pair (i32.pair (u16.pair (u16.pair (u8.pair (u8.pair
    ((skip 2).pair (u32.pair u32))))))))))

lemma FrameInfo.header_lawful : FrameInfo.header.Lawful :=
  lawful_u32.pair (lawful_i32.pair (lawful_i32.pair (lawful_i32.pair (lawful_i32.pair
    (lawful_u16.pair (lawful_u16.pair (lawful_u8.pair (lawful_u8.pair ((lawful_skip 2).pair
      (lawful_u32.pair lawful_u32))))))))))

/-- The number of monitors is the fourth byte. -/
lemma HelloAck.count_eq {p l : List UInt8} (hp : p.length = 24) :
    (HelloAck.header.read ⟨p ++ l, true⟩).1.2.2.1 = (p ++ l).getD 3 0 := by
  obtain ⟨b0, b1, b2, b3, t, rfl⟩ : ∃ b0 b1 b2 b3 t, p = b0 :: b1 :: b2 :: b3 :: t := by
    match p, hp with
    | b0 :: b1 :: b2 :: b3 :: t, _ => exact ⟨b0, b1, b2, b3, t, rfl⟩
  obtain ⟨ver, -, hver, -⟩ := lawful_u16.read_bytes [b0, b1] (b2 :: b3 :: (t ++ l)) rfl
  have hos := lawful_u8.read_write b2 (b3 :: (t ++ l)) trivial
  have hcount := lawful_u8.read_write b3 (t ++ l) trivial
  change u16.read ⟨b0 :: b1 :: b2 :: b3 :: (t ++ l), true⟩ = _ at hver
  change u8.read ⟨b2 :: b3 :: (t ++ l), true⟩ = _ at hos
  change u8.read ⟨b3 :: (t ++ l), true⟩ = _ at hcount
  simp only [HelloAck.header, Codec.pair, Reader.bind_apply, Reader.pure_apply, List.cons_append,
    hver, hos, hcount]
  rfl

/-! ### Every message -/

theorem Hello.strict : Strict Hello.payload Hello.decode (fun m => Fits 64 m.device)
    (fun p => p.length = 80)
    fun _ => [.kept 2, .reserved 2, .kept 4, .kept 4, .kept 4, .text 64] := by
  have hsize : size Hello.codec.parts = 80 := by decide
  refine (Hello.lawful.strict Hello.payload Hello.read (fun m => ?_) ?_).congr (fun m => ?_)
    (fun p => by rw [hsize]) fun _ => rfl
  · simp only [Hello.payload, List.append_assoc]
    rfl
  · simp only [Hello.read, Hello.codec, Codec.map, Codec.pair, Codec.ignored, Codec.bind_assoc,
      Codec.pure_bind]
    rfl
  · simp [Hello.codec, Codec.map, Codec.pair, Codec.ignored, u16, u32, i32, fixedStr,
      kDeviceNameBytes]

theorem HelloAck.strict : Strict HelloAck.payload HelloAck.decode (fun m => m.monitors.length ≤ 255)
    (fun p => p.length = 24 + 24 * (p.getD 3 0).toNat)
    fun p =>
      ([.kept 2, .kept 1, .kept 1, .kept 4, .kept 4, .kept 4, .kept 4, .reserved 4] : List Part) ++
        (List.replicate (p.getD 3 0).toNat
          [.kept 4, .kept 4, .kept 4, .kept 4, .kept 4, .boolean, .reserved 3]).flatten := by
  refine HelloAck.header_lawful.strict_tail (t := fun v => (monitorList v.2.2.1.toNat).tail)
    (f := fun v ms => ⟨v.1, ⟨v.2.1⟩, v.2.2.2.1, v.2.2.2.2.1, v.2.2.2.2.2.1, v.2.2.2.2.2.2.1, ms⟩)
    (g := fun m => (⟨m.protoVer, m.hostOs.raw, UInt8.ofNat m.monitors.length, m.vx, m.vy, m.vw,
      m.vh, ()⟩, m.monitors))
    (fun v => (monitorList_lawful _).tail) HelloAck.payload HelloAck.read (fun _ => rfl)
    (fun v ms _ hms => ?_) (fun m => ?_) ?_
    (fun m hm => ?_) (fun p hp => ?_) fun p l v r hp hr => ?_
  · have hlen : ms.length = v.2.2.1.toNat := hms
    have hlt := v.2.2.1.toNat_lt
    refine ⟨by dsimp only; omega, ?_⟩
    rw [hlen, UInt8.ofNat_toNat]
  · simp only [HelloAck.payload, List.append_assoc]
    rfl
  · simp only [HelloAck.read, HelloAck.header, Codec.pair, Codec.ignored, Codec.bind_assoc,
      Codec.pure_bind]
    rfl
  · refine ⟨by simp [HelloAck.header, Codec.pair, Codec.ignored, u16, u8, i32], ?_⟩
    change m.monitors.length = (UInt8.ofNat m.monitors.length).toNat
    rw [UInt8.toNat_ofNat']
    omega
  · change 24 ≤ p.length
    omega
  · have hcount := HelloAck.count_eq (p := p) (l := l) hp
    rw [hr] at hcount
    refine ⟨?_, by rw [← hcount]; rfl⟩
    have hlen : p.length = 24 := hp
    change _ ↔ l.length = size (monitorList v.2.2.1.toNat).parts
    rw [monitorList_size, hcount, List.length_append, hlen]
    omega

theorem Ping.strict : Strict Ping.payload Ping.decode (fun _ => True) (fun p => p.length = 8)
    fun _ => [.kept 8] :=
  (Ping.lawful.strict Ping.payload Ping.read (fun _ => rfl) rfl).congr (fun _ => Iff.rfl)
    (fun _ => Iff.rfl) fun _ => rfl

theorem Pong.strict : Strict Pong.payload Pong.decode (fun _ => True) (fun p => p.length = 16)
    fun _ => [.kept 8, .kept 8] := by
  have hsize : size Pong.codec.parts = 16 := by decide
  refine (Pong.lawful.strict Pong.payload Pong.read (fun _ => rfl) ?_).congr (fun m => ?_)
    (fun p => by rw [hsize]) fun _ => rfl
  · simp only [Pong.read, Pong.codec, Codec.map, Codec.pair, Codec.bind_assoc, Codec.pure_bind]
    rfl
  · simp [Pong.codec, Codec.map, Codec.pair, u64]

theorem Pointer.strict : Strict Pointer.payload Pointer.decode (fun _ => True)
    (fun p => p.length = 24)
    fun _ => [.kept 8, .kept 4, .kept 4, .kept 1, .kept 1, .kept 1, .kept 1, .kept 4] := by
  have hsize : size Pointer.codec.parts = 24 := by decide
  refine (Pointer.lawful.strict Pointer.payload Pointer.read (fun m => ?_) ?_).congr (fun m => ?_)
    (fun p => by rw [hsize]) fun _ => rfl
  · simp only [Pointer.payload, List.append_assoc]
    rfl
  · simp only [Pointer.read, Pointer.codec, Codec.map, Codec.pair, Codec.bind_assoc,
      Codec.pure_bind]
    rfl
  · simp [Pointer.codec, Codec.map, Codec.pair, u64, i32, u8, u32]

theorem HostState.strict : Strict HostState.payload HostState.decode (fun _ => True)
    (fun p => p.length = 4) fun _ => [.boolean, .boolean, .reserved 2] := by
  have hsize : size HostState.codec.parts = 4 := by decide
  refine (HostState.lawful.strict HostState.payload HostState.read (fun m => ?_) ?_).congr
    (fun m => ?_) (fun p => by rw [hsize]) fun _ => rfl
  · simp only [HostState.payload, List.append_assoc]
    rfl
  · simp only [HostState.read, HostState.codec, Codec.map, Codec.pair, Codec.bind_assoc,
      Codec.pure_bind]
    rfl
  · simp [HostState.codec, Codec.map, Codec.pair, Codec.boolean, Codec.skip]

theorem ActiveWindow.strict : Strict ActiveWindow.payload ActiveWindow.decode
    (fun m => Fits 64 m.process) (fun p => p.length = 68) fun _ => [.kept 4, .text 64] := by
  have hsize : size ActiveWindow.codec.parts = 68 := by decide
  refine (ActiveWindow.lawful.strict ActiveWindow.payload ActiveWindow.read (fun _ => rfl) ?_).congr
    (fun m => ?_) (fun p => by rw [hsize]) fun _ => rfl
  · simp only [ActiveWindow.read, ActiveWindow.codec, Codec.map, Codec.pair, Codec.bind_assoc,
      Codec.pure_bind]
    rfl
  · simp [ActiveWindow.codec, Codec.map, Codec.pair, u32, fixedStr, kProcessNameBytes]

theorem ViewportReq.strict : Strict ViewportReq.payload ViewportReq.decode (fun _ => True)
    (fun p => p.length = 24)
    fun _ => [.kept 4, .kept 4, .kept 4, .kept 4, .kept 2, .kept 2, .kept 1, .kept 1, .kept 1,
      .kept 1] := by
  have hsize : size ViewportReq.codec.parts = 24 := by decide
  refine (ViewportReq.lawful.strict ViewportReq.payload ViewportReq.read (fun m => ?_) ?_).congr
    (fun m => ?_) (fun p => by rw [hsize]) fun _ => rfl
  · simp only [ViewportReq.payload, List.append_assoc]
    rfl
  · simp only [ViewportReq.read, ViewportReq.codec, Codec.map, Codec.pair, Codec.bind_assoc,
      Codec.pure_bind]
    rfl
  · simp [ViewportReq.codec, Codec.map, Codec.pair, i32, u16, u8]

theorem Key.strict : Strict Key.payload Key.decode (fun m => Fits 16 m.key)
    (fun p => p.length = 20) fun _ => [.kept 1, .kept 1, .reserved 2, .text 16] := by
  have hsize : size Key.codec.parts = 20 := by decide
  refine (Key.lawful.strict Key.payload Key.read (fun m => ?_) ?_).congr (fun m => ?_)
    (fun p => by rw [hsize]) fun _ => rfl
  · simp only [Key.payload, List.append_assoc]
    rfl
  · simp only [Key.read, Key.codec, Codec.map, Codec.pair, Codec.bind_assoc, Codec.pure_bind]
    rfl
  · simp [Key.codec, Codec.map, Codec.pair, u8, Codec.skip, fixedStr, kKeyNameBytes]

theorem FrameInfo.strict : Strict FrameInfo.payload FrameInfo.decode (fun _ => True)
    (fun p => ∃ k, p.length = 36 + 2 * k)
    fun p => [.kept 4, .kept 4, .kept 4, .kept 4, .kept 4, .kept 2, .kept 2, .kept 1, .kept 1,
      .reserved 2, .kept 4, .kept 4, .kept (p.length - 36)] := by
  refine FrameInfo.header_lawful.strict_tail (t := fun _ => tilesTail)
    (f := fun v ts => ⟨v.1, v.2.1, v.2.2.1, v.2.2.2.1, v.2.2.2.2.1, v.2.2.2.2.2.1,
      v.2.2.2.2.2.2.1, ⟨v.2.2.2.2.2.2.2.1⟩, v.2.2.2.2.2.2.2.2.1, v.2.2.2.2.2.2.2.2.2.2.1,
      v.2.2.2.2.2.2.2.2.2.2.2, ts⟩)
    (g := fun m => (⟨m.seq, m.x, m.y, m.w, m.h, m.outW, m.outH, m.format.raw, m.tile, (),
      m.rawBytes, m.payloadBytes⟩, m.tiles))
    (fun _ => tilesTail_lawful) FrameInfo.payload FrameInfo.read (fun _ => rfl)
    (fun v ts _ _ => ⟨trivial, rfl⟩) (fun m => ?_) ?_ (fun m _ => ?_) (fun p hp => ?_)
    fun p l v r hp _ => ?_
  · simp only [FrameInfo.payload, List.append_assoc]
    rfl
  · simp only [FrameInfo.read, FrameInfo.header, Codec.pair, Codec.bind_assoc, Codec.pure_bind]
    rfl
  · simp [FrameInfo.header, Codec.pair, u32, i32, u16, u8, Codec.skip, tilesTail]
  · change 36 ≤ p.length
    obtain ⟨k, hk⟩ := hp
    omega
  · have hlen : p.length = 36 := hp
    rw [List.length_append, hlen, Nat.add_sub_cancel_left]
    refine ⟨exists_congr fun k => ?_, rfl⟩
    omega

theorem FrameData.strict : Strict FrameData.payload FrameData.decode (fun _ => True)
    (fun p => 8 ≤ p.length) fun p => [.kept 4, .kept 4, .kept (p.length - 8)] := by
  refine (lawful_u32.pair lawful_u32).strict_tail (t := fun _ => bytesTail)
    (f := fun v b => ⟨v.1, v.2, b⟩) (g := fun m => ((m.seq, m.offset), m.bytes))
    (fun _ => bytesTail_lawful) FrameData.payload FrameData.read (fun _ => rfl)
    (fun v b _ _ => ⟨trivial, rfl⟩) (fun m => ?_) ?_ (fun m _ => ?_) (fun p hp => hp)
    fun p l v r hp _ => ?_
  · simp only [FrameData.payload, Codec.pair, u32, bytesTail]
  · simp only [FrameData.read, Codec.pair, Codec.bind_assoc, Codec.pure_bind]
    rfl
  · simp [Codec.pair, u32, bytesTail]
  · have hlen : p.length = 8 := hp
    rw [List.length_append, hlen, Nat.add_sub_cancel_left]
    exact ⟨iff_of_true (Nat.le_add_right 8 _) trivial, rfl⟩

theorem LogMessage.strict : Strict LogMessage.payload LogMessage.decode (fun m => 0 ∉ m.text)
    (fun p => 4 ≤ p.length) fun p => [.kept 1, .reserved 3, .rest (p.length - 4)] := by
  refine (lawful_u8.pair (lawful_skip 3)).strict_tail (t := fun _ => textTail)
    (f := fun v s => ⟨⟨v.1⟩, s⟩) (g := fun m => ((m.level.raw, ()), m.text))
    (fun _ => textTail_lawful) LogMessage.payload LogMessage.read (fun _ => rfl)
    (fun v s _ hs => ⟨?_, rfl⟩) (fun m => ?_) ?_ (fun m hm => ?_) (fun p hp => hp)
    fun p l v r hp _ => ?_
  · exact hs
  · simp only [LogMessage.payload, Codec.pair, u8, Codec.skip, textTail]
  · simp only [LogMessage.read, Codec.pair, Codec.bind_assoc, Codec.pure_bind]
    rfl
  · exact ⟨⟨trivial, trivial⟩, hm⟩
  · have hlen : p.length = 4 := hp
    rw [List.length_append, hlen, Nat.add_sub_cancel_left]
    exact ⟨iff_of_true (Nat.le_add_right 4 _) trivial, rfl⟩

/-- The kinds of messages that are encoded and decoded. -/
inductive Kind
  | hello | helloAck | ping | pong | pointer | hostState | activeWindow | viewportReq | frameInfo
  | frameData | key | log
  deriving DecidableEq, Repr

namespace Kind

@[reducible] def Msg : Kind → Type
  | hello => Hello
  | helloAck => HelloAck
  | ping => Ping
  | pong => Pong
  | pointer => Pointer
  | hostState => HostState
  | activeWindow => ActiveWindow
  | viewportReq => ViewportReq
  | frameInfo => FrameInfo
  | frameData => FrameData
  | key => Key
  | log => LogMessage

def encode : (k : Kind) → k.Msg → List UInt8
  | hello => Hello.encode
  | helloAck => HelloAck.encode
  | ping => Ping.encode
  | pong => Pong.encode
  | pointer => Pointer.encode
  | hostState => HostState.encode
  | activeWindow => ActiveWindow.encode
  | viewportReq => ViewportReq.encode
  | frameInfo => FrameInfo.encode
  | frameData => FrameData.encode
  | key => Key.encode
  | log => LogMessage.encode

def decode : (k : Kind) → List UInt8 → Option k.Msg
  | hello => Hello.decode
  | helloAck => HelloAck.decode
  | ping => Ping.decode
  | pong => Pong.decode
  | pointer => Pointer.decode
  | hostState => HostState.decode
  | activeWindow => ActiveWindow.decode
  | viewportReq => ViewportReq.decode
  | frameInfo => FrameInfo.decode
  | frameData => FrameData.decode
  | key => Key.decode
  | log => LogMessage.decode

/-- The payload of a message. -/
def payload (k : Kind) (m : k.Msg) : List UInt8 := (k.encode m).drop kHeaderSize

/-- Strings fit their fields and hold no NUL, and the monitors can be counted in a byte. -/
def Plain : (k : Kind) → k.Msg → Prop
  | hello, m => Fits 64 m.device
  | helloAck, m => m.monitors.length ≤ 255
  | activeWindow, m => Fits 64 m.process
  | key, m => Fits 16 m.key
  | log, m => 0 ∉ m.text
  | ping, _ | pong, _ | pointer, _ | hostState, _ | viewportReq, _ | frameInfo, _ | frameData, _ =>
    True

/-- The payload has the length of the layout. -/
def Accepts : Kind → List UInt8 → Prop
  | hello, p => p.length = 80
  | helloAck, p => p.length = 24 + 24 * (p.getD 3 0).toNat
  | ping, p => p.length = 8
  | pong, p => p.length = 16
  | pointer, p => p.length = 24
  | hostState, p => p.length = 4
  | activeWindow, p => p.length = 68
  | viewportReq, p => p.length = 24
  | frameInfo, p => ∃ k, p.length = 36 + 2 * k
  | frameData, p => 8 ≤ p.length
  | key, p => p.length = 20
  | log, p => 4 ≤ p.length

/-- The layout of a payload. -/
def parts : Kind → List UInt8 → List Part
  | hello, _ => [.kept 2, .reserved 2, .kept 4, .kept 4, .kept 4, .text 64]
  | helloAck, p =>
    [.kept 2, .kept 1, .kept 1, .kept 4, .kept 4, .kept 4, .kept 4, .reserved 4] ++
      (List.replicate (p.getD 3 0).toNat
        [.kept 4, .kept 4, .kept 4, .kept 4, .kept 4, .boolean, .reserved 3]).flatten
  | ping, _ => [.kept 8]
  | pong, _ => [.kept 8, .kept 8]
  | pointer, _ => [.kept 8, .kept 4, .kept 4, .kept 1, .kept 1, .kept 1, .kept 1, .kept 4]
  | hostState, _ => [.boolean, .boolean, .reserved 2]
  | activeWindow, _ => [.kept 4, .text 64]
  | viewportReq, _ =>
    [.kept 4, .kept 4, .kept 4, .kept 4, .kept 2, .kept 2, .kept 1, .kept 1, .kept 1, .kept 1]
  | frameInfo, p =>
    [.kept 4, .kept 4, .kept 4, .kept 4, .kept 4, .kept 2, .kept 2, .kept 1, .kept 1, .reserved 2,
      .kept 4, .kept 4, .kept (p.length - 36)]
  | frameData, p => [.kept 4, .kept 4, .kept (p.length - 8)]
  | key, _ => [.kept 1, .kept 1, .reserved 2, .text 16]
  | log, p => [.kept 1, .reserved 3, .rest (p.length - 4)]

lemma strict (k : Kind) : Strict k.payload k.decode k.Plain k.Accepts k.parts := by
  cases k with
  | hello => exact Hello.strict.of_message .hello
  | helloAck => exact HelloAck.strict.of_message .helloAck
  | ping => exact Ping.strict.of_message .ping
  | pong => exact Pong.strict.of_message .pong
  | pointer => exact Pointer.strict.of_message .pointer
  | hostState => exact HostState.strict.of_message .hostState
  | activeWindow => exact ActiveWindow.strict.of_message .activeWindow
  | viewportReq => exact ViewportReq.strict.of_message .viewportReq
  | frameInfo => exact FrameInfo.strict.of_message .frameInfo
  | frameData => exact FrameData.strict.of_message .frameData
  | key => exact Key.strict.of_message .key
  | log => exact LogMessage.strict.of_message .log

/-- **The message codec is lossless and strict.** What is encoded is decoded; the payloads taken
are those of the length of the layout; and what is decoded is encoded as the canonical form of its
payload, which decodes the same. -/
theorem codec_lossless_strict (k : Kind) :
    (∀ m, k.Plain m → k.decode (k.payload m) = some m) ∧
      (∀ p, (k.decode p).isSome = true ↔ k.Accepts p) ∧
      ∀ p m, k.decode p = some m →
        k.payload m = canon (k.parts p) p ∧ k.decode (k.payload m) = some m := by
  have h := k.strict
  refine ⟨h.lossless, fun p => ⟨fun hs => ?_, fun hp => ?_⟩, fun p m hm => ?_⟩
  · by_contra hp
    rw [h.refused p hp] at hs
    contradiction
  · obtain ⟨m, hm, -⟩ := h.accepted p hp
    rw [hm]
    rfl
  · by_cases hp : k.Accepts p
    · obtain ⟨m', hm', hplain, hcanon⟩ := h.accepted p hp
      obtain rfl : m = m' := Option.some.inj (hm.symm.trans hm')
      exact ⟨hcanon, h.lossless m hplain⟩
    · rw [h.refused p hp] at hm
      contradiction

/-- A device of two letters is read back, the field's padding gone. -/
theorem hello_of_two_letters :
    decode .hello (payload .hello ({ screenW := 1080, device := [112, 104] } : Hello))
      = some ({ screenW := 1080, device := [112, 104] } : Hello) :=
  (codec_lossless_strict .hello).1 _ ⟨by decide, by decide⟩

end Kind

end Digitiz
