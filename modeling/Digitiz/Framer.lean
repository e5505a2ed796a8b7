import Digitiz.Scan
import Digitiz.Wire

/-!
Recovering message boundaries from a byte stream.

The transport promises a reliable ordered byte stream and nothing more: one receive may hold
three messages or half of one. The framer keeps a buffer with a read cursor. Draining it walks
to the next magic, looks at the header behind it, and either gives a message out, or drops a
byte that turned out not to begin one, or stops because bytes are missing. The reference it is
proved against is a scanner that knows nothing of buffers and cursors.
-/

namespace Digitiz

open Digitiz.Wire Digitiz.Bytes

/-- What the framer gives out: a type byte, a flags byte and a payload. -/
structure Msg where
  type : MsgType
  flags : UInt8
  payload : List UInt8
  deriving DecidableEq, Repr

/-- The buffer, the cursor into it, and the count of bytes dropped. -/
structure Framer where
  buf : List UInt8
  read : ℕ
  resyncBytes : ℕ
  read_le : read ≤ buf.length

namespace Framer

def init : Framer := ⟨[], 0, 0, le_rfl⟩

def kCompactThreshold : ℕ := 64 * 1024

def buffered (f : Framer) : ℕ := f.buf.length - f.read

def byteAt (f : Framer) (i : ℕ) : UInt8 := f.buf.getD i 0

def u32At (f : Framer) (i : ℕ) : UInt32 :=
  (f.byteAt i).toUInt32 ||| (f.byteAt (i + 1)).toUInt32 <<< 8 |||
    (f.byteAt (i + 2)).toUInt32 <<< 16 ||| (f.byteAt (i + 3)).toUInt32 <<< 24

def push (f : Framer) (data : List UInt8) : Framer :=
  ⟨f.buf ++ data, f.read, f.resyncBytes, by
    have := f.read_le
    simp only [List.length_append]; omega⟩

def dropByte (f : Framer) (h : ¬ f.buffered < 1) : Framer :=
  ⟨f.buf, f.read + 1, f.resyncBytes + 1, by unfold buffered at h; omega⟩

/-- Moves the cursor over a message that was given out. -/
def advance (f : Framer) (n : ℕ) (h : ¬ f.buffered < n) : Framer :=
  ⟨f.buf, f.read + n, f.resyncBytes, by
    have := f.read_le
    unfold buffered at h; omega⟩

@[simp] lemma buffered_dropByte (f : Framer) (h : ¬ f.buffered < 1) :
    (f.dropByte h).buffered = f.buffered - 1 := by
  simp only [buffered, dropByte]; omega

@[simp] lemma buffered_advance (f : Framer) (n : ℕ) (h : ¬ f.buffered < n) :
    (f.advance n h).buffered = f.buffered - n := by
  simp only [buffered, advance]; omega

/-- Advances until the cursor could stand on a magic. False when more data is needed to
decide. -/
def seekMagic (f : Framer) : Bool × Framer :=
  if h1 : f.buffered < 1 then (false, f)
  else if f.byteAt f.read ≠ kMagicByte0 then seekMagic (f.dropByte h1)
  -- a `D` might yet be followed by an `I`
  else if f.buffered < 2 then (false, f)
  else if f.byteAt (f.read + 1) ≠ kMagicByte1 then seekMagic (f.dropByte h1)
  else (true, f)
termination_by f.buffered
decreasing_by all_goals simp only [buffered_dropByte]; omega

lemma seekMagic_buffered (f : Framer) : f.seekMagic.2.buffered ≤ f.buffered := by
  fun_induction seekMagic f with
  | case2 f h1 h2 ih => simp only [buffered_dropByte] at ih; omega
  | case4 f h1 h2 h3 h4 ih => simp only [buffered_dropByte] at ih; omega
  | _ => exact le_rfl

/-- The loop of a drain: the messages given out, in order, and the framer after it. -/
def drainLoop (f : Framer) : List Msg × Framer :=
  match _h : f.seekMagic with
  | (false, g) => ([], g)
  | (true, g) =>
    if hh : g.buffered < kHeaderSize then ([], g)
    else
      let type := g.byteAt (g.read + 2)
      let flags := g.byteAt (g.read + 3)
      let len := (g.u32At (g.read + 4)).toNat
      -- a length this large means the cursor is not actually on a header
      if len > kMaxPayload then
        drainLoop (g.dropByte (by unfold kHeaderSize at hh; omega))
      else if hl : g.buffered < kHeaderSize + len then ([], g)
      else
        let payload := (g.buf.drop (g.read + kHeaderSize)).take len
        let (ms, g') := drainLoop (g.advance (kHeaderSize + len) hl)
        (⟨⟨type⟩, flags, payload⟩ :: ms, g')
termination_by f.buffered
decreasing_by
  all_goals
    have hg : g.buffered ≤ f.buffered := by simpa [_h] using seekMagic_buffered f
    have h8 : kHeaderSize = 8 := rfl
    simp only [buffered_dropByte, buffered_advance]
    omega

def compact (f : Framer) : Framer :=
  if f.read = 0 then f
  else if f.read = f.buf.length then ⟨[], 0, f.resyncBytes, le_rfl⟩
  else if f.read ≥ kCompactThreshold then
    ⟨f.buf.drop f.read, 0, f.resyncBytes, Nat.zero_le _⟩
  else f

def drain (f : Framer) : List Msg × Framer :=
  let (ms, g) := f.drainLoop
  (ms, g.compact)

def reset (f : Framer) : Framer := ⟨[], 0, f.resyncBytes, le_rfl⟩

/-- The bytes in the buffer that no message has used. -/
def unread (f : Framer) : List UInt8 := f.buf.drop f.read

@[simp] lemma length_unread (f : Framer) : f.unread.length = f.buffered := by
  simp [unread, buffered]

@[simp] lemma unread_push (f : Framer) (data : List UInt8) :
    (f.push data).unread = f.unread ++ data := by
  simp [unread, push, List.drop_append_of_le_length f.read_le]

@[simp] lemma unread_dropByte (f : Framer) (h : ¬ f.buffered < 1) :
    (f.dropByte h).unread = f.unread.drop 1 := by
  simp [unread, dropByte]

@[simp] lemma unread_advance (f : Framer) (n : ℕ) (h : ¬ f.buffered < n) :
    (f.advance n h).unread = f.unread.drop n := by
  simp [unread, advance]

lemma byteAt_read (f : Framer) (i : ℕ) : f.byteAt (f.read + i) = f.unread.getD i 0 := by
  simp [byteAt, unread, List.getD_eq_getElem?_getD]

/-- Compaction moves the unread bytes and changes nothing that can be seen. -/
lemma compact_unread (f : Framer) :
    f.compact.unread = f.unread ∧ f.compact.resyncBytes = f.resyncBytes := by
  unfold compact
  split_ifs with h0 h1 h2
  · exact ⟨rfl, rfl⟩
  · exact ⟨by simp [unread, h1], rfl⟩
  · exact ⟨by simp [unread], rfl⟩
  · exact ⟨rfl, rfl⟩

/-! ### The reference -/

/-- What the bytes in front of the cursor are worth: a byte that cannot begin a message, a
whole message, or not enough to say. -/
def look : List UInt8 → Scan.Verdict Msg
  | [] => .wait
  | [b0] => if b0 ≠ kMagicByte0 then .skip else .wait
  | b0 :: b1 :: t =>
    if b0 ≠ kMagicByte0 ∨ b1 ≠ kMagicByte1 then .skip
    else
      match t with
      | type :: flags :: l0 :: l1 :: l2 :: l3 :: body =>
        if ofLe [l0, l1, l2, l3] > kMaxPayload then .skip
        else if body.length < ofLe [l0, l1, l2, l3] then .wait
        else .emit ⟨⟨type⟩, flags, body.take (ofLe [l0, l1, l2, l3])⟩
      | _ => .wait

/-- The shape of a stream on which the scanner finds a message. -/
lemma look_emit {u : List UInt8} {m : Msg} (h : look u = .emit m) :
    ∃ l0 l1 l2 l3 body, u = kMagicByte0 :: kMagicByte1 :: m.type.raw :: m.flags
        :: l0 :: l1 :: l2 :: l3 :: (m.payload ++ body) ∧
      ofLe [l0, l1, l2, l3] = m.payload.length ∧ m.payload.length ≤ kMaxPayload := by
  unfold look at h
  split at h
  · cases h
  · split_ifs at h
  · rename_i b0 b1 t
    split_ifs at h with hm
    split at h
    · rename_i type flags l0 l1 l2 l3 body
      split_ifs at h with h1 h2
      cases h
      obtain ⟨rfl, rfl⟩ : b0 = kMagicByte0 ∧ b1 = kMagicByte1 := by
        simpa [not_or] using hm
      have hlen : (body.take (ofLe [l0, l1, l2, l3])).length = ofLe [l0, l1, l2, l3] := by
        simp only [List.length_take]; omega
      exact ⟨l0, l1, l2, l3, body.drop (ofLe [l0, l1, l2, l3]), by simp, hlen.symm,
        hlen.le.trans (by omega)⟩
    · cases h

lemma look_append {u : List UInt8} (v : List UInt8) (h : look u ≠ .wait) :
    look (u ++ v) = look u := by
  match u with
  | [] => simp [look] at h
  | [b0] =>
    have h0 : b0 ≠ kMagicByte0 := by
      intro h0; simp [look, h0] at h
    cases v <;> simp [look, h0]
  | b0 :: b1 :: t =>
    by_cases hm : b0 ≠ kMagicByte0 ∨ b1 ≠ kMagicByte1
    · simp only [look, List.cons_append, if_pos hm]
    · match t with
      | type :: flags :: l0 :: l1 :: l2 :: l3 :: body =>
        simp only [look, List.cons_append, if_neg hm] at h ⊢
        split_ifs at h ⊢ with h1 h2 h3
        · rfl
        · exact absurd rfl h
        · simp only [List.length_append] at h2; omega
        · exact absurd rfl h
        · rw [List.take_append_of_le_length (by omega)]
      | [] => simp [look, hm] at h
      | [_] => simp [look, hm] at h
      | [_, _] => simp [look, hm] at h
      | [_, _, _] => simp [look, hm] at h
      | [_, _, _, _] => simp [look, hm] at h
      | [_, _, _, _, _] => simp [look, hm] at h

/-- Left to right: skip a byte, take a message, or wait. -/
def scanner : Scan.Scanner UInt8 Msg where
  look := look
  size m := kHeaderSize + m.payload.length
  size_pos _ := by unfold kHeaderSize; omega
  skip_ne := by rintro u h rfl; simp [look] at h
  emit_le := by
    intro u m h
    obtain ⟨l0, l1, l2, l3, body, rfl, -, -⟩ := look_emit h
    simp only [List.length_cons, List.length_append, kHeaderSize]; omega
  stable := look_append

@[simp] lemma scanner_size (m : Msg) : scanner.size m = kHeaderSize + m.payload.length := rfl

/-! ### The drain follows the reference -/

lemma unread_cons (f : Framer) (h : ¬ f.buffered < 1) :
    f.unread = f.byteAt f.read :: f.unread.drop 1 := by
  have hlen := f.length_unread
  have h0 := f.byteAt_read 0
  rcases hu : f.unread with _ | ⟨b, t⟩
  · rw [hu] at hlen; simp at hlen; omega
  · rw [hu] at h0; simpa using h0.symm

lemma unread_cons_cons (f : Framer) (h : ¬ f.buffered < 2) :
    f.unread = f.byteAt f.read :: f.byteAt (f.read + 1) :: f.unread.drop 2 := by
  have hlen := f.length_unread
  have h0 := f.byteAt_read 0
  have h1 := f.byteAt_read 1
  rcases hu : f.unread with _ | ⟨b, _ | ⟨c, t⟩⟩
  · rw [hu] at hlen; simp at hlen; omega
  · rw [hu] at hlen; simp at hlen; omega
  · rw [hu] at h0 h1
    simp only [Nat.add_zero, List.getD_cons_zero, List.getD_cons_succ] at h0 h1
    simp [h0, h1]

/-- The header in front of the cursor, byte by byte, and what follows it. -/
lemma unread_header (f : Framer) (h : ¬ f.buffered < kHeaderSize) :
    f.unread = f.byteAt f.read :: f.byteAt (f.read + 1) :: f.byteAt (f.read + 2)
      :: f.byteAt (f.read + 3) :: f.byteAt (f.read + 4) :: f.byteAt (f.read + 5)
      :: f.byteAt (f.read + 6) :: f.byteAt (f.read + 7) :: f.unread.drop kHeaderSize := by
  have hlen := f.length_unread
  have hb := f.byteAt_read
  have h0 := hb 0
  rw [Nat.add_zero] at h0
  rcases hu : f.unread with _ | ⟨b0, _ | ⟨b1, _ | ⟨b2, _ | ⟨b3, _ | ⟨b4, _ | ⟨b5, _ | ⟨b6, _ |
    ⟨b7, t⟩⟩⟩⟩⟩⟩⟩⟩ <;> simp only [hu, List.length_nil, List.length_cons, kHeaderSize] at hlen h
  iterate 8 omega
  rw [h0, hb 1, hb 2, hb 3, hb 4, hb 5, hb 6, hb 7, hu]
  simp [kHeaderSize]

lemma u32At_eq (f : Framer) (i : ℕ) : (f.u32At i).toNat =
    ofLe [f.byteAt i, f.byteAt (i + 1), f.byteAt (i + 2), f.byteAt (i + 3)] :=
  toNat_or4 _ _ _ _

/-- Walking to the next magic drops the bytes the scanner skips. -/
lemma seekMagic_parse (f : Framer) :
    ∃ k, f.seekMagic.2.resyncBytes = f.resyncBytes + k ∧
      Scan.parse scanner f.unread =
        (⟨[], k, []⟩ : Scan.Parsed UInt8 Msg).andThen
          (Scan.parse scanner f.seekMagic.2.unread) := by
  fun_induction seekMagic f with
  | case2 f h1 h2 ih =>
    obtain ⟨k, hk, hp⟩ := ih
    have hs : look f.unread = .skip := by
      rw [unread_cons f h1]
      rcases f.unread.drop 1 with _ | ⟨c, t⟩ <;> simp [look, h2]
    refine ⟨k + 1, by rw [hk]; simp only [dropByte]; omega, ?_⟩
    rw [Scan.parse_skip scanner hs, ← unread_dropByte f h1, hp]
    simp [Scan.Parsed.andThen]; omega
  | case4 f h1 h2 h3 h4 ih =>
    obtain ⟨k, hk, hp⟩ := ih
    have hs : look f.unread = .skip := by
      rw [unread_cons_cons f h3]; simp [look, h4]
    refine ⟨k + 1, by rw [hk]; simp only [dropByte]; omega, ?_⟩
    rw [Scan.parse_skip scanner hs, ← unread_dropByte f h1, hp]
    simp [Scan.Parsed.andThen]; omega
  | _ => exact ⟨0, rfl, by simp [Scan.Parsed.andThen]⟩

lemma seekMagic_false {f g : Framer} (h : f.seekMagic = (false, g)) : look g.unread = .wait := by
  fun_induction seekMagic f with
  | case1 f h1 =>
    obtain rfl : f = g := (Prod.mk.inj h).2
    rw [List.length_eq_zero_iff.mp (show f.unread.length = 0 by rw [length_unread]; omega)]
    rfl
  | case2 f h1 h2 ih => exact ih h
  | case3 f h1 h2 h3 =>
    obtain rfl : f = g := (Prod.mk.inj h).2
    have hd : f.unread.drop 1 = [] := List.length_eq_zero_iff.mp (by simp; omega)
    rw [unread_cons f h1, hd]
    simp [look, not_not.mp h2]
  | case4 f h1 h2 h3 h4 ih => exact ih h
  | case5 => cases h

lemma seekMagic_true {f g : Framer} (h : f.seekMagic = (true, g)) :
    ¬ g.buffered < 2 ∧ g.byteAt g.read = kMagicByte0 ∧ g.byteAt (g.read + 1) = kMagicByte1 := by
  fun_induction seekMagic f with
  | case1 => cases h
  | case2 f h1 h2 ih => exact ih h
  | case3 => cases h
  | case4 f h1 h2 h3 h4 ih => exact ih h
  | case5 f h1 h2 h3 h4 => cases h; exact ⟨h3, not_not.mp h2, not_not.mp h4⟩

/-- On a magic with less than a header behind it there is nothing to say yet. -/
lemma look_short {f g : Framer} (h : f.seekMagic = (true, g)) (hh : g.buffered < kHeaderSize) :
    look g.unread = .wait := by
  obtain ⟨h2, hb0, hb1⟩ := seekMagic_true h
  have hlen := g.length_unread
  rw [unread_cons_cons g h2] at hlen ⊢
  generalize g.unread.drop 2 = t at hlen ⊢
  rcases t with _ | ⟨a, _ | ⟨b, _ | ⟨c, _ | ⟨d, _ | ⟨e, _ | ⟨x, t⟩⟩⟩⟩⟩⟩ <;>
    simp [look, hb0, hb1]
  simp only [List.length_cons, kHeaderSize] at hlen hh
  omega

/-- On a magic with a header behind it the verdict is the header's length against the bytes at
hand. -/
lemma look_header {f g : Framer} (h : f.seekMagic = (true, g)) (hh : ¬ g.buffered < kHeaderSize) :
    look g.unread =
      if (g.u32At (g.read + 4)).toNat > kMaxPayload then .skip
      else if g.buffered < kHeaderSize + (g.u32At (g.read + 4)).toNat then .wait
      else .emit ⟨⟨g.byteAt (g.read + 2)⟩, g.byteAt (g.read + 3),
        (g.buf.drop (g.read + kHeaderSize)).take (g.u32At (g.read + 4)).toNat⟩ := by
  obtain ⟨-, hb0, hb1⟩ := seekMagic_true h
  have hd : g.buf.drop (g.read + kHeaderSize) = g.unread.drop kHeaderSize := by simp [unread]
  have hlt : (g.unread.drop kHeaderSize).length < (g.u32At (g.read + 4)).toNat ↔
      g.buffered < kHeaderSize + (g.u32At (g.read + 4)).toNat := by
    simp only [List.length_drop, length_unread]; omega
  rw [hd, ← if_congr hlt rfl rfl, u32At_eq]
  conv_lhs => rw [unread_header g hh]
  simp [look, hb0, hb1]

/-- The messages given out and the framer left behind are what the scanner makes of the unread
bytes. -/
def Reads (f : Framer) (r : List Msg × Framer) : Prop :=
  r.1 = (Scan.parse scanner f.unread).items ∧
    r.2.resyncBytes = f.resyncBytes + (Scan.parse scanner f.unread).skipped ∧
    r.2.unread = (Scan.parse scanner f.unread).rest

/-- Dropping the bytes in front of a magic first changes nothing. -/
lemma reads_seek {f g : Framer} {b : Bool} {r : List Msg × Framer} (h : f.seekMagic = (b, g))
    (hr : Reads g r) : Reads f r := by
  obtain ⟨k, hk, hp⟩ := seekMagic_parse f
  rw [h] at hk hp
  obtain ⟨h1, h2, h3⟩ := hr
  unfold Reads
  rw [hp]
  refine ⟨by simpa [Scan.Parsed.andThen] using h1, ?_, by simpa [Scan.Parsed.andThen] using h3⟩
  simp only [Scan.Parsed.andThen] at hk ⊢
  omega

lemma reads_wait {g : Framer} (h : look g.unread = .wait) : Reads g ([], g) := by
  unfold Reads
  rw [Scan.parse_wait scanner h]
  simp

lemma reads_skip {g : Framer} {r : List Msg × Framer} (h1 : ¬ g.buffered < 1)
    (h : look g.unread = .skip) (hr : Reads (g.dropByte h1) r) : Reads g r := by
  obtain ⟨i1, i2, i3⟩ := hr
  rw [unread_dropByte] at i1 i2 i3
  unfold Reads
  rw [Scan.parse_skip scanner h]
  refine ⟨by simpa [Scan.Parsed.andThen] using i1, ?_, by simpa [Scan.Parsed.andThen] using i3⟩
  simp only [Scan.Parsed.andThen, dropByte] at i2 ⊢
  omega

lemma reads_emit {g : Framer} {m : Msg} {r : List Msg × Framer}
    (hl : ¬ g.buffered < kHeaderSize + m.payload.length) (h : look g.unread = .emit m)
    (hr : Reads (g.advance _ hl) r) : Reads g (m :: r.1, r.2) := by
  obtain ⟨i1, i2, i3⟩ := hr
  rw [unread_advance] at i1 i2 i3
  unfold Reads
  rw [Scan.parse_emit scanner h]
  refine ⟨by simpa [Scan.Parsed.andThen] using i1, ?_, by simpa [Scan.Parsed.andThen] using i3⟩
  simpa [Scan.Parsed.andThen, advance] using i2

/-- **A drain reads what the scanner reads.** -/
theorem drainLoop_reads (f : Framer) : Reads f f.drainLoop := by
  fun_induction drainLoop f with
  | case1 f g hg => exact reads_seek hg (reads_wait (seekMagic_false hg))
  | case2 f g hg hh => exact reads_seek hg (reads_wait (look_short hg hh))
  | case3 f g hg hh len hlen ih =>
    have hl := look_header hg hh
    rw [if_pos hlen] at hl
    exact reads_seek hg (reads_skip _ hl ih)
  | case4 f g hg hh len hlen hl =>
    have hw := look_header hg hh
    rw [if_neg hlen, if_pos hl] at hw
    exact reads_seek hg (reads_wait hw)
  | case5 f g hg hh type flags len hlen hl payload ms g' hd ih =>
    have he := look_header hg hh
    rw [if_neg hlen, if_neg hl] at he
    have hplen : payload.length = len := by
      have := g.read_le
      simp only [payload, List.length_take, List.length_drop]
      unfold buffered at hl
      omega
    rw [hd] at ih
    refine reads_seek hg ?_
    exact reads_emit (m := ⟨⟨type⟩, flags, payload⟩) (r := (ms, g')) (by rw [hplen]; exact hl) he
      (by simpa only [hplen] using ih)

end Framer

end Digitiz
