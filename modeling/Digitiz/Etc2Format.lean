import Digitiz.Etc2RoundTrip

/-!
What a block means to a decoder nobody here wrote.

The format is written down apart from the program: a block is one big number, its fields are
named by their first and last bit, and a pixel is a base colour and a step of the table that its
half is given. A block with the differential bit set can mean something else altogether. Where a
base colour and its step leave the range of five bits the block is of one of three newer kinds,
and which one is told by the channel that leaves it first.

The program's own decoder clamps instead. The two agree as long as no channel leaves its range,
and of a block the encoder has written none does.
-/

namespace Digitiz.Etc2Format

/-! ### The format -/

/-- Eight bytes as one number, the first byte highest. -/
def word (block : List UInt8) : ℕ := block.foldl (fun w b => w * 256 + b.toNat) 0

/-- The bits of a number from a high one down to a low one. -/
def bits (w hi lo : ℕ) : ℕ := w / 2 ^ lo % 2 ^ (hi + 1 - lo)

def signed3 (v : ℕ) : ℤ := if v < 4 then v else (v : ℤ) - 8

/-- The kinds of blocks. -/
inductive Mode
  | individual
  | differential
  | t
  | h
  | planar
  deriving DecidableEq, Repr

/-- The first bits of red, green and blue. -/
def channels : List ℕ := [63, 55, 47]

/-- Five bits of a base colour and the three bits of the step that follow them. -/
def reach (w hi : ℕ) : ℤ := bits w hi (hi - 4) + signed3 (bits w (hi - 5) (hi - 7))

def InRange (v : ℤ) : Prop := 0 ≤ v ∧ v ≤ 31

instance (v : ℤ) : Decidable (InRange v) := inferInstanceAs (Decidable (_ ∧ _))

def mode (w : ℕ) : Mode :=
  if bits w 33 33 = 0 then .individual
  else if ¬ InRange (reach w 63) then .t
  else if ¬ InRange (reach w 55) then .h
  else if ¬ InRange (reach w 47) then .planar
  else .differential

/-- Four bits and five bits extended to eight. -/
def extend4 (v : ℕ) : ℕ := v * 16 + v
def extend5 (v : ℕ) : ℕ := v * 8 + v / 4

/-- A small and a large step for each table. -/
def intensity : List (ℤ × ℤ) :=
  [(2, 8), (5, 17), (9, 29), (13, 42), (18, 60), (24, 80), (33, 106), (47, 183)]

/-- The high bit of an index says down, the low one says far. -/
def step (table high low : ℕ) : ℤ :=
  let (a, b) := intensity.getD table (0, 0)
  let s := if low = 1 then b else a
  if high = 1 then -s else s

/-- One channel of the base colour of the first or the second half. -/
def baseOf (m : Mode) (w hi : ℕ) (second : Bool) : ℤ :=
  if m = .individual then
    extend4 (if second then bits w (hi - 4) (hi - 7) else bits w hi (hi - 3))
  else extend5 (if second then (reach w hi).toNat else bits w hi (hi - 4))

/-- The pixel in column `x` and row `y` of a block of one of the two older kinds. -/
def pixel (w x y : ℕ) : Option Rgb :=
  let m := mode w
  if m = .individual ∨ m = .differential then
    let second : Bool := if bits w 32 32 = 0 then x ≥ 2 else y ≥ 2
    let table := if second then bits w 36 34 else bits w 39 37
    let k := x * 4 + y
    let s := step table (bits w (16 + k) (16 + k)) (bits w k k)
    let channel (hi : ℕ) : ℤ := max 0 (min 255 (baseOf m w hi second + s))
    some ⟨channel 63, channel 55, channel 47⟩
  else none

/-! ### The number and its fields -/

open Etc2 BitFields

lemma shiftLeft_or_foldl (src : ℕ → UInt8) {n : ℕ} (hn : n ≤ 8) :
    (List.range n).foldl (fun w i => w ||| (src i).toNat <<< (56 - i * 8)) 0
      = (List.range n).foldl (fun w i => w * 256 + (src i).toNat) 0 <<< (64 - n * 8) := by
  induction n with
  | zero => exact (Nat.zero_shiftLeft _).symm
  | succ n ih =>
    rw [List.range_succ, List.foldl_append, List.foldl_append, ih (by omega)]
    simp only [List.foldl_cons, List.foldl_nil]
    generalize (List.range n).foldl (fun w i => w * 256 + (src i).toNat) 0 = a
    have hb := (src n).toNat_lt
    rw [show 64 - n * 8 = 8 + (64 - (n + 1) * 8) by omega,
      show 56 - n * 8 = 64 - (n + 1) * 8 by omega, Nat.shiftLeft_add, ← Nat.shiftLeft_or_distrib,
      ← Nat.shiftLeft_add_eq_or_of_lt hb, Nat.shiftLeft_eq a]

/-- The bytes of a block. -/
def bytes (src : ℕ → UInt8) : List UInt8 := (List.range 8).map src

/-- **Both make the same number of eight bytes.** -/
lemma word_bytes (src : ℕ → UInt8) : word (bytes src) = (blockBits src).toNat := by
  rw [toNat_blockBits, shiftLeft_or_foldl src le_rfl, word, bytes, List.foldl_map]
  rfl

lemma bits_eq (w : UInt64) {n hi lo : ℕ} (hn : hi + 1 - lo = n) (hn' : n < 64) (hlo : lo < 64) :
    bits w.toNat hi lo = bitsOf w n lo := by
  rw [bitsOf_eq w hn' hlo, slice, Nat.shiftRight_eq_div_pow, ← hn]
  rfl

/-! ### Two decoders -/

lemma signed3_eq (v : ℕ) : signed3 v = sign3 v := by
  unfold signed3 sign3
  split_ifs <;> omega

lemma extend4_eq (v : ℕ) : (extend4 v : ℤ) = expand4 v := by
  unfold extend4 expand4
  push_cast
  ring

lemma extend5_eq {v : ℕ} (hv : v < 32) : (extend5 v : ℤ) = expand5 v := by
  have hlow : v / 2 ^ 2 < 2 ^ 3 := by omega
  unfold extend5 expand5
  rw [Int.toNat_natCast, Nat.shiftRight_eq_div_pow, ← Nat.shiftLeft_add_eq_or_of_lt hlow,
    Nat.shiftLeft_eq]
  rfl

lemma step_eq : ∀ table < 8, ∀ high < 2, ∀ low < 2,
    step table high low = modifier table (high <<< 1 ||| low) := by
  decide

lemma clamp255_eq (v : ℤ) : max 0 (min 255 v) = clamp255 v := by
  unfold clamp255
  split_ifs <;> omega

lemma halfAt_eq (flip x y : ℕ) :
    halfAt flip x y = if (if flip = 0 then decide (x ≥ 2) else decide (y ≥ 2)) then 1 else 0 := by
  by_cases hf : flip = 0
  · simp only [halfAt, if_pos hf, decide_eq_true_eq]
  · simp only [halfAt, if_neg hf, decide_eq_true_eq]

lemma bitsOf_lt (w : UInt64) {n s : ℕ} (hn : n < 64) (hs : s < 64) : bitsOf w n s < 2 ^ n := by
  rw [bitsOf_eq w hn hs]
  exact slice_lt n s _

lemma mode_individual_iff (w : ℕ) : mode w = .individual ↔ bits w 33 33 = 0 := by
  unfold mode
  split_ifs with h
  all_goals simp [h]

lemma mode_differential_iff (w : ℕ) : mode w = .differential ↔
    bits w 33 33 ≠ 0 ∧ ∀ hi ∈ channels, InRange (reach w hi) := by
  unfold mode channels
  split_ifs with h hr hg hb
  all_goals simp_all

section Agree

variable (w : UInt64)

lemma reach_eq {hi : ℕ} (h : 7 ≤ hi ∧ hi < 64) :
    reach w.toNat hi = bitsOf w 5 (hi - 4) + sign3 (bitsOf w 3 (hi - 7)) := by
  have hbase : hi + 1 - (hi - 4) = 5 := by omega
  have hstep : hi - 5 + 1 - (hi - 7) = 3 := by omega
  unfold reach
  rw [bits_eq w hbase (by decide) (by omega), bits_eq w hstep (by decide) (by omega), signed3_eq]

/-- A reach in its range is not clamped. -/
lemma expand5_reach {v : ℤ} (h : InRange v) :
    (extend5 v.toNat : ℤ) = expand5 (Rescale.clamp v 0 31) := by
  obtain ⟨h0, h1⟩ := h
  have hclamp : Rescale.clamp v 0 31 = v := by
    unfold Rescale.clamp
    omega
  rw [hclamp, extend5_eq (by omega), Int.toNat_of_nonneg h0]

/-- The base colours of both halves, as the format has them. -/
def bases (m : Mode) (w : ℕ) : Rgb × Rgb :=
  (⟨baseOf m w 63 false, baseOf m w 55 false, baseOf m w 47 false⟩,
    ⟨baseOf m w 63 true, baseOf m w 55 true, baseOf m w 47 true⟩)

lemma mode_bit : bits w.toNat 33 33 = bitsOf w 1 33 := bits_eq w rfl (by decide) (by decide)

lemma bases_individual (hm : mode w.toNat = .individual) :
    decodeBase w = bases .individual w.toNat := by
  have hbit := (mode_individual_iff _).mp hm
  rw [mode_bit] at hbit
  have hbits (hi lo : ℕ) (hn : hi + 1 - lo = 4) (hlo : lo < 64) :
      bits w.toNat hi lo = bitsOf w 4 lo := bits_eq w hn (by decide) hlo
  unfold decodeBase bases baseOf
  simp (disch := decide) only [hbit, ne_eq, not_true_eq_false, if_false, if_true,
    Bool.false_eq_true, hbits, extend4_eq, Nat.reduceSub]

lemma bases_differential (hm : mode w.toNat = .differential) :
    decodeBase w = bases .differential w.toNat := by
  obtain ⟨hbit, hrange⟩ := (mode_differential_iff _).mp hm
  rw [mode_bit] at hbit
  have hfirst (hi lo : ℕ) (hn : hi + 1 - lo = 5) (hlo : lo < 64) :
      (extend5 (bits w.toNat hi lo) : ℤ) = expand5 (bitsOf w 5 lo) := by
    rw [bits_eq w hn (by decide) hlo]
    exact extend5_eq (bitsOf_lt w (by decide) hlo)
  have hsecond (hi : ℕ) (h : hi ∈ channels) (hlt : 7 ≤ hi ∧ hi < 64) :
      (extend5 (reach w.toNat hi).toNat : ℤ) = expand5
        (Rescale.clamp (bitsOf w 5 (hi - 4) + sign3 (bitsOf w 3 (hi - 7))) 0 31) := by
    rw [expand5_reach (hrange hi h), reach_eq w hlt]
  unfold decodeBase bases baseOf
  simp (disch := decide) only [hbit, ne_eq, not_false_eq_true, reduceCtorEq, if_false, if_true,
    Bool.false_eq_true, hfirst, hsecond, Nat.reduceSub]

/-- **Where no channel leaves its range the two decoders see the same picture.** -/
theorem pixel_eq (hm : mode w.toNat = .individual ∨ mode w.toNat = .differential) {x y : ℕ}
    (hx : x < 4) (hy : y < 4) : pixel w.toNat x y = some (decodePixel w x y) := by
  have hbase : decodeBase w = bases (mode w.toNat) w.toNat := by
    rcases hm with hm | hm
    · rw [hm, bases_individual w hm]
    · rw [hm, bases_differential w hm]
  have hone (lo : ℕ) (hlo : lo < 64) : bits w.toNat lo lo = bitsOf w 1 lo :=
    bits_eq w (by omega) (by decide) hlo
  have hlt (lo : ℕ) (hlo : lo < 64) : bitsOf w 1 lo < 2 := bitsOf_lt w (by decide) hlo
  have hk : 16 + (x * 4 + y) < 64 := by omega
  have hk' : x * 4 + y < 64 := by omega
  have hstep (table : ℕ) (ht : table < 8) := step_eq table ht _ (hlt _ hk) _ (hlt _ hk')
  have hfirst := hstep _ (bitsOf_lt w (show 3 < 64 by decide) (show 37 < 64 by decide))
  have hsecond := hstep _ (bitsOf_lt w (show 3 < 64 by decide) (show 34 < 64 by decide))
  unfold pixel decodePixel
  dsimp only
  rw [if_pos hm, hbase, hone 32 (by decide), hone _ hk, hone _ hk',
    bits_eq w (show 36 + 1 - 34 = 3 from rfl) (by decide) (by decide),
    bits_eq w (show 39 + 1 - 37 = 3 from rfl) (by decide) (by decide)]
  rw [halfAt_eq]
  generalize (if bitsOf w 1 32 = 0 then decide (x ≥ 2) else decide (y ≥ 2)) = second
  cases second with
  | false =>
    simp only [Bool.false_eq_true, if_false, if_true, hfirst, clamp255_eq, ofHalf, bases, shade,
      Rgb.map]
  | true =>
    simp only [one_ne_zero, if_false, if_true, hsecond, clamp255_eq, ofHalf, bases, shade, Rgb.map]

end Agree

/-! ### What the encoder writes -/

section Written

variable {c : Candidate} {index : ℕ → ℕ}

/-- A colour and a step that are written lead to the colour in mind. -/
lemma reach_blockWord (h : c.Fits index) (hd : c.differential = true) {hi : ℕ}
    (hhi : hi ∈ channels) : InRange (reach (blockWord c).toNat hi) := by
  obtain ⟨-, -, hr, hg, hb⟩ := h.range.differential hd
  obtain ⟨hq0, hq1⟩ := h.colour_eq hd
  rw [← hq0, ← hq1] at hr hg hb
  unfold channels at hhi
  simp only [List.mem_cons, List.not_mem_nil, or_false] at hhi
  unfold InRange
  rcases hhi with rfl | rfl | rfl
  all_goals rw [reach_eq _ (by decide)]
  · exact ⟨hr.1, Int.lt_add_one_iff.mp hr.2⟩
  · exact ⟨hg.1, Int.lt_add_one_iff.mp hg.2⟩
  · exact ⟨hb.1, Int.lt_add_one_iff.mp hb.2⟩

lemma bits_blockWord (h : c.Fits index) :
    bits (blockWord c).toNat 33 33 = if c.differential then 1 else 0 := by
  rw [mode_bit, h.differential_eq]

/-- **No block is of one of the newer kinds.** -/
lemma mode_blockWord (h : c.Fits index) : mode (blockWord c).toNat = .individual ∨
    mode (blockWord c).toNat = .differential := by
  have hbit := bits_blockWord h
  cases hd : c.differential with
  | false =>
    rw [hd] at hbit
    exact .inl ((mode_individual_iff _).mpr hbit)
  | true =>
    rw [hd] at hbit
    refine .inr ((mode_differential_iff _).mpr ⟨?_, fun hi => reach_blockWord h hd⟩)
    rw [hbit]
    decide

end Written

/-- **What is encoded stays among the blocks every decoder reads alike.** Wherever the differential
bit is set no channel leaves its five bits with its step, so no block is of one of the newer kinds;
and what the format says of a block is what the program's decoder makes of it, pixel by pixel. -/
theorem encoded_in_subset (bgra : List UInt8) {w h : ℤ} (stride : ℤ) (hw : 0 < w ∧ w % 4 = 0)
    (hh : 0 < h ∧ h % 4 = 0) :
    ∃ blocks out, etc2Encode bgra w h stride = some blocks ∧ etc2Decode blocks w h = some out ∧
      ∀ bx < (w / 4).toNat, ∀ by_ < (h / 4).toNat,
        let block := word (bytes (blockAt blocks (w / 4).toNat bx by_))
        (bits block 33 33 = 1 → ∀ hi ∈ channels, 0 ≤ reach block hi ∧ reach block hi ≤ 31) ∧
          (mode block = .individual ∨ mode block = .differential) ∧
          ∀ x < 4, ∀ y < 4,
            pixel block x y = some (pixelAt out (w * 4) (bx * 4 + x) (by_ * 4 + y)) := by
  obtain ⟨blocks, out, he, hd⟩ := encode_decode bgra stride hw hh
  refine ⟨blocks, out, he, hd, fun bx hbx by_ hby => ?_⟩
  obtain ⟨index, hf⟩ := fitted_chosen (sourceBlock bgra stride bx by_)
  have hword := word_bytes (blockAt blocks (w / 4).toNat bx by_)
  rw [blockBits_encode he hbx hby] at hword
  dsimp only
  rw [hword]
  refine ⟨fun hbit hi hhi => ?_, mode_blockWord hf.fits, fun x hx y hy => ?_⟩
  · rw [bits_blockWord hf.fits] at hbit
    have hdiff : (chosen (sourceBlock bgra stride bx by_)).differential = true := by
      by_contra hn
      rw [if_neg hn] at hbit
      exact absurd hbit (by decide)
    exact reach_blockWord hf.fits hdiff hhi
  · rw [pixel_eq _ (mode_blockWord hf.fits) hx hy, pixelAt_decode hd hbx hby hx hy,
      blockBits_encode he hbx hby]

/-- The first pixel of the last block of a black image. -/
theorem encoded_in_subset_black :
    ∃ blocks out, etc2Encode (List.replicate 256 0) 8 8 32 = some blocks ∧
      etc2Decode blocks 8 8 = some out ∧
        pixel (word (bytes (blockAt blocks 2 1 1))) 0 0 = some (pixelAt out 32 4 4) := by
  obtain ⟨blocks, out, he, hd, h⟩ :=
    encoded_in_subset (List.replicate 256 0) 32 (show (0 : ℤ) < 8 ∧ 8 % 4 = 0 by decide)
      (show (0 : ℤ) < 8 ∧ 8 % 4 = 0 by decide)
  exact ⟨blocks, out, he, hd, (h 1 (by decide) 1 (by decide)).2.2 0 (by decide) 0 (by decide)⟩

end Digitiz.Etc2Format
