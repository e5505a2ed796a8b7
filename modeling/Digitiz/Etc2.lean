import Digitiz.Cheapest
import Digitiz.Scatter
import Digitiz.Tiling

/-!
ETC2 RGB8: blocks of four by four pixels, eight bytes each.

What is implemented is the ETC1 subset. A block is split in two halves, left and right or top and
bottom; each half has a base colour, a table of luminance steps and an index into it for every
pixel. Both splits are tried in both ways of storing the two base colours, and the one with the
smallest error is written.
-/

namespace Digitiz

/-- Intensity modifier sets: a small step up, a large one, and the same two downwards. -/
def kModifiers : List (List ℤ) :=
  [[2, 8, -2, -8], [5, 17, -5, -17], [9, 29, -9, -29], [13, 42, -13, -42], [18, 60, -18, -60],
    [24, 80, -24, -80], [33, 106, -33, -106], [47, 183, -47, -183]]

structure Rgb where
  r : ℤ := 0
  g : ℤ := 0
  b : ℤ := 0
  deriving DecidableEq, Repr

namespace Etc2

open Rescale

def clamp255 (v : ℤ) : ℤ := if v < 0 then 0 else if v > 255 then 255 else v

/-- Four bits a channel, expanded by replication. -/
def quant4 (v : ℤ) : ℤ := clamp ((v * 15 + 127) / 255) 0 15
def expand4 (q : ℤ) : ℤ := q * 17

/-- Five bits a channel, expanded by taking the top three bits again. -/
def quant5 (v : ℤ) : ℤ := clamp ((v * 31 + 127) / 255) 0 31
def expand5 (q : ℤ) : ℤ := ((q.toNat <<< 3 ||| q.toNat >>> 2 : ℕ) : ℤ)

/-- Which pixels of the block belong to a half, numbered column by column. -/
def subblockPixels (flip half : ℕ) : List ℕ :=
  (List.range 4).flatMap fun x => (List.range 4).filterMap fun y =>
    let mine := if flip = 0 then decide (x ≥ 2) == decide (half = 1)
      else decide (y ≥ 2) == decide (half = 1)
    if mine then some (x * 4 + y) else none

def modifier (table index : ℕ) : ℤ := (kModifiers.getD table []).getD index 0

/-- The squared error of one pixel under one modifier. -/
def pixelError (base p : Rgb) (m : ℤ) : ℤ :=
  let dr := clamp255 (base.r + m) - p.r
  let dg := clamp255 (base.g + m) - p.g
  let db := clamp255 (base.b + m) - p.b
  dr * dr + dg * dg + db * db

/-- The best index for one pixel, and the error it costs. -/
def bestIndex (base : Rgb) (table : ℕ) (p : Rgb) : ℤ × ℕ :=
  (List.range 4).foldl (fun best index =>
    let e := pixelError base p (modifier table index)
    if best.1 < 0 ∨ e < best.1 then (e, index) else best) (-1, 0)

/-- One table over the pixels of a half. It is given up as soon as it is worse than one already
found; the indices not reached are zero. -/
def fitTable (base : Rgb) (table : ℕ) (bestError : ℤ) :
    List Rgb → ℤ → List ℕ → ℤ × List ℕ
  | [], error, indices => (error, indices)
  | p :: ps, error, indices =>
    let (e, i) := bestIndex base table p
    if bestError ≥ 0 ∧ error + e ≥ bestError then
      (error + e, indices ++ i :: List.replicate ps.length 0)
    else fitTable base table bestError ps (error + e) (indices ++ [i])

structure Fit where
  error : ℤ := -1
  table : ℕ := 0
  indices : List ℕ := []
  deriving DecidableEq, Repr

/-- The best table and indices for one half against one base colour. -/
def fitSubblock (pixels : List Rgb) (base : Rgb) : Fit :=
  (List.range 8).foldl (fun best table =>
    let (error, indices) := fitTable base table best.error pixels 0 []
    if best.error < 0 ∨ error < best.error then ⟨error, table, indices⟩ else best) {}

/-- A way to write a block. For a differential one, `q1` holds the steps from `q0`. -/
structure Candidate where
  error : ℤ := -1
  flip : ℕ := 0
  differential : Bool := false
  q0 : Rgb := {}
  q1 : Rgb := {}
  table : ℕ × ℕ := (0, 0)
  indices : List ℕ × List ℕ := ([], [])
  deriving DecidableEq, Repr

/-- The low bits of a value, moved into place. -/
def field (v : ℤ) (bits shift : ℕ) : UInt64 :=
  UInt64.ofNat (v % 2 ^ bits).toNat <<< UInt64.ofNat shift

def indexBits (flip half : ℕ) (indices : List ℕ) : UInt64 :=
  (List.zip (subblockPixels flip half) indices).foldl (fun bits (pixel, index) =>
    bits ||| field (index >>> 1 : ℕ) 1 (16 + pixel) ||| field index 1 pixel) 0

def writeBlock (c : Candidate) : List UInt8 :=
  let bits : UInt64 :=
    if c.differential then
      field c.q0.r 5 59 ||| field c.q1.r 3 56 ||| field c.q0.g 5 51 ||| field c.q1.g 3 48 |||
        field c.q0.b 5 43 ||| field c.q1.b 3 40 ||| field 1 1 33
    else
      field c.q0.r 4 60 ||| field c.q1.r 4 56 ||| field c.q0.g 4 52 ||| field c.q1.g 4 48 |||
        field c.q0.b 4 44 ||| field c.q1.b 4 40
  let bits := bits ||| field c.table.1 3 37 ||| field c.table.2 3 34 ||| field c.flip 1 32
  let bits := bits ||| indexBits c.flip 0 c.indices.1 ||| indexBits c.flip 1 c.indices.2
  (List.range 8).map fun i => (bits >>> UInt64.ofNat (56 - i * 8) &&& 0xFF).toUInt8

/-- The pixels of a half and their average. -/
def halfOf (block : ℕ → Rgb) (flip half : ℕ) : List Rgb × Rgb :=
  let pixels := (subblockPixels flip half).map block
  let mean (f : Rgb → ℤ) : ℤ := ((pixels.map f).sum + 4) / 8
  (pixels, ⟨mean Rgb.r, mean Rgb.g, mean Rgb.b⟩)

def Rgb.map (f : ℤ → ℤ) (c : Rgb) : Rgb := ⟨f c.r, f c.g, f c.b⟩
def Rgb.map₂ (f : ℤ → ℤ → ℤ) (c d : Rgb) : Rgb := ⟨f c.r d.r, f c.g d.g, f c.b d.b⟩

/-- Four bits a channel, the two halves unrelated. -/
def individual (flip : ℕ) (h0 h1 : List Rgb × Rgb) : Candidate :=
  let q0 := Rgb.map quant4 h0.2
  let q1 := Rgb.map quant4 h1.2
  let f0 := fitSubblock h0.1 (Rgb.map expand4 q0)
  let f1 := fitSubblock h1.1 (Rgb.map expand4 q1)
  ⟨f0.error + f1.error, flip, false, q0, q1, (f0.table, f1.table), (f0.indices, f1.indices)⟩

/-- Five bits for the first half and a signed step of three bits for the second, clamped when
the two are too far apart. -/
def differential (flip : ℕ) (h0 h1 : List Rgb × Rgb) : Candidate :=
  let q0 := Rgb.map quant5 h0.2
  let want := Rgb.map quant5 h1.2
  let second := Rgb.map₂ (fun q w => clamp (q + clamp (w - q) (-4) 3) 0 31) q0 want
  let delta := Rgb.map₂ (fun s q => s - q) second q0
  let f0 := fitSubblock h0.1 (Rgb.map expand5 q0)
  let f1 := fitSubblock h1.1 (Rgb.map expand5 second)
  ⟨f0.error + f1.error, flip, true, q0, delta, (f0.table, f1.table), (f0.indices, f1.indices)⟩

def better (best c : Candidate) : Candidate :=
  if best.error < 0 ∨ c.error < best.error then c else best

def encodeBlock (block : ℕ → Rgb) : List UInt8 :=
  writeBlock <| (List.range 2).foldl (fun best flip =>
    let h0 := halfOf block flip 0
    let h1 := halfOf block flip 1
    better (better best (individual flip h0 h1)) (differential flip h0 h1)) {}

/-- The pixel in column `x` and row `y`, blue first in memory. -/
def pixelAt (bgra : List UInt8) (stride : ℤ) (x y : ℕ) : Rgb :=
  let p := (y * stride + x * 4).toNat
  ⟨(bgra.getD (p + 2) 0).toNat, (bgra.getD (p + 1) 0).toNat, (bgra.getD p 0).toNat⟩

end Etc2

open Etc2 in
/-- The blocks of an image in reading order. -/
def etc2Encode (bgra : List UInt8) (w h stride : ℤ) : Option (List UInt8) :=
  if w ≤ 0 ∨ h ≤ 0 ∨ w % 4 ≠ 0 ∨ h % 4 ≠ 0 then none
  else
    some <| (List.range (h / 4).toNat).flatMap fun by_ =>
      (List.range (w / 4).toNat).flatMap fun bx =>
        encodeBlock fun i => pixelAt bgra stride (bx * 4 + i / 4) (by_ * 4 + i % 4)

/-! ### The size of what is written -/

namespace Etc2

lemma length_writeBlock (c : Candidate) : (writeBlock c).length = 8 := by
  unfold writeBlock
  rw [List.length_map, List.length_range]

lemma length_encodeBlock (block : ℕ → Rgb) : (encodeBlock block).length = 8 :=
  length_writeBlock _

end Etc2

/-- **The size depends on the dimensions alone.** -/
theorem etc2Encode_length {bgra blocks : List UInt8} {w h stride : ℤ}
    (hb : etc2Encode bgra w h stride = some blocks) : blocks.length = etc2Size w h := by
  unfold etc2Encode at hb
  split_ifs at hb with hbad
  obtain rfl := Option.some.inj hb
  have hwh : ¬(w ≤ 0 ∨ h ≤ 0) := fun hn => hbad (hn.imp_right .inl)
  rw [etc2Size, if_neg hwh]
  rw [Scatter.length_pieces fun _ => Scatter.length_pieces fun _ => Etc2.length_encodeBlock _]
  simp only [kEtc2BlockSize, kEtc2BlockBytes]
  ring

/-! ### The cheapest index -/

namespace Etc2

open Cheapest

lemma pixelError_nonneg (base p : Rgb) (m : ℤ) : 0 ≤ pixelError base p m :=
  add_nonneg (add_nonneg (mul_self_nonneg _) (mul_self_nonneg _)) (mul_self_nonneg _)

/-- The index taken for a pixel is the cheapest of the four. -/
lemma kept_bestIndex (base : Rgb) (table : ℕ) (p : Rgb) :
    Kept Prod.fst ((List.range 4).map fun i => (pixelError base p (modifier table i), i))
      (bestIndex base table p) := by
  have h := kept_foldl Prod.fst ((-1 : ℤ), 0)
    ((List.range 4).map fun i => (pixelError base p (modifier table i), i)) (by decide) (by simp)
    fun c hc => ?_
  · rw [List.foldl_map] at h
    exact h
  · obtain ⟨i, -, rfl⟩ := List.mem_map.mp hc
    exact pixelError_nonneg _ _ _

lemma bestIndex_spec (base : Rgb) (table : ℕ) (p : Rgb) :
    (bestIndex base table p).2 < 4 ∧ (bestIndex base table p).1
      = pixelError base p (modifier table (bestIndex base table p).2) := by
  obtain ⟨i, hi, h⟩ := List.mem_map.mp (kept_bestIndex base table p).mem
  rw [← h]
  exact ⟨List.mem_range.mp hi, rfl⟩

lemma bestIndex_le (base : Rgb) (table : ℕ) (p : Rgb) {i : ℕ} (hi : i < 4) :
    (bestIndex base table p).1 ≤ pixelError base p (modifier table i) :=
  (kept_bestIndex base table p).le _ (List.mem_map.mpr ⟨i, List.mem_range.mpr hi, rfl⟩)

lemma bestIndex_nonneg (base : Rgb) (table : ℕ) (p : Rgb) : 0 ≤ (bestIndex base table p).1 := by
  rw [(bestIndex_spec base table p).2]
  exact pixelError_nonneg _ _ _

/-! ### What a field holds -/

lemma emod_lt (v : ℤ) (b : ℕ) : (v % 2 ^ b).toNat < 2 ^ b := by
  have h := Int.emod_lt_of_pos v (show (0 : ℤ) < 2 ^ b by positivity)
  zify
  rwa [Int.toNat_of_nonneg (Int.emod_nonneg v (by positivity))]

lemma emod_shift_lt (v : ℤ) {b s n : ℕ} (hb : b + s ≤ n) : (v % 2 ^ b).toNat <<< s < 2 ^ n := by
  calc (v % 2 ^ b).toNat <<< s = (v % 2 ^ b).toNat * 2 ^ s := Nat.shiftLeft_eq _ _
    _ < 2 ^ b * 2 ^ s := Nat.mul_lt_mul_of_pos_right (emod_lt v b) (Nat.two_pow_pos s)
    _ = 2 ^ (b + s) := (pow_add 2 b s).symm
    _ ≤ 2 ^ n := Nat.pow_le_pow_right (by decide) hb

lemma toNat_field (v : ℤ) {b s : ℕ} (hb : b + s ≤ 64) (hs : s < 64) :
    (field v b s).toNat = (v % 2 ^ b).toNat <<< s := by
  have hn := emod_shift_lt v (show b + 0 ≤ 64 by omega)
  rw [Nat.shiftLeft_zero] at hn
  have hs' : s < 2 ^ 64 := by omega
  rw [field, UInt64.toNat_shiftLeft, UInt64.toNat_ofNat_of_lt' hn, UInt64.toNat_ofNat_of_lt' hs',
    Nat.mod_eq_of_lt hs, Nat.mod_eq_of_lt (emod_shift_lt v hb)]

lemma toNat_byte64 (w : UInt64) : (w &&& 0xFF).toUInt8.toNat = w.toNat % 256 := by
  rw [UInt64.toNat_toUInt8, UInt64.toNat_and]
  have h : w.toNat &&& (2 ^ 8 - 1) = w.toNat % 2 ^ 8 := Nat.and_two_pow_sub_one_eq_mod _ _
  change (w.toNat &&& (2 ^ 8 - 1)) % 2 ^ 8 = _
  rw [h, Nat.mod_mod]
  rfl

lemma toNat_shiftRight64 (w : UInt64) {k : ℕ} (hk : k < 64) :
    (w >>> UInt64.ofNat k).toNat = w.toNat >>> k := by
  have hk' : k < 2 ^ 64 := by omega
  rw [UInt64.toNat_shiftRight, UInt64.toNat_ofNat_of_lt' hk', Nat.mod_eq_of_lt hk]

lemma subblockPixels_lt {flip half p : ℕ} (hp : p ∈ subblockPixels flip half) : p < 16 := by
  unfold subblockPixels at hp
  simp only [List.mem_flatMap, List.mem_filterMap, List.mem_range, Option.ite_none_right_eq_some,
    Option.some.injEq] at hp
  obtain ⟨x, hx, y, hy, -, rfl⟩ := hp
  omega

/-- The bits of one index. -/
def indexField (pixel index : ℕ) : UInt64 :=
  field (index >>> 1 : ℕ) 1 (16 + pixel) ||| field index 1 pixel

end Etc2

end Digitiz
