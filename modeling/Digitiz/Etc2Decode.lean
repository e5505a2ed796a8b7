import Digitiz.BitFields
import Digitiz.Etc2

/-!
ETC2 the other way, for looking at what was encoded.

The eight bytes of a block are put together to one number, and base colours, tables and indices
are taken out of its bits. The pixels are stored a column at a time, but no two of them touch
the same byte, so what an image holds afterwards does not depend on the order.
-/

namespace Digitiz

namespace Etc2

open Rescale

/-- The bytes of a block as one number, high byte first. -/
def blockBits (src : ℕ → UInt8) : UInt64 :=
  (List.range 8).foldl (fun bits i => bits ||| (src i).toUInt64 <<< UInt64.ofNat (56 - i * 8)) 0

/-- Some bits of a block, moved down. -/
def bitsOf (bits : UInt64) (n shift : ℕ) : ℕ :=
  (bits >>> UInt64.ofNat shift &&& UInt64.ofNat (2 ^ n - 1)).toNat

/-- Three-bit two's complement. -/
def sign3 (v : ℤ) : ℤ := if v ≥ 4 then v - 8 else v

/-- One of a pair, by the number of the half. -/
def ofHalf {α : Type} (half : ℕ) (pair : α × α) : α := if half = 0 then pair.1 else pair.2

/-- The base colours of the two halves, in eight bits. -/
def decodeBase (bits : UInt64) : Rgb × Rgb :=
  let differential := bitsOf bits 1 33 ≠ 0
  if differential then
    let r := bitsOf bits 5 59
    let g := bitsOf bits 5 51
    let b := bitsOf bits 5 43
    let dr := sign3 (bitsOf bits 3 56)
    let dg := sign3 (bitsOf bits 3 48)
    let db := sign3 (bitsOf bits 3 40)
    (⟨expand5 r, expand5 g, expand5 b⟩,
      ⟨expand5 (clamp (r + dr) 0 31), expand5 (clamp (g + dg) 0 31),
        expand5 (clamp (b + db) 0 31)⟩)
  else
    (⟨expand4 (bitsOf bits 4 60), expand4 (bitsOf bits 4 52), expand4 (bitsOf bits 4 44)⟩,
      ⟨expand4 (bitsOf bits 4 56), expand4 (bitsOf bits 4 48), expand4 (bitsOf bits 4 40)⟩)

/-- The half a pixel of the block is in. -/
def halfAt (flip x y : ℕ) : ℕ :=
  if flip = 0 then (if x ≥ 2 then 1 else 0) else (if y ≥ 2 then 1 else 0)

/-- A colour with one step added to all of its channels. -/
def shade (c : Rgb) (m : ℤ) : Rgb := Rgb.map (fun v => clamp255 (v + m)) c

def decodePixel (bits : UInt64) (x y : ℕ) : Rgb :=
  let flip := bitsOf bits 1 32
  let table := (bitsOf bits 3 37, bitsOf bits 3 34)
  let pixel := x * 4 + y
  let index := bitsOf bits 1 (16 + pixel) <<< 1 ||| bitsOf bits 1 pixel
  let half := halfAt flip x y
  shade (ofHalf half (decodeBase bits)) (modifier (ofHalf half table) index)

/-- The four bytes of a pixel, blue first. -/
def storePixel (dst : ℕ) (c : Rgb) : List (ℕ × UInt8) :=
  [(dst, UInt8.ofNat c.b.toNat), (dst + 1, UInt8.ofNat c.g.toNat),
    (dst + 2, UInt8.ofNat c.r.toNat), (dst + 3, 255)]

/-- Block `bx`, `by` of the input. -/
def blockAt (blocks : List UInt8) (cols bx by_ : ℕ) : ℕ → UInt8 :=
  fun i => blocks.getD ((by_ * cols + bx) * kEtc2BlockBytes + i) 0

def decodeBlock (blocks : List UInt8) (w cols bx by_ : ℕ) : List (ℕ × UInt8) :=
  let bits := blockBits (blockAt blocks cols bx by_)
  (List.range 4).flatMap fun x => (List.range 4).flatMap fun y =>
    storePixel (((by_ * 4 + y) * w + (bx * 4 + x)) * 4) (decodePixel bits x y)

/-- The stores of a whole image, in the order they are made. -/
def decodeStores (blocks : List UInt8) (w cols rows : ℕ) : List (ℕ × UInt8) :=
  (List.range rows).flatMap fun by_ => (List.range cols).flatMap fun bx =>
    decodeBlock blocks w cols bx by_

end Etc2

open Etc2 in
/-- The image of a list of blocks. Its bytes are zero before the first store. -/
def etc2Decode (blocks : List UInt8) (w h : ℤ) : Option (List UInt8) :=
  if w ≤ 0 ∨ h ≤ 0 ∨ w % 4 ≠ 0 ∨ h % 4 ≠ 0 then none
  else if blocks.length < etc2Size w h then none
  else
    some <| (List.range (w * h * 4).toNat).map <|
      Scatter.run (fun _ => 0) (decodeStores blocks w.toNat (w / 4).toNat (h / 4).toNat)

namespace Etc2

/-! ### What the stores leave -/

/-- Two places in an image are one place. -/
lemma place_inj {w x x' y y' k k' : ℕ} (hx : x < w) (hx' : x' < w) (hk : k < 4) (hk' : k' < 4)
    (h : (y * w + x) * 4 + k = (y' * w + x') * 4 + k') : x = x' ∧ y = y' ∧ k = k' := by
  have hrow : y * w + x = y' * w + x' := by omega
  have hxx : x = x' := by
    rw [← Nat.mul_add_mod_of_lt hx, ← Nat.mul_add_mod_of_lt hx', hrow]
  have hw : 0 < w := by omega
  have hyy : y * w = y' * w := by omega
  exact ⟨hxx, Nat.eq_of_mul_eq_mul_right hw hyy, by omega⟩

/-- The bytes of a pixel in memory. -/
def pixelByte (c : Rgb) (k : ℕ) : UInt8 :=
  [UInt8.ofNat c.b.toNat, UInt8.ofNat c.g.toNat, UInt8.ofNat c.r.toNat, 255].getD k 0

lemma mem_storePixel {dst : ℕ} {c : Rgb} {s : ℕ × UInt8} :
    s ∈ storePixel dst c ↔ ∃ k < 4, s = (dst + k, pixelByte c k) := by
  unfold storePixel
  constructor
  · intro hs
    simp only [List.mem_cons, List.not_mem_nil, or_false] at hs
    rcases hs with rfl | rfl | rfl | rfl
    · exact ⟨0, by omega, rfl⟩
    · exact ⟨1, by omega, rfl⟩
    · exact ⟨2, by omega, rfl⟩
    · exact ⟨3, by omega, rfl⟩
  · rintro ⟨k, hk, rfl⟩
    obtain rfl | rfl | rfl | rfl : k = 0 ∨ k = 1 ∨ k = 2 ∨ k = 3 := by omega
    all_goals simp [pixelByte]

variable {blocks : List UInt8} {w cols rows : ℕ}

/-- A store puts one byte of one pixel in its place. -/
lemma mem_decodeStores {s : ℕ × UInt8} : s ∈ decodeStores blocks w cols rows ↔
    ∃ by_ < rows, ∃ bx < cols, ∃ x < 4, ∃ y < 4, ∃ k < 4,
      s = (((by_ * 4 + y) * w + (bx * 4 + x)) * 4 + k,
        pixelByte (decodePixel (blockBits (blockAt blocks cols bx by_)) x y) k) := by
  simp only [decodeStores, decodeBlock, List.mem_flatMap, List.mem_range, mem_storePixel]

/-- **No store is outside of the image.** -/
theorem decodeStores_lt {s : ℕ × UInt8} (hs : s ∈ decodeStores blocks (cols * 4) cols rows) :
    s.1 < cols * 4 * (rows * 4) * 4 := by
  obtain ⟨by_, hby, bx, hbx, x, hx, y, hy, k, hk, rfl⟩ := mem_decodeStores.mp hs
  dsimp only
  have hrow : (by_ * 4 + y + 1) * (cols * 4) ≤ rows * 4 * (cols * 4) :=
    Nat.mul_le_mul_right _ (by omega)
  rw [add_mul, one_mul] at hrow
  rw [mul_comm (cols * 4)]
  omega

/-- **Every byte of every pixel is there in the end.** -/
lemma run_decodeStores {bx by_ x y k : ℕ} (hbx : bx < cols) (hby : by_ < rows) (hx : x < 4)
    (hy : y < 4) (hk : k < 4) :
    Scatter.run (fun _ => 0) (decodeStores blocks (cols * 4) cols rows)
        (((by_ * 4 + y) * (cols * 4) + (bx * 4 + x)) * 4 + k)
      = pixelByte (decodePixel (blockBits (blockAt blocks cols bx by_)) x y) k := by
  refine Scatter.run_eq (fun s hs hplace => ?_) (.inr ?_)
  · obtain ⟨by', hby', bx', hbx', x', hx', y', hy', k', hk', rfl⟩ := mem_decodeStores.mp hs
    obtain ⟨hX, hY, rfl⟩ := place_inj (by omega) (by omega) hk' hk hplace
    obtain ⟨rfl, rfl⟩ : bx' = bx ∧ x' = x := by omega
    obtain ⟨rfl, rfl⟩ : by' = by_ ∧ y' = y := by omega
    rfl
  · exact ⟨_, mem_decodeStores.mpr ⟨by_, hby, bx, hbx, x, hx, y, hy, k, hk, rfl⟩, rfl⟩

end Etc2

end Digitiz
