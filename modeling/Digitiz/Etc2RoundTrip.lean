import Digitiz.BlockFit

/-!
An image encoded and decoded again.

Block by block the decoder gets the number the encoder cut into bytes, and paints with what was
fitted. So the distance between the two images is, in every block, the error the encoder has
counted for the candidate it has written, and no other choice of split, mode, tables and indices
comes closer with the base colours it quantises.
-/

namespace Digitiz.Etc2

variable {bgra blocks out : List UInt8} {w h stride : ℤ} {bx by_ x y : ℕ}

/-- The pixels of a block, numbered column by column. -/
def sourceBlock (bgra : List UInt8) (stride : ℤ) (bx by_ : ℕ) : ℕ → Rgb :=
  fun p => pixelAt bgra stride (bx * 4 + p / 4) (by_ * 4 + p % 4)

/-! ### Blocks -/

lemma eq_of_encode (he : etc2Encode bgra w h stride = some blocks) :
    blocks = (List.range (h / 4).toNat).flatMap fun by_ =>
      (List.range (w / 4).toNat).flatMap fun bx => encodeBlock (sourceBlock bgra stride bx by_) := by
  unfold etc2Encode at he
  split_ifs at he
  exact (Option.some.inj he).symm

/-- A block is found where it was put. -/
lemma blockAt_encode (he : etc2Encode bgra w h stride = some blocks) (hbx : bx < (w / 4).toNat)
    (hby : by_ < (h / 4).toNat) {i : ℕ} (hi : i < 8) :
    blockAt blocks (w / 4).toNat bx by_ i
      = (writeBlock (chosen (sourceBlock bgra stride bx by_))).getD i 0 := by
  have hlen (bx by_ : ℕ) := length_encodeBlock (sourceBlock bgra stride bx by_)
  have hplace : (by_ * (w / 4).toNat + bx) * kEtc2BlockBytes + i
      = by_ * ((w / 4).toNat * 8) + (bx * 8 + i) := by
    unfold kEtc2BlockBytes
    ring
  unfold blockAt
  rw [eq_of_encode he, hplace, List.getD_eq_getElem?_getD, List.getD_eq_getElem?_getD,
    Scatter.getElem?_pieces (fun by_ => Scatter.length_pieces fun bx => hlen bx by_) hby (by omega),
    Scatter.getElem?_pieces (fun bx => hlen bx by_) hbx hi]
  rfl

/-- **The decoder gets the number the encoder has written.** -/
lemma blockBits_encode (he : etc2Encode bgra w h stride = some blocks) (hbx : bx < (w / 4).toNat)
    (hby : by_ < (h / 4).toNat) :
    blockBits (blockAt blocks (w / 4).toNat bx by_)
      = blockWord (chosen (sourceBlock bgra stride bx by_)) :=
  blockBits_writeBlock _ fun _ hi => blockAt_encode he hbx hby hi

/-! ### Pixels -/

lemma clamp255_range (v : ℤ) : 0 ≤ clamp255 v ∧ clamp255 v < 256 := by
  unfold clamp255
  omega

lemma toNat_channel {v : ℤ} (hv : 0 ≤ v ∧ v < 256) : ((UInt8.ofNat v.toNat).toNat : ℤ) = v := by
  have hlt : v.toNat < 2 ^ 8 := by omega
  rw [UInt8.toNat_ofNat_of_lt' hlt, Int.toNat_of_nonneg hv.1]

/-- A shade is read back from its bytes. -/
lemma rgb_pixelByte (c : Rgb) (m : ℤ) : (⟨((pixelByte (shade c m) 2).toNat : ℤ),
    (pixelByte (shade c m) 1).toNat, (pixelByte (shade c m) 0).toNat⟩ : Rgb) = shade c m := by
  have hchannel (v : ℤ) := toNat_channel (clamp255_range v)
  unfold shade Rgb.map pixelByte
  simp only [List.getD_cons_succ, List.getD_cons_zero, hchannel]

/-- A byte of the decoded image. -/
lemma getD_decode (hd : etc2Decode blocks w h = some out) (hbx : bx < (w / 4).toNat)
    (hby : by_ < (h / 4).toNat) (hx : x < 4) (hy : y < 4) {k : ℕ} (hk : k < 4) :
    out.getD (((by_ * 4 + y) * w.toNat + (bx * 4 + x)) * 4 + k) 0
      = pixelByte (decodePixel (blockBits (blockAt blocks (w / 4).toNat bx by_)) x y) k := by
  unfold etc2Decode at hd
  split_ifs at hd with hbad
  obtain rfl := Option.some.inj hd
  obtain ⟨cols, hcols⟩ : ∃ cols, cols = (w / 4).toNat := ⟨_, rfl⟩
  obtain ⟨rows, hrows⟩ : ∃ rows, rows = (h / 4).toNat := ⟨_, rfl⟩
  have hw : w.toNat = cols * 4 := by omega
  have hsize : (w * h * 4).toNat = cols * 4 * (rows * 4) * 4 := by
    rw [show w = ((cols * 4 : ℕ) : ℤ) by omega, show h = ((rows * 4 : ℕ) : ℤ) by omega]
    exact Int.toNat_natCast (cols * 4 * (rows * 4) * 4)
  rw [← hcols] at hbx ⊢
  rw [← hrows] at hby ⊢
  rw [hw, hsize]
  have hstore := decodeStores_lt (mem_decodeStores.mpr
    ⟨by_, hby, bx, hbx, x, hx, y, hy, k, hk, (rfl : (_, pixelByte (decodePixel (blockBits
      (blockAt blocks cols bx by_)) x y) k) = _)⟩)
  rw [List.getD_eq_getElem _ _ (by simpa using hstore), List.getElem_map, List.getElem_range]
  exact run_decodeStores hbx hby hx hy hk

/-- **A pixel of the decoded image.** -/
lemma pixelAt_decode (hd : etc2Decode blocks w h = some out) (hbx : bx < (w / 4).toNat)
    (hby : by_ < (h / 4).toNat) (hx : x < 4) (hy : y < 4) :
    pixelAt out (w * 4) (bx * 4 + x) (by_ * 4 + y)
      = decodePixel (blockBits (blockAt blocks (w / 4).toNat bx by_)) x y := by
  have hplace : (((by_ * 4 + y : ℕ) : ℤ) * (w * 4) + ((bx * 4 + x : ℕ) : ℤ) * 4).toNat
      = ((by_ * 4 + y) * w.toNat + (bx * 4 + x)) * 4 := by
    have hw : w = (w.toNat : ℤ) := by omega
    rw [hw, show (((by_ * 4 + y : ℕ) : ℤ) * ((w.toNat : ℤ) * 4) + ((bx * 4 + x : ℕ) : ℤ) * 4)
      = ((((by_ * 4 + y) * w.toNat + (bx * 4 + x)) * 4 : ℕ) : ℤ) by push_cast; ring]
    simp only [Int.toNat_natCast]
  have hbyte (k : ℕ) (hk : k < 4) := getD_decode hd hbx hby hx hy hk
  have hzero := hbyte 0 (by decide)
  rw [Nat.add_zero] at hzero
  unfold pixelAt
  dsimp only
  rw [hplace, hbyte 2 (by decide), hbyte 1 (by decide), hzero]
  exact rgb_pixelByte _ _

/-! ### The two of them together -/

/-- An image whose sides are multiples of four is encoded, and what comes out can be decoded. -/
lemma encode_decode (bgra : List UInt8) (stride : ℤ) (hw : 0 < w ∧ w % 4 = 0)
    (hh : 0 < h ∧ h % 4 = 0) : ∃ blocks out, etc2Encode bgra w h stride = some blocks ∧
      etc2Decode blocks w h = some out := by
  have hok : ¬(w ≤ 0 ∨ h ≤ 0 ∨ w % 4 ≠ 0 ∨ h % 4 ≠ 0) := by omega
  obtain ⟨blocks, hb⟩ : ∃ blocks, etc2Encode bgra w h stride = some blocks :=
    ⟨_, if_neg hok⟩
  have hsize : ¬ blocks.length < etc2Size w h := by
    rw [etc2Encode_length hb]
    exact lt_irrefl _
  exact ⟨blocks, _, hb, (if_neg hok).trans (if_neg hsize)⟩

/-- A decoded pixel is painted from the candidate that was written. -/
lemma pixelAt_encode {index : ℕ → ℕ} (he : etc2Encode bgra w h stride = some blocks)
    (hd : etc2Decode blocks w h = some out) (hbx : bx < (w / 4).toNat) (hby : by_ < (h / 4).toNat)
    (hf : (chosen (sourceBlock bgra stride bx by_)).Fits index) {p : ℕ} (hp : p < 16) :
    let c := chosen (sourceBlock bgra stride bx by_)
    let half := halfAt c.flip (p / 4) (p % 4)
    sourceBlock out (w * 4) bx by_ p
      = shade (ofHalf half c.base) (modifier (ofHalf half c.table) (index p)) := by
  have hx : p / 4 < 4 := by omega
  have hy : p % 4 < 4 := by omega
  unfold sourceBlock
  rw [pixelAt_decode hd hbx hby hx hy, blockBits_encode he hbx hby, hf.decodePixel_eq hx hy]
  rw [show p / 4 * 4 + p % 4 = p by omega]
  rfl

/-- **What the encoder counts is how far off the decoder is, and it could not be less.** Of every
block the squared distance between the image and what it is decoded to is the error of the
candidate that was written, which is the least over both splits, both modes with the base colours
quantised for them, all tables and all indices; and no table given up early was one to keep. -/
theorem decoded_error_isLeast (bgra : List UInt8) (stride : ℤ) (hw : 0 < w ∧ w % 4 = 0)
    (hh : 0 < h ∧ h % 4 = 0) :
    (∃ blocks out, etc2Encode bgra w h stride = some blocks ∧ etc2Decode blocks w h = some out ∧
      ∀ bx < (w / 4).toNat, ∀ by_ < (h / 4).toNat,
        let source := sourceBlock bgra stride bx by_
        let decoded := sourceBlock out (w * 4) bx by_
        (∀ i < 8, blockAt blocks (w / 4).toNat bx by_ i = (writeBlock (chosen source)).getD i 0) ∧
          ∑ p ∈ Finset.range 16, sqDist (decoded p) (source p) = (chosen source).error ∧
          IsLeast (Set.range (Choice.error source)) (chosen source).error) ∧
      ∀ pixels base, fitSubblock pixels base = fitSubblockWhole pixels base := by
  refine ⟨?_, fitSubblock_eq_whole⟩
  obtain ⟨blocks, out, he, hd⟩ := encode_decode bgra stride hw hh
  refine ⟨blocks, out, he, hd, fun bx hbx by_ hby => ?_⟩
  obtain ⟨index, hf⟩ := fitted_chosen (sourceBlock bgra stride bx by_)
  refine ⟨fun i hi => blockAt_encode he hbx hby hi, ?_, chosen_isLeast _⟩
  rw [hf.error]
  refine Finset.sum_congr rfl fun p hp => ?_
  rw [pixelAt_encode he hd hbx hby hf.fits (Finset.mem_range.mp hp), pixelError_eq]

/-- A single block of one colour. -/
theorem decoded_error_isLeast_black :
    ∃ blocks out, etc2Encode (List.replicate 64 0) 4 4 16 = some blocks ∧
      etc2Decode blocks 4 4 = some out ∧
        ∑ p ∈ Finset.range 16, sqDist (sourceBlock out 16 0 0 p)
          (sourceBlock (List.replicate 64 0) 16 0 0 p)
          = (chosen (sourceBlock (List.replicate 64 0) 16 0 0)).error := by
  obtain ⟨⟨blocks, out, he, hd, h⟩, -⟩ :=
    decoded_error_isLeast (List.replicate 64 0) 16 (show (0 : ℤ) < 4 ∧ 4 % 4 = 0 by decide)
      (show (0 : ℤ) < 4 ∧ 4 % 4 = 0 by decide)
  exact ⟨blocks, out, he, hd, (h 0 (by decide) 0 (by decide)).2.1⟩

end Digitiz.Etc2
