import Digitiz.SameBlock
import Digitiz.SentBatches

/-!
A batch comes out as the same bytes from the graphics card as from the processor.

The shader samples a tile from the capture's copy of the desktop, the processor from a box that
was read around some tiles. As long as the tile lies inside both they see the same pixels, so the
blocks are the same; and wherever a group's threads are in their work, a block is stored at the
place it has among the blocks of all tiles, so what comes back is those blocks in order.
-/

namespace Digitiz

open Rescale Etc2

/-! ### One pixel -/

namespace Sample

/-- The sums are sums of bytes. -/
def Small (s : Sample) : Prop := s.b ≤ 255 * s.n ∧ s.g ≤ 255 * s.n ∧ s.r ≤ 255 * s.n

lemma Small.add {s : Sample} (h : s.Small) (p : Pixel) : (s.add p).Small := by
  have hb := p.b.toNat_lt
  have hg := p.g.toNat_lt
  have hr := p.r.toNat_lt
  unfold Small Sample.add at *
  dsimp only
  omega

lemma small_desktopBox (image : Image) (r : Recti) (x0 x1 y0 y1 : ℤ) :
    (desktopBox image r x0 x1 y0 y1).Small := by
  refine List.foldlRecOn _ _ (by simp [Small]) fun s hs y _ => ?_
  refine List.foldlRecOn _ _ hs fun s hs x _ => ?_
  split_ifs
  · exact hs.add _
  · exact hs

/-- The average, as a colour. -/
def rgb (s : Sample) : Rgb := ⟨(s.r / max s.n 1 : ℕ), (s.g / max s.n 1 : ℕ), (s.b / max s.n 1 : ℕ)⟩

/-- An average of bytes is a byte, so nothing is lost in storing it as one. -/
lemma Small.bytes_eq {s : Sample} (h : s.Small) :
    (⟨(s.bytes.getD 2 0).toNat, (s.bytes.getD 1 0).toNat, (s.bytes.getD 0 0).toNat⟩ : Rgb)
      = s.rgb := by
  obtain ⟨hb, hg, hr⟩ := h
  have hn : (if s.n = 0 then 1 else s.n) = max s.n 1 := by split_ifs <;> omega
  have hlt {v : ℕ} (hv : v ≤ 255 * s.n) : (UInt8.ofNat (v / max s.n 1)).toNat = v / max s.n 1 := by
    refine UInt8.toNat_ofNat_of_lt' ?_
    refine (Nat.div_lt_iff_lt_mul (by omega)).mpr ?_
    have h1 : s.n ≤ max s.n 1 := le_max_left _ _
    have h2 : 1 ≤ max s.n 1 := le_max_right _ _
    unfold UInt8.size
    omega
  unfold bytes rgb
  rw [hn]
  simp only [List.getD_cons_zero, List.getD_cons_succ, hlt hb, hlt hg, hlt hr]

end Sample

lemma intRange_add (a b k : ℤ) : intRange (k + a) (k + b) = (intRange a b).map (k + ·) := by
  have h := intRange_sub a b (-k)
  simp only [sub_neg_eq_add, add_comm _ k] at h
  exact h

/-- What the shader sums is what lies on the desktop, as far as the capture and what was read
reach. -/
lemma loadBox_eq {image : Image} {bounds r : Recti} {x y x0 x1 y0 y1 : ℤ}
    (hin : ∀ sx sy, x0 ≤ sx ∧ sx < x1 → y0 ≤ sy ∧ sy < y1 →
      bounds.contains (x + sx) (y + sy) = true ∧ r.contains (x + sx) (y + sy) = true) :
    Etc2Compute.loadBox (desktopTexture image bounds) (x - bounds.x) (y - bounds.y) x0 x1 y0 y1
      = desktopBox image r (x + x0) (x + x1) (y + y0) (y + y1) := by
  unfold Etc2Compute.loadBox desktopBox
  rw [intRange_add y0, List.foldl_map]
  refine List.foldl_ext _ _ _ fun s sy hsy => ?_
  rw [intRange_add x0, List.foldl_map]
  refine List.foldl_ext _ _ _ fun s sx hsx => ?_
  obtain ⟨hb, hr⟩ := hin sx sy (mem_intRange.mp hsx) (mem_intRange.mp hsy)
  rw [if_pos hr]
  rw [Recti.contains_iff] at hb
  unfold Texture2D.load desktopTexture
  dsimp only
  rw [if_pos (by omega), show bounds.x + (x - bounds.x + sx) = x + sx by ring,
    show bounds.y + (y - bounds.y + sy) = y + sy by ring]

/-! ### One tile -/

/-- A tile's pixels as they are gathered from what was read, the tile given as a job. -/
def gatherJob (readRect : Recti) (pixels : ℤ → ℤ → Pixel) (job : TileJob) :
    Option (ℤ × ℤ × List UInt8) :=
  if job.outW ≤ 0 ∨ job.outH ≤ 0 then none
  else
    some (job.outW, job.outH, (intRange 0 job.outH).flatMap fun y =>
      let sy0 := job.src.y - readRect.y + y * job.src.h / job.outH
      let sy1 := max (sy0 + 1) (job.src.y - readRect.y + (y + 1) * job.src.h / job.outH)
      (intRange 0 job.outW).flatMap fun x =>
        let sx0 := job.src.x - readRect.x + x * job.src.w / job.outW
        let sx1 := max (sx0 + 1) (job.src.x - readRect.x + (x + 1) * job.src.w / job.outW)
        (sampleBox pixels readRect sx0 sx1 sy0 sy1).bytes)

/-- A job as the processor does it. -/
def encodeJob (readRect : Recti) (image : Image) (job : TileJob) : Option (List UInt8) :=
  (gatherJob readRect (readBox image readRect) job).bind fun t =>
    etc2Encode t.2.2 t.1 t.2.1 (t.1 * 4)

/-- For a tile of a grid that is what the sender does. -/
lemma encodeJob_job (g : ViewportGeometry) (readRect : Recti) (image : Image) (t : UInt16) :
    encodeJob readRect image (FrameSender.job g t) = encodeTile g readRect image t.toNat := rfl

lemma encodeJob_length {readRect : Recti} {image : Image} {job : TileJob} {blocks : List UInt8}
    (h : encodeJob readRect image job = some blocks) :
    blocks.length = etc2Size job.outW job.outH := by
  unfold encodeJob gatherJob at h
  split_ifs at h
  · cases h
  · exact etc2Encode_length h

/-- A pixel of rows of pixels of four bytes each. -/
lemma pixelAt_rows {f : ℕ → ℕ → List UInt8} (hf : ∀ y x, (f y x).length = 4) {w h x y : ℕ}
    (hx : x < w) (hy : y < h) :
    pixelAt ((List.range h).flatMap fun y => (List.range w).flatMap fun x => f y x)
        ((w : ℤ) * 4) x y
      = ⟨((f y x).getD 2 0).toNat, ((f y x).getD 1 0).toNat, ((f y x).getD 0 0).toNat⟩ := by
  have hp : ((y : ℤ) * (w * 4) + x * 4).toNat = y * (w * 4) + x * 4 := by
    rw [show (y : ℤ) * (w * 4) + x * 4 = ((y * (w * 4) + x * 4 : ℕ) : ℤ) by push_cast; ring,
      Int.toNat_natCast]
  have hget (k : ℕ) (hk : k < 4) :
      ((List.range h).flatMap fun y => (List.range w).flatMap fun x => f y x).getD
        (y * (w * 4) + x * 4 + k) 0 = (f y x).getD k 0 := by
    rw [List.getD_eq_getElem?_getD, List.getD_eq_getElem?_getD, add_assoc,
      Scatter.getElem?_pieces (fun y => Scatter.length_pieces (hf y)) hy (by omega),
      Scatter.getElem?_pieces (hf y) hx hk]
  unfold pixelAt
  dsimp only
  rw [hp, hget 2 (by decide), hget 1 (by decide)]
  exact congrArg (Rgb.mk _ _) (congrArg (fun b : UInt8 => (b.toNat : ℤ)) (hget 0 (by decide)))

/-- What goes into one pixel of a tile, seen from the desktop. -/
def jobSample (image : Image) (r : Recti) (job : TileJob) (x y : ℤ) : Sample :=
  desktopBox image r (job.src.x + x * job.src.w / job.outW)
    (job.src.x + max (x * job.src.w / job.outW + 1) ((x + 1) * job.src.w / job.outW))
    (job.src.y + y * job.src.h / job.outH)
    (job.src.y + max (y * job.src.h / job.outH + 1) ((y + 1) * job.src.h / job.outH))

lemma gatherJob_eq (image : Image) (r : Recti) {job : TileJob} (hw : 0 < job.outW)
    (hh : 0 < job.outH) :
    gatherJob r (readBox image r) job = some (job.outW, job.outH,
      (List.range job.outH.toNat).flatMap fun y : ℕ =>
        (List.range job.outW.toNat).flatMap fun x : ℕ => (jobSample image r job x y).bytes) := by
  unfold gatherJob
  rw [if_neg (by omega)]
  simp only [sampleBox_offset, intRange, List.flatMap_map, sub_zero, zero_add]
  rfl

open FrameSender in
/-- The shader's pixel is the one that was gathered. -/
lemma boxAverage_eq {image : Image} {bounds r : Recti} {job : TileJob} {x y : ℤ}
    (hsrc : 0 < job.src.w ∧ 0 < job.src.h) (hb : Within job.src bounds) (hr : Within job.src r)
    (hx : 0 ≤ x ∧ x < job.outW) (hy : 0 ≤ y ∧ y < job.outH) :
    Etc2Compute.boxAverage (desktopTexture image bounds) (inside bounds job) x y
      = (jobSample image r job x y).rgb := by
  have hsx := share_bounds hx.1 hx.2 hsrc.1
  have hsy := share_bounds hy.1 hy.2 hsrc.2
  refine congrArg Sample.rgb (loadBox_eq fun sx sy hsx' hsy' => ?_)
  unfold Within at hb hr
  rw [Recti.contains_iff, Recti.contains_iff]
  dsimp only [inside] at hsx' hsy'
  omega

/-- Only the sixteen pixels of a block count. -/
lemma encodeBlock_congr {block block' : ℕ → Rgb} (h : ∀ i < 16, block i = block' i) :
    encodeBlock block = encodeBlock block' := by
  have hhalf (flip half : ℕ) : halfOf block flip half = halfOf block' flip half := by
    have hmap : (subblockPixels flip half).map block = (subblockPixels flip half).map block' :=
      List.map_congr_left fun p hp => h p (subblockPixels_lt hp)
    unfold halfOf
    rw [hmap]
  simp only [encodeBlock, hhalf]

/-- A block of a tile. -/
def jobBlock (image : Image) (r : Recti) (job : TileJob) (bx by_ : ℕ) : List UInt8 :=
  encodeBlock fun i =>
    (jobSample image r job ((bx * 4 + i / 4 : ℕ) : ℤ) ((by_ * 4 + i % 4 : ℕ) : ℤ)).rgb

lemma takes_iff {job : TileJob} : Etc2ComputeEncoder.takes job = true ↔
    (0 < job.outW ∧ job.outW % 4 = 0) ∧ (0 < job.outH ∧ job.outH % 4 = 0) ∧
      0 < job.src.w ∧ 0 < job.src.h := by
  simp only [Etc2ComputeEncoder.takes, Bool.not_eq_true', decide_eq_false_iff_not]
  omega

/-- **A job is done block by block.** -/
lemma encodeJob_eq (image : Image) (r : Recti) {job : TileJob}
    (ht : Etc2ComputeEncoder.takes job = true) :
    encodeJob r image job = some ((List.range (job.outH / 4).toNat).flatMap fun by_ =>
      (List.range (job.outW / 4).toNat).flatMap fun bx => jobBlock image r job bx by_) := by
  obtain ⟨⟨hw, hw4⟩, ⟨hh, hh4⟩, -⟩ := takes_iff.mp ht
  unfold encodeJob
  rw [gatherJob_eq image r hw hh, Option.bind_some]
  unfold etc2Encode
  rw [if_neg (by dsimp only; omega)]
  refine congrArg some (List.flatMap_congr fun by_ hby => List.flatMap_congr fun bx hbx => ?_)
  rw [List.mem_range] at hby hbx
  refine encodeBlock_congr fun i hi => ?_
  have hcast : job.outW * 4 = (job.outW.toNat : ℤ) * 4 := by omega
  dsimp only at hby hbx ⊢
  rw [hcast, pixelAt_rows (fun _ _ => rfl) (by omega) (by omega)]
  exact (Sample.small_desktopBox _ _ _ _ _ _).bytes_eq

/-! ### One group -/

section Group

open Etc2Compute Scatter

lemma lays_storeBytes (address : ℕ) (l : List UInt8) : Lays (storeBytes address l) address l := by
  induction l generalizing address with
  | nil => exact Lays.nil
  | cons b l ih => exact (ih (address + 1)).cons

lemma length_jobBlock (image : Image) (r : Recti) (job : TileJob) (bx by_ : ℕ) :
    (jobBlock image r job bx by_).length = 8 := length_encodeBlock _

variable {image : Image} {bounds r : Recti} {job : TileJob} {base : ℕ}

/-- Addresses are not cut short as long as they fit their word. -/
lemma toNat_address {blk : ℕ} (h : base + blk * 8 < 2 ^ 32) :
    (UInt32.ofNat base + UInt32.ofNat blk * 8).toNat = base + blk * 8 := by
  simp only [UInt32.toNat_add, UInt32.toNat_mul, UInt32.toNat_ofNat', UInt32.toNat_ofNat,
    Nat.reducePow, Nat.reduceMod]
  omega

open FrameSender in
/-- A block is stored where it belongs. -/
lemma lays_storeBlock (hsrc : 0 < job.src.w ∧ 0 < job.src.h) (hb : Within job.src bounds)
    (hr : Within job.src r) {bx by_ : ℕ} (hbx : bx < (job.outW / 4).toNat)
    (hby : by_ < (job.outH / 4).toNat)
    (hfit : base + (by_ * (job.outW / 4).toNat + bx) * 8 < 2 ^ 32) :
    Lays (storeBlock (desktopTexture image bounds) ⟨inside bounds job, UInt32.ofNat base⟩
        (by_ * (job.outW / 4).toNat + bx))
      (base + (by_ * (job.outW / 4).toNat + bx) * 8) (jobBlock image r job bx by_) := by
  have hmod : (by_ * (job.outW / 4).toNat + bx) % (job.outW / 4).toNat = bx :=
    Nat.mul_add_mod_of_lt hbx
  have hdiv : (by_ * (job.outW / 4).toNat + bx) / (job.outW / 4).toNat = by_ := by
    rw [add_comm, Nat.add_mul_div_right _ _ (by omega), Nat.div_eq_of_lt hbx, zero_add]
  have hblock : jobBlock image r job bx by_ = encodeBlock fun i =>
      boxAverage (desktopTexture image bounds) (inside bounds job) ((bx * 4 + i / 4 : ℕ) : ℤ)
        ((by_ * 4 + i % 4 : ℕ) : ℤ) :=
    encodeBlock_congr fun i hi =>
      (boxAverage_eq hsrc hb hr (by omega) (by omega)).symm
  unfold storeBlock store2
  dsimp only
  rw [toNat_address hfit, hblock, ← bytes_choose]
  simp only [inside, hmod, hdiv]
  exact lays_storeBytes _ _

/-- Blocks are numbered row by row. -/
lemma block_index_lt {bx by_ cols rows : ℕ} (hbx : bx < cols) (hby : by_ < rows) :
    by_ * cols + bx < cols * rows :=
  calc by_ * cols + bx < by_ * cols + cols := Nat.add_lt_add_left hbx _
    _ = (by_ + 1) * cols := by ring
    _ ≤ rows * cols := Nat.mul_le_mul_right _ hby
    _ = cols * rows := mul_comm _ _

open FrameSender in
/-- **A group lays down its tile**, whatever thread does which of its blocks. -/
lemma lays_group (ht : Etc2ComputeEncoder.takes job = true) (hb : Within job.src bounds)
    (hr : Within job.src r) (hfit : base + etc2Size job.outW job.outH ≤ 2 ^ 32)
    {blocks : List UInt8} (hj : encodeJob r image job = some blocks) :
    Lays ((List.range kThreads).flatMap
        (main (desktopTexture image bounds) ⟨inside bounds job, UInt32.ofNat base⟩))
      base blocks := by
  rw [encodeJob_eq image r ht] at hj
  obtain rfl := Option.some.inj hj
  obtain ⟨⟨hw, -⟩, ⟨hh, -⟩, hsrc⟩ := takes_iff.mp ht
  rw [etc2Size, if_neg (by omega)] at hfit
  unfold kEtc2BlockSize kEtc2BlockBytes at hfit
  have hrows : Lays ((List.range (job.outH / 4).toNat).flatMap fun by_ =>
      (List.range (job.outW / 4).toNat).flatMap fun bx =>
        storeBlock (desktopTexture image bounds) ⟨inside bounds job, UInt32.ofNat base⟩
          (by_ * (job.outW / 4).toNat + bx)) base
      ((List.range (job.outH / 4).toNat).flatMap fun by_ =>
        (List.range (job.outW / 4).toNat).flatMap fun bx => jobBlock image r job bx by_) := by
    refine Lays.range (fun _ => length_pieces fun _ => length_jobBlock ..) fun by_ hby => ?_
    refine Lays.range (fun _ => length_jobBlock ..) fun bx hbx => ?_
    have hlt : by_ * (job.outW / 4).toNat + bx < (job.outW / 4).toNat * (job.outH / 4).toNat :=
      block_index_lt hbx hby
    rw [show base + by_ * ((job.outW / 4).toNat * 8) + bx * 8
      = base + (by_ * (job.outW / 4).toNat + bx) * 8 by ring]
    exact lays_storeBlock hsrc hb hr hbx hby (by omega)
  refine hrows.of_mem_iff fun s => ?_
  unfold main
  dsimp only
  rw [← List.flatMap_assoc]
  simp only [List.mem_flatMap, mem_workers (show 0 < kThreads by decide), List.mem_range]
  constructor
  · rintro ⟨blk, hblk, hs⟩
    have hcols : 0 < (job.outW / 4).toNat := Nat.pos_of_mul_pos_right (Nat.zero_lt_of_lt hblk)
    refine ⟨blk / (job.outW / 4).toNat, Nat.div_lt_of_lt_mul hblk,
      blk % (job.outW / 4).toNat, Nat.mod_lt _ hcols, ?_⟩
    rwa [mul_comm, Nat.div_add_mod]
  · rintro ⟨by_, hby, bx, hbx, hs⟩
    exact ⟨_, block_index_lt hbx hby, hs⟩

/-! ### The whole batch -/

open Etc2ComputeEncoder FrameSender

/-- The batches the capture takes: there is something to do, all of it lies inside, the shader can
do it and there is room for it. -/
structure Accepts (d : Device) (bounds : Recti) (jobs : List TileJob) : Prop where
  nonempty : jobs ≠ []
  inside : ∀ j ∈ jobs, Within j.src bounds
  takes : ∀ j ∈ jobs, takes j = true
  buffers : d.hasBuffers jobs.length (totalBytes jobs) = true

/-- What comes back for a batch that is taken. -/
def stored (d : Device) (image : Image) (bounds : Recti) (jobs : List TileJob) : List UInt8 :=
  (List.range (totalBytes jobs)).map (run d.memory (d.schedule
    (dispatch (desktopTexture image bounds) (pack 0 (jobs.map (inside bounds))))))

lemma Etc2ComputeEncoder.encode_eq_some {d : Device} {source : Texture2D} {jobs : List TileJob}
    {blocks : List UInt8} :
    encode d source jobs = some blocks ↔ jobs ≠ [] ∧ (∀ j ∈ jobs, takes j = true) ∧
      d.hasBuffers jobs.length (totalBytes jobs) = true ∧
      (List.range (totalBytes jobs)).map
        (run d.memory (d.schedule (dispatch source (pack 0 jobs)))) = blocks := by
  have hany : (jobs.any fun j => !takes j) = true ↔ ¬∀ j ∈ jobs, takes j = true := by simp
  unfold encode
  split_ifs with hbad hbuf
  · rw [hany] at hbad
    refine ⟨False.elim, fun h => ?_⟩
    exact (hbad.elim h.1 fun hn => hn h.2.1).elim
  · rw [Bool.not_eq_true'] at hbuf
    simp [hbuf]
  · rw [hany, not_or, not_not] at hbad
    simp only [Bool.not_eq_true', Bool.not_eq_false] at hbuf
    simp only [Option.some.injEq]
    exact ⟨fun h => ⟨hbad.1, hbad.2, hbuf, h⟩, fun h => h.2.2.2⟩

lemma encodeTiles_eq_stored (d : Device) (image : Image) (bounds : Recti) {jobs : List TileJob}
    {blocks : List UInt8} :
    (DxgiFrameSource d image bounds).encodeTiles jobs = some blocks ↔
      Accepts d bounds jobs ∧ stored d image bounds jobs = blocks := by
  have htotal : totalBytes (jobs.map (inside bounds)) = totalBytes jobs := by
    simp [totalBytes, inside, Function.comp_def]
  rw [encodeTiles_eq_some rfl, encode_eq_some,
    show (DxgiFrameSource d image bounds).bounds = bounds from rfl, htotal, List.length_map]
  constructor
  · rintro ⟨hne, hin, -, htk, hbuf, rfl⟩
    exact ⟨⟨hne, hin, fun j hj => htk (inside bounds j) (List.mem_map_of_mem hj), hbuf⟩, rfl⟩
  · rintro ⟨⟨hne, hin, htk, hbuf⟩, rfl⟩
    refine ⟨hne, hin, by simpa using hne, fun j hj => ?_, hbuf, rfl⟩
    obtain ⟨i, hi, rfl⟩ := List.mem_map.mp hj
    exact htk i hi

/-- **The tiles are laid down one behind the other**, from any offset on. -/
lemma lays_dispatch {batch : List (TileJob × Recti)}
    (h : ∀ p ∈ batch, takes p.1 = true ∧ Within p.1.src bounds ∧ Within p.1.src p.2)
    (hfit : base + totalBytes (batch.map Prod.fst) ≤ 2 ^ 32) :
    ∃ blocks, (batch.mapM fun p => encodeJob p.2 image p.1).map List.flatten = some blocks ∧
      blocks.length = totalBytes (batch.map Prod.fst) ∧
      Lays (dispatch (desktopTexture image bounds)
        (pack base (batch.map fun p => inside bounds p.1))) base blocks := by
  induction batch generalizing base with
  | nil => exact ⟨[], rfl, rfl, Lays.nil⟩
  | cons p batch ih =>
    obtain ⟨ht, hb, hr⟩ := h p List.mem_cons_self
    obtain ⟨part, hpart⟩ : ∃ part, encodeJob p.2 image p.1 = some part :=
      ⟨_, encodeJob_eq image p.2 ht⟩
    have hlen := encodeJob_length hpart
    have hsum : totalBytes ((p :: batch).map Prod.fst)
        = etc2Size p.1.outW p.1.outH + totalBytes (batch.map Prod.fst) := by
      simp [totalBytes]
    rw [hsum] at hfit ⊢
    obtain ⟨blocks, hmap, hl, hlays⟩ := ih (fun q hq => h q (List.mem_cons_of_mem _ hq))
      (show base + etc2Size p.1.outW p.1.outH + totalBytes (batch.map Prod.fst) ≤ 2 ^ 32 by omega)
    obtain ⟨parts, hparts, rfl⟩ := Option.map_eq_some_iff.mp hmap
    refine ⟨part ++ parts.flatten, ?_, by rw [List.length_append, hlen, hl], ?_⟩
    · rw [List.mapM_cons, hpart, hparts]
      rfl
    · refine (lays_group ht hb hr (by omega) hpart).append ?_
      rw [hlen]
      exact hlays

/-- Of a tile inside the bounds all is read. -/
lemma within_selectionBox {g : ViewportGeometry} {tiles : List UInt16} {box : Recti} {t : UInt16}
    (h : selectionBox g bounds tiles = some box) (ht : t ∈ tiles)
    (hpos : 0 < (g.tileSourceRect t.toNat).w ∧ 0 < (g.tileSourceRect t.toNat).h)
    (hin : Within (g.tileSourceRect t.toNat) bounds) :
    Within (g.tileSourceRect t.toNat) box := by
  obtain ⟨around, ha, hc⟩ := Option.bind_eq_some_iff.mp h
  have hw := (within_foldl_extend ha).2 t ht hpos.1 hpos.2
  unfold clip at hc
  dsimp only at hc
  split_ifs at hc
  obtain rfl := Option.some.inj hc
  unfold Within at *
  dsimp only
  omega

variable {d : Device} {jobs : List TileJob}

/-- What comes back is the blocks of the jobs in order, whatever was read around them. -/
lemma mapM_encodeJob (ha : Accepts d bounds jobs) (hsize : totalBytes jobs ≤ 2 ^ 32)
    {batch : List (TileJob × Recti)} (hb : batch.map Prod.fst = jobs)
    (hw : ∀ p ∈ batch, Within p.1.src p.2) :
    (batch.mapM fun p => encodeJob p.2 image p.1).map List.flatten
      = some (stored d image bounds jobs) := by
  have hmem (p : TileJob × Recti) (hp : p ∈ batch) : p.1 ∈ jobs := hb ▸ List.mem_map_of_mem hp
  obtain ⟨blocks, hmap, hlen, hlays⟩ := lays_dispatch
    (fun p hp => ⟨ha.takes _ (hmem p hp), ha.inside _ (hmem p hp), hw p hp⟩)
    (show 0 + totalBytes (batch.map Prod.fst) ≤ 2 ^ 32 by rw [hb]; omega)
  have hread := hlays.read_run (d.perm _) d.memory
  rw [hmap, ← hread, hlen, hb]
  simp only [zero_add]
  rw [stored, ← hb, List.map_map]
  rfl

/-- The same for the tiles of a grid. -/
lemma mapM_encodeTile (ha : Accepts d bounds jobs) (hsize : totalBytes jobs ≤ 2 ^ 32)
    {g : ViewportGeometry} {batch : List (UInt16 × Recti)}
    (hb : FrameSender.jobs g (batch.map Prod.fst) = jobs)
    (hw : ∀ p ∈ batch, FrameSender.job g p.1 ∈ jobs → Within (g.tileSourceRect p.1.toNat) p.2) :
    (batch.mapM fun p => encodeTile g p.2 image p.1.toNat).map List.flatten
      = some (stored d image bounds jobs) := by
  have hmap : batch.map (fun p => FrameSender.job g p.1) = jobs := by
    unfold FrameSender.jobs at hb
    split_ifs at hb
    · exact absurd hb.symm ha.nonempty
    · rwa [List.map_map] at hb
  have hw' : ∀ q ∈ batch.map (fun p => (FrameSender.job g p.1, p.2)), Within q.1.src q.2 := by
    intro q hq
    obtain ⟨p, hp, rfl⟩ := List.mem_map.mp hq
    exact hw p hp (hmap ▸ List.mem_map_of_mem hp)
  have h := @mapM_encodeJob image _ _ _ ha hsize _ (by rwa [List.map_map]) hw'
  simp only [List.mapM_map, Function.comp_def, encodeJob_job] at h
  exact h

/-- **The graphics card and the processor produce the same bytes.** Whatever batch the capture
takes, and in whatever order the threads get to their stores, what comes back is the blocks of the
jobs in order, as they are gathered and encoded from any rectangles that were read around them;
for the tiles of a grid, from the box around any selection each of them may have been in. -/
theorem encodeTiles_same (d : Device) (image : Image) (bounds : Recti) {jobs : List TileJob}
    {blocks : List UInt8} (h : (DxgiFrameSource d image bounds).encodeTiles jobs = some blocks)
    (hsize : totalBytes jobs ≤ 2 ^ 32) :
    (∀ batch : List (TileJob × Recti), batch.map Prod.fst = jobs →
      (∀ p ∈ batch, Within p.1.src p.2) →
        (batch.mapM fun p => encodeJob p.2 image p.1).map List.flatten = some blocks) ∧
    ∀ (g : ViewportGeometry) (batch : List (UInt16 × Recti)),
      FrameSender.jobs g (batch.map Prod.fst) = jobs →
      (∀ p ∈ batch, ∃ selected, p.1 ∈ selected ∧ selectionBox g bounds selected = some p.2) →
        (batch.mapM fun p => encodeTile g p.2 image p.1.toNat).map List.flatten = some blocks := by
  obtain ⟨ha, rfl⟩ := (encodeTiles_eq_stored d image bounds).mp h
  refine ⟨fun batch hb hw => mapM_encodeJob ha hsize hb hw, fun g batch hb hsel => ?_⟩
  refine mapM_encodeTile ha hsize hb fun p hp hjob => ?_
  obtain ⟨selected, hmem, hbox⟩ := hsel p hp
  exact within_selectionBox hbox hmem (takes_iff.mp (ha.takes _ hjob)).2.2 (ha.inside _ hjob)

/-- A card that gets to its stores in the opposite order. -/
def lastFirst : Device where
  hasBuffers _ _ := true
  memory _ := 0
  schedule := List.reverse
  perm := List.reverse_perm

def slope : Image := fun x y => ⟨UInt8.ofInt x, UInt8.ofInt y, 7, 0⟩

/-- Two tiles on the card, against one of them read on its own and one with the other. -/
theorem sideBySide_same : ∃ blocks,
    (DxgiFrameSource lastFirst slope ⟨-4, 0, 24, 20⟩).encodeTiles
      (FrameSender.jobs sideBySide [1, 0]) = some blocks ∧
    ([(1, ⟨0, 2, 4, 4⟩), (0, ⟨-4, 2, 8, 4⟩)].mapM fun p : UInt16 × Recti =>
      encodeTile sideBySide p.2 slope p.1.toNat).map List.flatten = some blocks := by
  have ha : Accepts lastFirst ⟨-4, 0, 24, 20⟩ (FrameSender.jobs sideBySide [1, 0]) := by
    have hjobs : FrameSender.jobs sideBySide [1, 0]
        = [⟨⟨0, 2, 4, 4⟩, 8, 8⟩, ⟨⟨-4, 2, 4, 4⟩, 8, 8⟩] := by decide
    rw [hjobs]
    exact ⟨by decide, by simp [Within], by decide, rfl⟩
  have h := (encodeTiles_eq_stored lastFirst slope ⟨-4, 0, 24, 20⟩).mpr ⟨ha, rfl⟩
  refine ⟨_, h, (encodeTiles_same _ _ _ h (by decide)).2 sideBySide _ rfl fun p hp => ?_⟩
  simp only [List.mem_cons, List.not_mem_nil, or_false] at hp
  obtain rfl | rfl := hp
  · exact ⟨[1], by decide, by decide⟩
  · exact ⟨[1, 0], by decide, by decide⟩

/-! ### With or without a card -/

lemma clip_of_within {box : Recti} (h : Within box bounds) (hw : 0 < box.w) (hh : 0 < box.h) :
    clip box bounds = some box := by
  unfold Within at h
  have hx : max box.x bounds.x = box.x := by omega
  have hy : max box.y bounds.y = box.y := by omega
  have hx' : min (box.x + box.w) (bounds.x + bounds.w) = box.x + box.w := by omega
  have hy' : min (box.y + box.h) (bounds.y + bounds.h) = box.y + box.h := by omega
  unfold clip
  rw [hx, hy, hx', hy', if_neg (by omega), add_sub_cancel_left, add_sub_cancel_left]

lemma mapM_eq_some {α β : Type} {f : α → Option β} {h : α → β} {l : List α}
    (hf : ∀ a ∈ l, f a = some (h a)) : l.mapM f = some (l.map h) := by
  induction l with
  | nil => rfl
  | cons a l ih =>
    rw [List.mapM_cons, hf a List.mem_cons_self, ih fun b hb => hf b (List.mem_cons_of_mem _ hb)]
    rfl

/-- A capture with a card tells the size of its batches right. -/
lemma sizes_DxgiFrameSource (d : Device) (image : Image) (bounds : Recti) :
    Sizes (DxgiFrameSource d image bounds) := by
  refine sizes_of_encodeTiles fun g tiles blocks hv ht he => ?_
  obtain ⟨-, rfl⟩ := (encodeTiles_eq_stored d image bounds).mp he
  rw [stored, List.length_map, List.length_range, jobs_eq hv ht, totalBytes, List.map_map]
  rfl

/-- For the tiles of a grid what comes back is their own blocks. -/
lemma stored_jobs {g : ViewportGeometry} {tiles : List UInt16} (hv : g.valid = true)
    (ht : InGrid g tiles) (ha : Accepts d bounds (FrameSender.jobs g tiles))
    (hsize : totalBytes (FrameSender.jobs g tiles) ≤ 2 ^ 32) :
    stored d image bounds (FrameSender.jobs g tiles)
      = tiles.flatMap fun t => tileBlocks bounds image g t.toNat := by
  have hfst : (tiles.map fun t => (t, bounds)).map Prod.fst = tiles := by
    rw [List.map_map]
    exact List.map_id tiles
  have hall : (tiles.map fun t => (t, bounds)).mapM
      (fun p => encodeTile g p.2 image p.1.toNat)
        = some (tiles.map fun t => tileBlocks bounds image g t.toNat) := by
    rw [List.mapM_map]
    exact mapM_eq_some fun t hmem => encodeTile_eq bounds image hv (ht t hmem)
  have h := @mapM_encodeTile image _ _ _ ha hsize g _ (by rw [hfst]) fun p hp hjob => by
    obtain ⟨t, -, rfl⟩ := List.mem_map.mp hp
    exact ha.inside _ hjob
  rw [hall, Option.map_some, ← List.flatMap_def] at h
  exact (Option.some.inj h).symm

/-- **The batch is the same with a card as without one.** Where the capture takes the tiles they
are the same bytes, and where it does not they are read and encoded here. -/
theorem encodeSelection_card (d : Device) (image : Image) (bounds : Recti) {g : ViewportGeometry}
    {tiles : List UInt16} (hv : g.valid = true) (ht : InGrid g tiles)
    (hsize : totalBytes (FrameSender.jobs g tiles) ≤ 2 ^ 32) :
    encodeSelection (DxgiFrameSource d image bounds) g tiles
      = encodeSelection (imageSource bounds image) g tiles := by
  have hhere : encodeSelection (imageSource bounds image) g tiles
      = (selectionBox g bounds tiles).map fun box =>
        (tiles, (encodeHere g box (readBox image box) tiles).flatMap Prod.snd) := by
    cases hb : selectionBox g bounds tiles with
    | none => simp [encodeSelection, imageSource, FrameSource.encodeTiles, hb]
    | some box =>
      simp [encodeSelection, imageSource, FrameSource.encodeTiles, hb, encodeHere_fst hv ht]
  cases he : (DxgiFrameSource d image bounds).encodeTiles (FrameSender.jobs g tiles) with
  | none =>
    rw [hhere]
    unfold encodeSelection
    rw [he]
    dsimp only [DxgiFrameSource]
    cases hb : selectionBox g bounds tiles with
    | none => rfl
    | some box =>
      obtain ⟨hin, hw, hh⟩ := within_of_selectionBox hb
      simp [clip_of_within hin hw hh, encodeHere_fst hv ht]
  | some blocks =>
    obtain ⟨ha, rfl⟩ := (encodeTiles_eq_stored d image bounds).mp he
    obtain ⟨t, hmem, hvis⟩ := visible_of_encodeTiles hv ht he
    obtain ⟨box, hbox⟩ := Option.isSome_iff_exists.mp (selectionBox_of_visible hv ht hmem hvis)
    change selectionBox g bounds tiles = some box at hbox
    rw [hbox, Option.map_some] at hhere
    have hpayload := encodeSelection_imageSource hv ht hhere
    rw [hhere, hpayload, ← stored_jobs hv ht ha hsize]
    unfold encodeSelection
    rw [he]

end Group

end Digitiz
