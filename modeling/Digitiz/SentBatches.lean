import Mathlib.Algebra.Order.BigOperators.Group.List
import Digitiz.Reassembly
import Digitiz.Sweep

/-!
A batch the sender sends is one the receiver can take.

The grid is never so large that the tiles of a batch do not fit one message, or its bytes the
32 bits they are counted in; and what the message says of the grid gives the same grid back on
the other side, as long as the size of a tile fits the byte it travels in.
-/

namespace Digitiz

namespace ViewportGeometry

/-- What every grid that is served keeps to. -/
structure Bounded (g : ViewportGeometry) : Prop where
  valid : g.valid = true
  outW : g.outW ≤ 8192
  outH : g.outH ≤ 8192
  tile_ge : 8 ≤ g.tile
  tile_le : g.tile ≤ 256

lemma bounded_of_valid (r : ViewportReq) (h : r.geometry.valid = true) : r.geometry.Bounded := by
  obtain ⟨hw, hh⟩ := ViewportReq.pos_of_valid h
  have hs := makeGeometry_spec ⟨r.x.toInt, r.y.toInt, r.w.toInt, r.h.toInt⟩ r.outW.toNat
    r.outH.toNat r.tile.toNat hw hh
  exact ⟨hs.1, hs.2.1, hs.2.2.1, hs.2.2.2.1, hs.2.2.2.2⟩

/-- The bytes a tile takes. -/
def tileBytes (g : ViewportGeometry) (t : UInt16) : ℕ :=
  etc2Size (g.tileOutputRect t.toNat).w (g.tileOutputRect t.toNat).h

variable {g : ViewportGeometry}

/-- No tile takes more than a whole one. -/
lemma tileBytes_le (hv : g.valid = true) {t : UInt16} (ht : (t.toNat : ℤ) < g.tileCount) :
    0 < g.tileBytes t ∧ g.tileBytes t ≤ (g.tile / 4).toNat * (g.tile / 4).toNat * 8 := by
  obtain ⟨hw, hh⟩ := tileOutputRect_pos hv (by omega) ht
  obtain ⟨hw4, hh4⟩ := tileOutputRect_mod hv (by omega) ht
  have hwle : (g.tileOutputRect t.toNat).w ≤ g.tile := by
    rw [tileOutputRect_eq hv (by omega) ht]
    exact min_le_left _ _
  have hhle : (g.tileOutputRect t.toNat).h ≤ g.tile := by
    rw [tileOutputRect_eq hv (by omega) ht]
    exact min_le_left _ _
  unfold tileBytes etc2Size kEtc2BlockSize kEtc2BlockBytes
  rw [if_neg (by omega)]
  constructor
  · have h1 : 0 < ((g.tileOutputRect t.toNat).w / 4).toNat := by omega
    have h2 : 0 < ((g.tileOutputRect t.toNat).h / 4).toNat := by omega
    positivity
  · gcongr <;> omega

lemma tileCount_le (hg : g.Bounded) : g.tileCount ≤ 1024 * 1024 := by
  have hc := cols_pos hg.valid
  have hr := rows_pos hg.valid
  have h1 := hg.outW
  have h2 := hg.outH
  have hc' : g.cols ≤ 1024 := by
    have hlast : (g.cols - 1) * g.tile < g.outW := (lt_cols_iff hg.valid _).mp (by omega)
    have := (mul_le_mul_of_nonneg_left hg.tile_ge (by omega)).trans_lt hlast
    omega
  have hr' : g.rows ≤ 1024 := by
    have hlast : (g.rows - 1) * g.tile < g.outH := (lt_rows_iff hg.valid _).mp (by omega)
    have := (mul_le_mul_of_nonneg_left hg.tile_ge (by omega)).trans_lt hlast
    omega
  exact mul_le_mul hc' hr' hr.le (by norm_num)

/-- So many blocks along one edge, counting those that hang over. -/
lemma blocks_le {n q m : ℤ} (h : (n - 1) * (4 * q) < m) (hm : m ≤ 8192) (hq : 4 * q ≤ 256) :
    n * q ≤ 2112 := by
  have he : (n - 1) * (4 * q) = 4 * (n * q) - 4 * q := by ring
  omega

/-- All tiles of a grid together, and one more. -/
lemma grid_bytes_le (hg : g.Bounded) {n : ℕ} (hn : (n : ℤ) ≤ g.tileCount + 1) :
    n * ((g.tile / 4).toNat * (g.tile / 4).toNat * 8) < 2 ^ 26 := by
  obtain ⟨-, -, -, -, ht, -, -, ht4⟩ := valid_iff.mp hg.valid
  have hc := cols_pos hg.valid
  have hr := rows_pos hg.valid
  have hcols : (g.cols - 1) * g.tile < g.outW := (lt_cols_iff hg.valid _).mp (by omega)
  have hrows : (g.rows - 1) * g.tile < g.outH := (lt_rows_iff hg.valid _).mp (by omega)
  obtain ⟨q, hq⟩ : ∃ q : ℕ, g.tile = 4 * q := ⟨(g.tile / 4).toNat, by omega⟩
  have hq4 : (g.tile / 4).toNat = q := by omega
  have htile := hg.tile_le
  rw [hq] at hcols hrows htile
  have hcq := blocks_le hcols hg.outW htile
  have hrq := blocks_le hrows hg.outH htile
  have hq64 : (q : ℤ) ≤ 64 := by omega
  have hmain : (n : ℤ) * (q * q * 8) < 2 ^ 26 := by
    calc (n : ℤ) * (q * q * 8) ≤ (g.cols * g.rows + 1) * (q * q * 8) := by gcongr; exact hn
      _ = ((g.cols * q) * (g.rows * q) + q * q) * 8 := by ring
      _ ≤ (2112 * 2112 + 64 * 64) * 8 := by gcongr
      _ < 2 ^ 26 := by norm_num
  rw [hq4]
  exact_mod_cast hmain

end ViewportGeometry

namespace FrameSender

open ViewportGeometry

/-- The capture's encoder and this one agree on how large a tile is. -/
def Sizes (source : FrameSource) : Prop :=
  ∀ g tiles sent payload, g.valid = true → InGrid g tiles →
    encodeSelection source g tiles = some (sent, payload) →
    payload.length = (sent.map g.tileBytes).sum

variable {f : FrameSender} {g : ViewportGeometry} {source : FrameSource} {tiles sent : List UInt16}
  {payload : List UInt8}

lemma gatherTile_size {box : Recti} {pixels : ℤ → ℤ → Pixel} {i w h : ℤ} {px : List UInt8}
    (hg : gatherTile g box pixels i = some (w, h, px)) :
    w = (g.tileOutputRect i).w ∧ h = (g.tileOutputRect i).h := by
  unfold gatherTile at hg
  dsimp only at hg
  split_ifs at hg
  simp only [Option.some.injEq, Prod.mk.injEq] at hg
  exact ⟨hg.1.symm, hg.2.1.symm⟩

lemma length_encodeHere (g : ViewportGeometry) (box : Recti) (pixels : ℤ → ℤ → Pixel)
    (tiles : List UInt16) :
    ((encodeHere g box pixels tiles).flatMap Prod.snd).length
      = (((encodeHere g box pixels tiles).map Prod.fst).map g.tileBytes).sum := by
  have hlen : ∀ e ∈ encodeHere g box pixels tiles, e.2.length = g.tileBytes e.1 := by
    intro e he
    obtain ⟨index, -, hi⟩ := List.mem_filterMap.mp he
    obtain ⟨blocks, hb, rfl⟩ := Option.map_eq_some_iff.mp hi
    obtain ⟨⟨w, h, px⟩, hgt, hb⟩ := Option.bind_eq_some_iff.mp hb
    obtain ⟨rfl, rfl⟩ := gatherTile_size hgt
    exact etc2Encode_length hb
  rw [List.length_flatMap, List.map_map]
  exact congrArg List.sum (List.map_congr_left hlen)

/-- What the encoding here gives is of the right size, so only the capture's own encoder can
fail to. -/
lemma sizes_of_encodeTiles (h : ∀ g tiles blocks, g.valid = true → InGrid g tiles →
    source.encodeTiles (jobs g tiles) = some blocks →
      blocks.length = (tiles.map g.tileBytes).sum) : Sizes source := by
  intro g tiles sent payload hv ht henc
  unfold encodeSelection at henc
  cases he : source.encodeTiles (jobs g tiles) with
  | some blocks =>
    rw [he] at henc
    simp only [Option.some.injEq, Prod.mk.injEq] at henc
    obtain ⟨rfl, rfl⟩ := henc
    exact h g tiles blocks hv ht he
  | none =>
    rw [he] at henc
    obtain ⟨box, -, henc⟩ := Option.bind_eq_some_iff.mp henc
    obtain ⟨pixels, -, henc⟩ := Option.map_eq_some_iff.mp henc
    simp only [Prod.mk.injEq] at henc
    obtain ⟨rfl, rfl⟩ := henc
    exact length_encodeHere g box pixels tiles

/-- A capture without an encoder of its own leaves it to this one. -/
lemma sizes_of_encoder_none (h : source.encoder = none) : Sizes source := by
  refine sizes_of_encodeTiles fun g tiles blocks _ _ he => ?_
  rw [FrameSource.encodeTiles, h] at he
  contradiction

lemma encodeHere_sublist (box : Recti) (pixels : ℤ → ℤ → Pixel) (tiles : List UInt16) :
    ((encodeHere g box pixels tiles).map Prod.fst).Sublist tiles := by
  induction tiles with
  | nil => exact List.Sublist.refl _
  | cons t r ih =>
    unfold encodeHere at ih ⊢
    rw [List.filterMap_cons]
    split
    · exact ih.cons t
    · next e he =>
      obtain ⟨blocks, -, rfl⟩ := Option.map_eq_some_iff.mp he
      exact ih.cons_cons t

/-- What goes out is among what was chosen. -/
lemma encodeSelection_sublist (h : encodeSelection source g tiles = some (sent, payload)) :
    sent.Sublist tiles := by
  unfold encodeSelection at h
  split at h
  · simp only [Option.some.injEq, Prod.mk.injEq] at h
    rw [h.1]
  · obtain ⟨box, -, h⟩ := Option.bind_eq_some_iff.mp h
    obtain ⟨pixels, -, h⟩ := Option.map_eq_some_iff.mp h
    simp only [Prod.mk.injEq] at h
    exact h.1 ▸ encodeHere_sublist box pixels tiles

/-! ### A capture of an image -/

/-- A capture that reads an image and leaves the encoding to this side. -/
def imageSource (bounds : Recti) (image : Image) : FrameSource where
  bounds := bounds
  read := fun box => some (readBox image box)

/-- The blocks of a tile of the image. -/
def tileBlocks (bounds : Recti) (image : Image) (g : ViewportGeometry) (i : ℕ) : List UInt8 :=
  (encodeTile g bounds image i).getD []

/-- Whatever tiles it is read with, all of a tile that can be seen is read. -/
lemma contains_selectionBox {bounds box : Recti} (hv : g.valid = true) (ht : InGrid g tiles)
    (hb : selectionBox g bounds tiles = some box) {t : UInt16} (hmem : t ∈ tiles) (x y : ℤ)
    (hs : (g.tileSourceRect t.toNat).contains x y = true) :
    box.contains x y = bounds.contains x y := by
  obtain ⟨around, ha, hin⟩ := boundingBox_spec hv ht (List.ne_nil_of_mem hmem)
  have hw := hin t hmem
  rw [selectionBox, ha, Option.bind_some] at hb
  unfold clip at hb
  dsimp only at hb
  split_ifs at hb
  obtain rfl := Option.some.inj hb
  unfold Within at hw
  rw [Recti.contains_iff] at hs
  rw [Bool.eq_iff_iff, Recti.contains_iff, Recti.contains_iff]
  dsimp only
  omega

lemma encodeTile_selectionBox {bounds box : Recti} (image : Image) (hv : g.valid = true)
    (ht : InGrid g tiles) (hb : selectionBox g bounds tiles = some box) {t : UInt16}
    (hmem : t ∈ tiles) : encodeTile g box image t.toNat = encodeTile g bounds image t.toNat := by
  unfold encodeTile
  rw [gatherTile_congr g (contains_selectionBox hv ht hb hmem) fun _ _ _ _ => rfl]

lemma encodeTile_eq (bounds : Recti) (image : Image) (hv : g.valid = true) {t : UInt16}
    (ht : (t.toNat : ℤ) < g.tileCount) :
    encodeTile g bounds image t.toNat = some (tileBlocks bounds image g t.toNat) := by
  have he := ViewportGeometry.encodes hv (by omega) ht bounds (readBox image bounds)
  obtain ⟨blocks, hb⟩ := Option.isSome_iff_exists.mp he
  unfold tileBlocks encodeTile
  rw [hb, Option.getD_some]

lemma length_tileBlocks (bounds : Recti) (image : Image) (hv : g.valid = true) {t : UInt16}
    (ht : (t.toNat : ℤ) < g.tileCount) :
    (tileBlocks bounds image g t.toNat).length = g.tileBytes t := by
  have he := encodeTile_eq bounds image hv ht
  obtain ⟨⟨w, h, px⟩, hgt, hb⟩ := Option.bind_eq_some_iff.mp he
  obtain ⟨rfl, rfl⟩ := gatherTile_size hgt
  exact etc2Encode_length hb

/-- **A tile goes out as its own blocks**, whatever batch it is in. -/
lemma encodeSelection_imageSource {bounds : Recti} {image : Image} (hv : g.valid = true)
    (ht : InGrid g tiles)
    (h : encodeSelection (imageSource bounds image) g tiles = some (sent, payload)) :
    payload = sent.flatMap fun t => tileBlocks bounds image g t.toNat := by
  obtain ⟨box, hbox, h⟩ := Option.bind_eq_some_iff.mp h
  change selectionBox g bounds tiles = some box at hbox
  simp only [imageSource, Option.map_some, Option.some.injEq, Prod.mk.injEq] at h
  obtain ⟨rfl, rfl⟩ := h
  rw [List.flatMap_map]
  refine List.flatMap_congr fun e he => ?_
  obtain ⟨t, hmem, hi⟩ := List.mem_filterMap.mp he
  obtain ⟨blocks, hb, rfl⟩ := Option.map_eq_some_iff.mp hi
  have hb' : encodeTile g box image t.toNat = some blocks := hb
  rw [encodeTile_selectionBox image hv ht hbox hmem,
    encodeTile_eq bounds image hv (ht t hmem)] at hb'
  exact (Option.some.inj hb').symm

/-! ### What a batch is made of -/

lemma length_select (s : TileScheduler) (budget : ℤ) :
    (s.select budget).length ≤ s.size + 1 := by
  unfold TileScheduler.select
  split_ifs
  · simp
  · have h := List.length_filter_le (fun x => decide (x < s.size)) s.focus.toList
    have h1 : s.focus.toList.length ≤ 1 := by cases s.focus <;> simp
    simp only [List.append_nil, List.length_map]
    omega
  · have h := List.length_filter_le (fun x => decide (x < s.size)) s.focus.toList
    have h1 : s.focus.toList.length ≤ 1 := by cases s.focus <;> simp
    have ho := s.length_owed_le
    simp only [List.length_append, List.length_map, List.length_take]
    omega

/-- Whatever the numbers are cut down to, they are tiles of the grid. -/
lemma lt_size_of_select (s : TileScheduler) {budget : ℤ} (hb : 0 < budget) {t : UInt16}
    (ht : t ∈ s.select budget) : t.toNat < s.size := by
  rw [s.select_eq hb] at ht
  obtain ⟨i, hi, rfl⟩ := List.mem_map.mp ht
  have hlt := s.lt_size_of_chosen hi
  have hmod : (UInt16.ofNat i).toNat = i % 65536 := UInt16.toNat_ofNat'
  rw [hmod]
  exact (Nat.mod_le _ _).trans_lt hlt

/-- A sender with a grid to serve. -/
structure OnGrid (f : FrameSender) : Prop where
  bounded : f.geometry.Bounded
  cols : (f.scheduler.cols : ℤ) = f.geometry.cols
  rows : (f.scheduler.rows : ℤ) = f.geometry.rows
  budget : 1 ≤ f.budgetTiles

lemma OnGrid.tileCount (h : OnGrid f) : (f.scheduler.size : ℤ) = f.geometry.tileCount :=
  Matched.tileCount ⟨h.cols, h.rows⟩

lemma OnGrid.inGrid (h : OnGrid f) :
    InGrid f.geometry (f.focusPen.scheduler.select f.budgetTiles) := by
  intro t ht
  have hlt := lt_size_of_select _ (by have := h.budget; omega) ht
  rw [← h.tileCount]
  exact_mod_cast hlt

/-- What a batch is made of. -/
lemma sendBatch_of_some {compress : List UInt8 → Option (List UInt8)} {b : Batch}
    (h : (f.sendBatch source compress).2 = some b) :
    ∃ sent payload c, encodeSelection source f.geometry
        (f.focusPen.scheduler.select f.budgetTiles) = some (sent, payload) ∧
      compress payload = some c ∧
      b = ⟨{ f.focusPen with seq := f.seq + 1 }.frameInfo sent payload c, c⟩ ∧
      (f.sendBatch source compress).1 =
        { f.focusPen with
          seq := f.seq + 1, scheduler := f.focusPen.scheduler.markSent sent } := by
  unfold sendBatch at h ⊢
  rcases f.prepareBatch_cases source compress with hp | ⟨sent, payload, c, henc, hc, hp⟩
  · rw [hp] at h
    contradiction
  · rw [hp] at h ⊢
    exact ⟨sent, payload, c, henc, hc, (Option.some.inj h).symm, rfl⟩

/-- Without a batch only the pen's tile has been looked up. -/
lemma sendBatch_of_none {compress : List UInt8 → Option (List UInt8)}
    (h : (f.sendBatch source compress).2 = none) :
    (f.sendBatch source compress).1 = f.focusPen := by
  unfold sendBatch at h ⊢
  rcases f.prepareBatch_cases source compress with hp | ⟨_, _, _, _, _, hp⟩
  · rw [hp]
  · rw [hp] at h
    contradiction

lemma sum_tileBytes_le (hv : g.valid = true) (ht : InGrid g sent) :
    (sent.map g.tileBytes).sum ≤ sent.length * ((g.tile / 4).toNat * (g.tile / 4).toNat * 8) := by
  rw [← List.length_map (f := g.tileBytes)]
  refine List.sum_le_card_nsmul (sent.map g.tileBytes) _ fun n hn => ?_
  obtain ⟨t, hmem, rfl⟩ := List.mem_map.mp hn
  exact (tileBytes_le hv (ht t hmem)).2

/-- The bytes of a batch can be counted. -/
lemma payload_lt (h : OnGrid f) (hs : Sizes source) (henc : encodeSelection source f.geometry
    (f.focusPen.scheduler.select f.budgetTiles) = some (sent, payload)) :
    payload.length < 2 ^ 26 ∧ (sent.length : ℤ) ≤ f.geometry.tileCount + 1 ∧
      InGrid f.geometry sent := by
  have hsub := encodeSelection_sublist henc
  have hin : InGrid f.geometry sent := fun t ht => h.inGrid t (hsub.subset ht)
  have hlen : (sent.length : ℤ) ≤ f.geometry.tileCount + 1 := by
    have h1 := hsub.length_le.trans (length_select f.focusPen.scheduler f.budgetTiles)
    have h2 : f.focusPen.scheduler.size = f.scheduler.size := rfl
    have h3 := h.tileCount
    omega
  refine ⟨?_, hlen, hin⟩
  rw [hs _ _ _ _ h.bounded.valid h.inGrid henc]
  exact (sum_tileBytes_le h.bounded.valid hin).trans_lt (grid_bytes_le h.bounded hlen)

/-- The most that compression makes of so many bytes. -/
def compressBound (n : ℕ) : ℕ :=
  n + n / 256 + if n < 128 * 1024 then (128 * 1024 - n) / 2048 else 0

/-- **What is sent can be taken.** Every batch of a sender with a grid to serve says how long it
is and fits its messages. -/
theorem sendBatch_whole {compress : List UInt8 → Option (List UInt8)} (h : OnGrid f)
    (hs : Sizes source) (hz : ∀ p c, compress p = some c → 0 < c.length ∧
      c.length ≤ compressBound p.length) {b : Batch}
    (hb : (f.sendBatch source compress).2 = some b) : b.Whole := by
  obtain ⟨sent, payload, c, henc, hc, rfl, -⟩ := sendBatch_of_some hb
  obtain ⟨hlt, hlen, -⟩ := payload_lt h hs henc
  obtain ⟨hpos, hle⟩ := hz payload c hc
  have hbound : compressBound payload.length < 2 ^ 32 := by
    unfold compressBound
    split_ifs <;> omega
  refine ⟨hpos, UInt32.toNat_ofNat_of_lt' (by simp only [UInt32.size]; omega), ?_⟩
  have hcount := tileCount_le h.bounded
  unfold Msg.Fits Batch.infoMsg
  rw [FrameInfo.length_payload]
  unfold Wire.kMaxPayload
  dsimp only [frameInfo]
  omega

/-! ### The grid on the other side -/

/-- A grid made once is not changed by making it again. -/
lemma makeGeometry_self (hg : g.Bounded) :
    makeGeometry g.region g.outW g.outH g.tile = g := by
  obtain ⟨hw, hh, how, hoh, -, hw4, hh4, ht4⟩ := valid_iff.mp hg.valid
  have h1 := hg.outW
  have h2 := hg.outH
  have h3 := hg.tile_ge
  have h4 := hg.tile_le
  have hround : ∀ v lo hi : ℤ, v % 4 = 0 → lo ≤ v → v ≤ hi →
      roundUpTo (Rescale.clamp v lo hi) 4 = v := by
    intro v lo hi hv hlo hhi
    simp only [roundUpTo, Rescale.clamp, show ¬(4 : ℤ) ≤ 0 by decide, if_false]
    omega
  unfold makeGeometry
  rw [if_neg (by omega), if_neg (by omega), if_neg (by omega), if_neg (by omega)]
  dsimp only
  rw [hround _ _ _ hw4 (by omega) h1, hround _ _ _ hh4 (by omega) h2, hround _ _ _ ht4 h3 h4]

lemma region_geometry {r : ViewportReq} (h : r.geometry.valid = true) :
    r.geometry.region = ⟨r.x.toInt, r.y.toInt, r.w.toInt, r.h.toInt⟩ := by
  obtain ⟨hw, hh⟩ := ViewportReq.pos_of_valid h
  rw [ViewportReq.geometry, makeGeometry, if_neg (by dsimp only; omega)]

/-- **The grid survives the message.** -/
lemma geometry_frameInfo {r : ViewportReq} (hg : f.geometry = r.geometry) (hv : f.geometry.Bounded)
    (ht : f.geometry.tile < 256) (sent : List UInt16) (payload c : List UInt8) :
    let info := f.frameInfo sent payload c
    makeGeometry ⟨info.x.toInt, info.y.toInt, info.w.toInt, info.h.toInt⟩ info.outW.toNat
      info.outH.toNat info.tile.toNat = f.geometry := by
  have hreg : f.geometry.region = ⟨r.x.toInt, r.y.toInt, r.w.toInt, r.h.toInt⟩ := by
    rw [hg]
    exact region_geometry (hg ▸ hv.valid)
  obtain ⟨-, -, how, hoh, htp, -⟩ := valid_iff.mp hv.valid
  have h1 := hv.outW
  have h2 := hv.outH
  have hw : ((UInt16.ofInt f.geometry.outW).toNat : ℤ) = f.geometry.outW := by
    rw [UInt16.ofInt, UInt16.toNat_ofNat']
    omega
  have hh : ((UInt16.ofInt f.geometry.outH).toNat : ℤ) = f.geometry.outH := by
    rw [UInt16.ofInt, UInt16.toNat_ofNat']
    omega
  have hb : ((UInt8.ofInt f.geometry.tile).toNat : ℤ) = f.geometry.tile := by
    rw [UInt8.ofInt, UInt8.toNat_ofNat']
    omega
  dsimp only [frameInfo]
  rw [hw, hh, hb, hreg]
  dsimp only
  rw [Int32.ofInt_toInt, Int32.ofInt_toInt, Int32.ofInt_toInt, Int32.ofInt_toInt, ← hreg]
  exact makeGeometry_self hv

lemma needed_eq (hv : g.valid = true) (ht : InGrid g sent) :
    FrameReceiver.needed g sent = some (sent.map g.tileBytes).sum := by
  induction sent with
  | nil => rfl
  | cons t r ih =>
    have hpos := tileOutputRect_pos hv (by omega) (ht t List.mem_cons_self)
    rw [FrameReceiver.needed, if_neg (by omega), ih fun u hu => ht u (List.mem_cons_of_mem _ hu)]
    rfl

lemma accept_eq {decompress : List UInt8 → ℕ → Option (List UInt8)} {b : Batch}
    (hf : b.info.format = .etc2Rgb8)
    (hg : makeGeometry ⟨b.info.x.toInt, b.info.y.toInt, b.info.w.toInt, b.info.h.toInt⟩
      b.info.outW.toNat b.info.outH.toNat b.info.tile.toNat = g) (hv : g.valid = true)
    (hd : decompress b.compressed b.info.rawBytes.toNat = some payload)
    (hlen : payload.length = b.info.rawBytes.toNat)
    (hneed : FrameReceiver.needed g b.info.tiles = some payload.length) :
    FrameReceiver.accept decompress b = some ⟨g, b.info.tiles, payload⟩ := by
  unfold FrameReceiver.accept
  simp only [hf, hg, hv, hd, hlen, hneed, ne_eq, not_true_eq_false, if_false, Bool.not_true,
    Bool.false_eq_true]

/-- **What is sent is accepted.** As long as nothing is lost in compression, the receiver gets the
grid, the tiles and the blocks that were sent. -/
theorem accept_sendBatch {compress : List UInt8 → Option (List UInt8)}
    {decompress : List UInt8 → ℕ → Option (List UInt8)} {r : ViewportReq} (h : OnGrid f)
    (hg : f.geometry = r.geometry) (ht : f.geometry.tile < 256) (hs : Sizes source)
    (hz : ∀ p c, compress p = some c → decompress c p.length = some p) {b : Batch}
    (hb : (f.sendBatch source compress).2 = some b) :
    ∃ sent payload, encodeSelection source f.geometry
        (f.focusPen.scheduler.select f.budgetTiles) = some (sent, payload) ∧
      FrameReceiver.accept decompress b = some ⟨f.geometry, sent, payload⟩ ∧
      (f.sendBatch source compress).1 =
        { f.focusPen with
          seq := f.seq + 1, scheduler := f.focusPen.scheduler.markSent sent } := by
  obtain ⟨sent, payload, c, henc, hc, rfl, hf⟩ := sendBatch_of_some hb
  obtain ⟨hlt, -, hin⟩ := payload_lt h hs henc
  refine ⟨sent, payload, henc, ?_, hf⟩
  have hgeo := geometry_frameInfo (f := { f.focusPen with seq := f.seq + 1 }) hg h.bounded ht sent
    payload c
  have hraw : (UInt32.ofNat payload.length).toNat = payload.length :=
    UInt32.toNat_ofNat_of_lt' (by simp only [UInt32.size]; omega)
  have hneed := needed_eq h.bounded.valid hin
  rw [← hs _ _ _ _ h.bounded.valid h.inGrid henc] at hneed
  exact accept_eq rfl hgeo h.bounded.valid (by rw [← hz payload c hc, ← hraw]; rfl) hraw.symm hneed

end FrameSender

end Digitiz
