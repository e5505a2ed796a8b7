import Digitiz.SenderSteps

/-!
Whether the sweep gets round.

The sweep only moves when a batch goes out, and no batch goes out when the box around its tiles
misses what the capture sees. The dirty tiles, in the order the sweep comes to them, fall into
groups of one batch each. A group that cannot be read is chosen again by every later call, so
every tile that can be seen is sent exactly when no such group comes before one with a tile that
can be seen.
-/

namespace Digitiz

open Rescale

/-- The tile is drawn from something the capture sees. -/
def Visible (g : ViewportGeometry) (bounds : Recti) (i : ℕ) : Prop :=
  ∃ x y, (g.tileSourceRect i).contains x y = true ∧ bounds.contains x y = true

/-! ### Tiles of the grid -/

namespace ViewportGeometry

variable {g : ViewportGeometry} (hv : g.valid = true) {index : ℤ} (h0 : 0 ≤ index)
  (h1 : index < g.tileCount)
include hv h0 h1

lemma tileSourceRect_pos : 0 < (g.tileSourceRect index).w ∧ 0 < (g.tileSourceRect index).h := by
  rw [tileSourceRect_eq hv h0 h1]
  dsimp only [span]
  omega

/-- A tile is a whole number of blocks. -/
lemma tileOutputRect_mod :
    (g.tileOutputRect index).w % 4 = 0 ∧ (g.tileOutputRect index).h % 4 = 0 := by
  obtain ⟨-, -, -, -, -, hw, hh, ht⟩ := valid_iff.mp hv
  have hc : index % g.cols * g.tile % 4 = 0 := by rw [Int.mul_emod, ht]; simp
  have hr : index / g.cols * g.tile % 4 = 0 := by rw [Int.mul_emod, ht]; simp
  rw [tileOutputRect_eq hv h0 h1]
  dsimp only
  omega

/-- So it can always be cut out and encoded. -/
lemma encodes (readRect : Recti) (pixels : ℤ → ℤ → Pixel) :
    ((gatherTile g readRect pixels index).bind fun (w, h, tilePixels) =>
      etc2Encode tilePixels w h (w * 4)).isSome = true := by
  have hpos := tileOutputRect_pos hv h0 h1
  have hmod := tileOutputRect_mod hv h0 h1
  unfold gatherTile
  rw [if_neg (by omega)]
  dsimp only [Option.bind_some]
  unfold etc2Encode
  rw [if_neg (by omega)]
  rfl

end ViewportGeometry

namespace FrameSender

variable {g : ViewportGeometry} {bounds : Recti} {tiles : List UInt16}

/-- Every tile is one of the grid. -/
def InGrid (g : ViewportGeometry) (tiles : List UInt16) : Prop :=
  ∀ t ∈ tiles, (t.toNat : ℤ) < g.tileCount

lemma encodeHere_fst (hv : g.valid = true) (ht : InGrid g tiles) (readRect : Recti)
    (pixels : ℤ → ℤ → Pixel) : (encodeHere g readRect pixels tiles).map Prod.fst = tiles := by
  induction tiles with
  | nil => rfl
  | cons t r ih =>
    have he := ViewportGeometry.encodes hv (by omega) (ht t List.mem_cons_self) readRect pixels
    obtain ⟨blocks, hb⟩ := Option.isSome_iff_exists.mp he
    have ih' := ih fun u hu => ht u (List.mem_cons_of_mem _ hu)
    unfold encodeHere at ih' ⊢
    rw [List.filterMap_cons, hb]
    simpa using ih'

/-! ### The box around the tiles -/

/-- One rectangle lies inside another. -/
def Within (r box : Recti) : Prop :=
  (box.x ≤ r.x ∧ r.x + r.w ≤ box.x + box.w) ∧ (box.y ≤ r.y ∧ r.y + r.h ≤ box.y + box.h)

lemma Within.trans {a b c : Recti} (h : Within a b) (h' : Within b c) : Within a c := by
  unfold Within at *
  omega

lemma within_join (a b : Recti) : Within a (join a b) ∧ Within b (join a b) := by
  unfold Within join
  dsimp only
  omega

/-- The box only grows, and it grows around every tile there is something of. -/
lemma within_foldl_extend {start : Option Recti} {box : Recti}
    (h : tiles.foldl (extend g) start = some box) :
    (∀ b, start = some b → Within b box) ∧ ∀ t ∈ tiles, 0 < (g.tileSourceRect t.toNat).w →
      0 < (g.tileSourceRect t.toNat).h → Within (g.tileSourceRect t.toNat) box := by
  induction tiles generalizing start with
  | nil =>
    refine ⟨fun b hb => ?_, by simp⟩
    obtain rfl : b = box := Option.some.inj (hb.symm.trans h)
    unfold Within
    omega
  | cons t r ih =>
    obtain ⟨hstart, hrest⟩ := ih h
    have hstep : (∀ b, start = some b → Within b box) ∧
        (0 < (g.tileSourceRect t.toNat).w → 0 < (g.tileSourceRect t.toNat).h →
          Within (g.tileSourceRect t.toNat) box) := by
      unfold extend at hstart
      dsimp only at hstart
      split_ifs at hstart with hempty
      · exact ⟨hstart, by omega⟩
      · cases start with
        | none => exact ⟨by simp, fun _ _ => hstart _ rfl⟩
        | some b =>
          obtain ⟨h1, h2⟩ := within_join b (g.tileSourceRect t.toNat)
          refine ⟨fun b' hb' => ?_, fun _ _ => h2.trans (hstart _ rfl)⟩
          obtain rfl := Option.some.inj hb'
          exact h1.trans (hstart _ rfl)
    refine ⟨hstep.1, fun u hu => ?_⟩
    rcases List.mem_cons.mp hu with rfl | hu
    · exact hstep.2
    · exact hrest u hu

lemma exists_foldl_extend (g : ViewportGeometry) (tiles : List UInt16) (b : Recti) :
    ∃ box, tiles.foldl (extend g) (some b) = some box := by
  induction tiles generalizing b with
  | nil => exact ⟨b, rfl⟩
  | cons t r ih =>
    rw [List.foldl_cons, extend]
    split_ifs
    · exact ih b
    · exact ih _

lemma boundingBox_spec (hv : g.valid = true) (ht : InGrid g tiles) (hne : tiles ≠ []) :
    ∃ box, boundingBox g tiles = some box ∧
      ∀ t ∈ tiles, Within (g.tileSourceRect t.toNat) box := by
  have hpos (t : UInt16) (hmem : t ∈ tiles) := ViewportGeometry.tileSourceRect_pos hv
    (Int.natCast_nonneg t.toNat) (ht t hmem)
  cases tiles with
  | nil => exact absurd rfl hne
  | cons t r =>
    obtain ⟨box, hbox⟩ := exists_foldl_extend g r (g.tileSourceRect t.toNat)
    have hall : boundingBox g (t :: r) = some box := by
      have ht0 := hpos t List.mem_cons_self
      rw [boundingBox, List.foldl_cons, extend, if_neg (by omega)]
      exact hbox
    exact ⟨box, hall, fun u hu => (within_foldl_extend hall).2 u hu (hpos u hu).1 (hpos u hu).2⟩

/-- A batch with a tile that can be seen can be read. -/
lemma selectionBox_of_visible (hv : g.valid = true) (ht : InGrid g tiles) {t : UInt16}
    (hmem : t ∈ tiles) (hvis : Visible g bounds t.toNat) :
    (selectionBox g bounds tiles).isSome = true := by
  obtain ⟨box, hbox, hin⟩ := boundingBox_spec hv ht (List.ne_nil_of_mem hmem)
  obtain ⟨x, y, hs, hb⟩ := hvis
  have hw := hin t hmem
  rw [Recti.contains_iff] at hs hb
  unfold Within at hw
  rw [selectionBox, hbox, Option.bind_some, clip, if_neg (by omega)]
  rfl

/-- What is read lies inside the bounds. -/
lemma within_of_selectionBox {box : Recti} (h : selectionBox g bounds tiles = some box) :
    Within box bounds ∧ 0 < box.w ∧ 0 < box.h := by
  unfold selectionBox at h
  obtain ⟨b, -, hc⟩ := Option.bind_eq_some_iff.mp h
  unfold clip at hc
  dsimp only at hc
  split_ifs at hc with hempty
  obtain rfl := Option.some.inj hc
  unfold Within
  dsimp only
  omega

/-! ### The capture's own encoder -/

lemma jobs_eq (hv : g.valid = true) (ht : InGrid g tiles) : jobs g tiles = tiles.map (job g) := by
  refine if_neg fun hany => ?_
  obtain ⟨j, hj, hbad⟩ := List.any_eq_true.mp hany
  obtain ⟨t, hmem, rfl⟩ := List.mem_map.mp hj
  have hout := ViewportGeometry.tileOutputRect_pos hv (by omega) (ht t hmem)
  have hsrc := ViewportGeometry.tileSourceRect_pos hv (by omega) (ht t hmem)
  have hbad' := of_decide_eq_true hbad
  simp only [job] at hbad'
  omega

/-- A job in the coordinates of the capture. -/
def inside (bounds : Recti) (job : TileJob) : TileJob :=
  { job with src := { job.src with x := job.src.x - bounds.x, y := job.src.y - bounds.y } }

/-- It takes a batch of which it sees every tile whole. -/
lemma encodeTiles_eq_some {s : FrameSource}
    {encode : List TileJob → Option (List UInt8)} (he : s.encoder = some encode)
    {jobs : List TileJob} {blocks : List UInt8} :
    s.encodeTiles jobs = some blocks ↔ jobs ≠ [] ∧ (∀ j ∈ jobs, Within j.src s.bounds) ∧
      encode (jobs.map (inside s.bounds)) = some blocks := by
  have hany : (jobs.any fun j => j.src.x < s.bounds.x ∨ j.src.y < s.bounds.y ∨
      j.src.x + j.src.w > s.bounds.x + s.bounds.w ∨
      j.src.y + j.src.h > s.bounds.y + s.bounds.h) = true ↔ ¬∀ j ∈ jobs, Within j.src s.bounds := by
    simp only [List.any_eq_true, decide_eq_true_eq, not_forall, exists_prop, Within]
    refine exists_congr fun j => and_congr_right fun _ => ?_
    omega
  unfold FrameSource.encodeTiles
  rw [he]
  dsimp only
  split_ifs with hnil hout
  · simp [hnil]
  · simp [hany.mp hout]
  · rw [hany, not_not] at hout
    exact ⟨fun h => ⟨hnil, hout, h⟩, fun h => h.2.2⟩

lemma visible_of_encodeTiles {source : FrameSource} {blocks : List UInt8} (hv : g.valid = true)
    (ht : InGrid g tiles) (h : source.encodeTiles (jobs g tiles) = some blocks) :
    ∃ t ∈ tiles, Visible g source.bounds t.toNat := by
  rw [jobs_eq hv ht] at h
  cases he : source.encoder with
  | none =>
    rw [FrameSource.encodeTiles, he] at h
    contradiction
  | some encode =>
    obtain ⟨hne, hin, -⟩ := (encodeTiles_eq_some he).mp h
    cases tiles with
    | nil => exact absurd rfl hne
    | cons t r =>
      have hpos := ViewportGeometry.tileSourceRect_pos hv (by omega) (ht t List.mem_cons_self)
      have hw : Within (g.tileSourceRect t.toNat) source.bounds := hin (job g t) List.mem_cons_self
      unfold Within at hw
      refine ⟨t, List.mem_cons_self, (g.tileSourceRect t.toNat).x,
        (g.tileSourceRect t.toNat).y, ?_, ?_⟩ <;> rw [Recti.contains_iff] <;> omega

section batch

variable (source : FrameSource) (compress : List UInt8 → Option (List UInt8))

/-- What the link and the capture are trusted to do: a box inside the bounds can be read, and
compression does not fail. -/
structure Trusted : Prop where
  read : ∀ box, Within box source.bounds → 0 < box.w → 0 < box.h → (source.read box).isSome = true
  compress : ∀ bytes, (compress bytes).isSome = true

variable {source compress}

/-- A batch is encoded whole or, if nothing of it can be seen, not at all. -/
lemma encodeSelection_spec (hT : Trusted source compress) (hv : g.valid = true)
    (ht : InGrid g tiles) :
    if (selectionBox g source.bounds tiles).isSome then
      ∃ payload, encodeSelection source g tiles = some (tiles, payload)
    else encodeSelection source g tiles = none := by
  unfold encodeSelection
  cases he : source.encodeTiles (jobs g tiles) with
  | some blocks =>
    obtain ⟨t, hmem, hvis⟩ := visible_of_encodeTiles hv ht he
    rw [if_pos (selectionBox_of_visible hv ht hmem hvis)]
    exact ⟨blocks, rfl⟩
  | none =>
    dsimp only
    cases hb : selectionBox g source.bounds tiles with
    | none => rfl
    | some box =>
      obtain ⟨hin, hw, hh⟩ := within_of_selectionBox hb
      obtain ⟨pixels, hp⟩ := Option.isSome_iff_exists.mp (hT.read box hin hw hh)
      rw [Option.isSome_some, if_pos rfl, Option.bind_some, hp, Option.map_some,
        encodeHere_fst hv ht]
      exact ⟨_, rfl⟩

/-- A sender serving a geometry whose tiles sixteen bits can number. -/
structure Serving (f : FrameSender) : Prop where
  valid : f.geometry.valid = true
  cols : (f.scheduler.cols : ℤ) = f.geometry.cols
  rows : (f.scheduler.rows : ℤ) = f.geometry.rows
  size : f.scheduler.size ≤ 65536
  budget : 1 ≤ f.budgetTiles

/-- The tiles one batch is made of, before they are cut down to sixteen bits. -/
def chosenTiles (f : FrameSender) : List ℕ :=
  f.focusPen.scheduler.chosen f.budgetTiles.toNat

/-- The next batch can be read. -/
def Readable (source : FrameSource) (f : FrameSender) : Prop :=
  (selectionBox f.geometry source.bounds (f.chosenTiles.map UInt16.ofNat)).isSome = true

variable {f : FrameSender}

lemma Serving.tileCount (h : Serving f) : (f.scheduler.size : ℤ) = f.geometry.tileCount :=
  Matched.tileCount ⟨h.cols, h.rows⟩

/-- Sixteen bits number every tile. -/
lemma Serving.toNat_ofNat (h : Serving f) {i : ℕ} (hi : i < f.scheduler.size) :
    (UInt16.ofNat i).toNat = i := by
  have := h.size
  exact UInt16.toNat_ofNat_of_lt (by simp only [UInt16.size]; omega)

lemma Serving.select (h : Serving f) :
    f.focusPen.scheduler.select f.budgetTiles = f.chosenTiles.map UInt16.ofNat :=
  f.focusPen.scheduler.select_eq (by have := h.budget; omega)

lemma Serving.map_toNat (h : Serving f) :
    (f.chosenTiles.map UInt16.ofNat).map UInt16.toNat = f.chosenTiles := by
  rw [← h.select]
  exact f.focusPen.scheduler.map_toNat_select (by have := h.budget; omega) h.size

lemma Serving.inGrid (h : Serving f) : InGrid f.geometry (f.chosenTiles.map UInt16.ofNat) := by
  intro t ht
  have hmem : t.toNat ∈ f.chosenTiles := h.map_toNat ▸ List.mem_map_of_mem ht
  have hlt := f.focusPen.scheduler.lt_size_of_chosen hmem
  rw [← h.tileCount]
  exact_mod_cast hlt

/-- Nothing chosen, or nothing of it to be read: no batch. -/
lemma sendBatch_eq_none (h : Serving f) (hno : f.chosenTiles = [] ∨
    encodeSelection source f.geometry (f.chosenTiles.map UInt16.ofNat) = none) :
    f.sendBatch source compress = (f.focusPen, none) := by
  have hsel : f.focusPen.scheduler.select f.focusPen.budgetTiles
      = f.chosenTiles.map UInt16.ofNat := h.select
  have hprep : f.prepareBatch source compress = (f.focusPen, none) := by
    unfold prepareBatch
    dsimp only
    rw [hsel]
    rcases hno with hno | hno
    · rw [if_pos (by rw [hno]; rfl)]
    · split_ifs
      · rfl
      · rw [show f.focusPen.geometry = f.geometry from rfl, hno]
  rw [sendBatch, hprep]

lemma sendBatch_eq_some (h : Serving f) {payload c : List UInt8} (hne : f.chosenTiles ≠ [])
    (henc : encodeSelection source f.geometry (f.chosenTiles.map UInt16.ofNat)
      = some (f.chosenTiles.map UInt16.ofNat, payload)) (hc : compress payload = some c) :
    ∃ b, b.info.tiles = f.chosenTiles.map UInt16.ofNat ∧
      f.sendBatch source compress = ({ f.focusPen with
        seq := f.seq + 1
        scheduler := f.focusPen.scheduler.markSent (f.chosenTiles.map UInt16.ofNat) }, some b) := by
  have hsel : f.focusPen.scheduler.select f.focusPen.budgetTiles
      = f.chosenTiles.map UInt16.ofNat := h.select
  have hne' : f.chosenTiles.map UInt16.ofNat ≠ [] := by simpa using hne
  refine ⟨⟨{ f.focusPen with seq := f.seq + 1 }.frameInfo (f.chosenTiles.map UInt16.ofNat)
    payload c, c⟩, rfl, ?_⟩
  unfold sendBatch prepareBatch
  dsimp only
  rw [hsel, if_neg hne', show f.focusPen.geometry = f.geometry from rfl, henc]
  dsimp only
  rw [if_neg hne', hc]
  rfl

/-- **One call.** The batch goes out whole, or nothing happens but that the pen's tile has been
looked up. -/
lemma sendBatch_spec (hT : Trusted source compress) (h : Serving f) :
    (f.chosenTiles ≠ [] ∧ Readable source f ∧ ∃ b, b.info.tiles = f.chosenTiles.map UInt16.ofNat ∧
      f.sendBatch source compress = ({ f.focusPen with
        seq := f.seq + 1
        scheduler := f.focusPen.scheduler.markSent (f.chosenTiles.map UInt16.ofNat) }, some b)) ∨
    (¬(f.chosenTiles ≠ [] ∧ Readable source f) ∧
      f.sendBatch source compress = (f.focusPen, none)) := by
  have henc := encodeSelection_spec hT h.valid h.inGrid
  by_cases hne : f.chosenTiles = []
  · exact .inr ⟨fun hc => hc.1 hne, sendBatch_eq_none h (.inl hne)⟩
  · split_ifs at henc with hread
    · obtain ⟨payload, hp⟩ := henc
      obtain ⟨c, hc⟩ := Option.isSome_iff_exists.mp (hT.compress payload)
      exact .inl ⟨hne, hread, sendBatch_eq_some h hne hp hc⟩
    · exact .inr ⟨fun hcon => hread hcon.2, sendBatch_eq_none h (.inr henc)⟩

/-! ### Call after call -/

/-- The dirty tiles in the order the sweep comes to them, without the pen's. -/
def owedTiles (f : FrameSender) : List ℕ := f.focusPen.scheduler.owed

/-- The pen's tile, if there is one. -/
def penTiles (f : FrameSender) : List ℕ :=
  f.focusPen.scheduler.focus.toList.filter (· < f.scheduler.size)

/-- The tiles of the batch number `j` from here, if all before it go out. -/
def group (f : FrameSender) (j : ℕ) : List ℕ :=
  f.penTiles ++ (f.owedTiles.drop (j * f.budgetTiles.toNat)).take f.budgetTiles.toNat

lemma group_zero (f : FrameSender) : f.group 0 = f.chosenTiles := by
  simp [group, chosenTiles, TileScheduler.chosen, penTiles, owedTiles]
  rfl

/-- The sender after a batch went out. -/
def afterBatch (f : FrameSender) : FrameSender :=
  { f.focusPen with
    seq := f.seq + 1
    scheduler := f.focusPen.scheduler.markSent (f.chosenTiles.map UInt16.ofNat) }

lemma focusPen_afterBatch (f : FrameSender) : f.afterBatch.focusPen = f.afterBatch := by
  have h := TileScheduler.setFocus_markSent f.scheduler f.penTile
    (f.chosenTiles.map UInt16.ofNat)
  unfold focusPen
  rw [show f.afterBatch.penTile = f.penTile from rfl]
  exact congrArg (fun s => { f.afterBatch with scheduler := s }) h

lemma Serving.focusPen (h : Serving f) : Serving f.focusPen :=
  ⟨h.valid, h.cols, h.rows, h.size, h.budget⟩

lemma Serving.afterBatch (h : Serving f) : Serving f.afterBatch := by
  obtain ⟨hw, hh⟩ := f.focusPen.scheduler.markSent_grid (f.chosenTiles.map UInt16.ofNat)
  have hs := f.focusPen.scheduler.markSent_size (f.chosenTiles.map UInt16.ofNat)
  exact ⟨h.valid, (congrArg _ hw).trans h.cols, (congrArg _ hh).trans h.rows,
    hs.trans_le h.size, h.budget⟩

lemma owedTiles_afterBatch (h : Serving f) :
    f.afterBatch.owedTiles = f.owedTiles.drop f.budgetTiles.toNat := by
  rw [owedTiles, focusPen_afterBatch]
  unfold FrameSender.afterBatch
  dsimp only
  rw [← h.select]
  exact f.focusPen.scheduler.owed_markSent_select (by have := h.budget; omega) h.size

lemma penTiles_afterBatch (f : FrameSender) : f.afterBatch.penTiles = f.penTiles := by
  have hf := f.focusPen.scheduler.markSent_focus (f.chosenTiles.map UInt16.ofNat)
  have hs := f.focusPen.scheduler.markSent_size (f.chosenTiles.map UInt16.ofNat)
  unfold penTiles
  rw [focusPen_afterBatch]
  unfold afterBatch
  dsimp only
  rw [hf, hs]
  rfl

/-- One batch on, the groups move up by one. -/
lemma group_afterBatch (h : Serving f) (j : ℕ) : f.afterBatch.group j = f.group (j + 1) := by
  unfold group
  rw [penTiles_afterBatch, owedTiles_afterBatch h, List.drop_drop]
  congr 3
  rw [Nat.succ_mul, Nat.add_comm]
  rfl

variable (source compress) in
/-- The sender after `k` calls. -/
def afterCalls (k : ℕ) (f : FrameSender) : FrameSender :=
  (fun f => (f.sendBatch source compress).1)^[k] f

lemma afterCalls_succ (k : ℕ) (f : FrameSender) : f.afterCalls source compress (k + 1)
    = (f.sendBatch source compress).1.afterCalls source compress k :=
  Function.iterate_succ_apply _ _ _

variable (source compress) in
/-- The tile is in the batch that call number `k` sends. -/
def SentAt (f : FrameSender) (k i : ℕ) : Prop :=
  ∃ b, ((f.afterCalls source compress k).sendBatch source compress).2 = some b ∧
    UInt16.ofNat i ∈ b.info.tiles

/-- While a tile that can be seen is still owed, the batch that comes next can be read. -/
def Unblocked (source : FrameSource) (f : FrameSender) : Prop :=
  ∀ j, (∃ i ∈ f.owedTiles.drop (j * f.budgetTiles.toNat), Visible f.geometry source.bounds i) →
    (selectionBox f.geometry source.bounds ((f.group j).map UInt16.ofNat)).isSome = true

/-- A batch that can be read goes out, and the call after it is the next of the run. -/
lemma sendBatch_of_readable (hT : Trusted source compress) (h : Serving f)
    (hne : f.chosenTiles ≠ []) (hr : Readable source f) :
    (∀ i ∈ f.chosenTiles, SentAt source compress f 0 i) ∧
      (∀ k, f.afterCalls source compress (k + 1) = f.afterBatch.afterCalls source compress k) := by
  rcases sendBatch_spec hT h with ⟨-, -, b, hb, hs⟩ | ⟨hno, -⟩
  · refine ⟨fun i hi => ⟨b, by rw [show f.afterCalls source compress 0 = f from rfl, hs],
      hb ▸ List.mem_map_of_mem hi⟩, fun k => ?_⟩
    rw [afterCalls_succ, hs]
    rfl
  · exact absurd ⟨hne, hr⟩ hno

/-- A batch that cannot be read is chosen again by every call after it. -/
lemma not_sentAt (hT : Trusted source compress) (h : Serving f)
    (hno : ¬(f.chosenTiles ≠ [] ∧ Readable source f)) (k i : ℕ) :
    ¬SentAt source compress f k i := by
  have hs : f.sendBatch source compress = (f.focusPen, none) :=
    ((sendBatch_spec hT h).resolve_left fun hc => hno ⟨hc.1, hc.2.1⟩).2
  have hs' : f.focusPen.sendBatch source compress = (f.focusPen, none) :=
    ((sendBatch_spec hT h.focusPen).resolve_left fun hc => hno ⟨hc.1, hc.2.1⟩).2
  have hk : ∀ k, f.focusPen.afterCalls source compress k = f.focusPen := fun k =>
    Function.iterate_fixed (congrArg Prod.fst hs') k
  rintro ⟨b, hb, -⟩
  cases k with
  | zero =>
    rw [show f.afterCalls source compress 0 = f from rfl, hs] at hb
    contradiction
  | succ k =>
    rw [afterCalls_succ, hs, hk k, hs'] at hb
    contradiction

/-- The condition moves along with the calls. -/
lemma unblocked_afterBatch_iff (h : Serving f) : Unblocked source f.afterBatch ↔
    ∀ j, (∃ i ∈ f.owedTiles.drop ((j + 1) * f.budgetTiles.toNat),
      Visible f.geometry source.bounds i) →
      (selectionBox f.geometry source.bounds ((f.group (j + 1)).map UInt16.ofNat)).isSome = true := by
  unfold Unblocked
  refine forall_congr' fun j => ?_
  rw [group_afterBatch h, owedTiles_afterBatch h, List.drop_drop, Nat.succ_mul, Nat.add_comm]
  rfl

/-- Every owed tile that can be seen is sent, at the latest by the call of its place. -/
lemma sentAt_of_unblocked (hT : Trusted source compress) (h : Serving f)
    (hu : Unblocked source f) {p i : ℕ} (hp : f.owedTiles[p]? = some i)
    (hvis : Visible f.geometry source.bounds i) : ∃ k ≤ p, SentAt source compress f k i := by
  induction p using Nat.strong_induction_on generalizing f with
  | _ p ih =>
    have hb : 0 < f.budgetTiles.toNat := by have := h.budget; omega
    have hmem : i ∈ f.owedTiles := List.mem_of_getElem? hp
    have hr : Readable source f := by
      have h0 := hu 0 ⟨i, by simpa using hmem, hvis⟩
      rwa [group_zero] at h0
    have hne : f.chosenTiles ≠ [] := by
      obtain ⟨a, l, hl⟩ := List.exists_cons_of_ne_nil (List.ne_nil_of_mem hmem)
      refine List.append_ne_nil_of_right_ne_nil _ ?_
      rw [show f.focusPen.scheduler.owed = _ from hl, ← Nat.succ_pred_eq_of_pos hb]
      exact List.cons_ne_nil _ _
    obtain ⟨hsent, hnext⟩ := sendBatch_of_readable hT h hne hr
    rcases Nat.lt_or_ge p f.budgetTiles.toNat with hlt | hge
    · refine ⟨0, Nat.zero_le _, hsent i (List.mem_append_right _ ?_)⟩
      refine List.mem_of_getElem? (i := p) ?_
      rw [List.getElem?_take_of_lt hlt]
      exact hp
    · have hu' : Unblocked source f.afterBatch :=
        (unblocked_afterBatch_iff h).mpr fun j => hu (j + 1)
      have hp' : f.afterBatch.owedTiles[p - f.budgetTiles.toNat]? = some i := by
        rw [owedTiles_afterBatch h, List.getElem?_drop, Nat.add_sub_cancel' hge]
        exact hp
      obtain ⟨k, hk, hsk⟩ := ih _ (by omega) h.afterBatch hu' hp' hvis
      refine ⟨k + 1, by omega, ?_⟩
      unfold SentAt
      rw [hnext]
      exact hsk

variable (source compress) in
/-- Every tile that was dirty and can be seen goes out within as many calls as there are
tiles. -/
def SendsAll (f : FrameSender) : Prop :=
  ∀ i : ℕ, f.scheduler.isDirty i = true → Visible f.geometry source.bounds i →
    ∃ k : ℕ, (k : ℤ) < f.geometry.tileCount ∧ SentAt source compress f k i

/-- A tile that can be seen and is sent at all: the batch before it could be read. -/
lemma readable_of_sentAt (hT : Trusted source compress) (h : Serving f) {k i : ℕ}
    (hs : SentAt source compress f k i) : f.chosenTiles ≠ [] ∧ Readable source f := by
  by_contra hno
  exact not_sentAt hT h hno k i hs

/-- What the first call sends is no longer owed. -/
lemma isDirty_afterBatch (h : Serving f) (i : ℕ) :
    f.afterBatch.scheduler.isDirty i = (f.scheduler.isDirty i && decide (i ∉ f.chosenTiles)) := by
  have hd := f.focusPen.scheduler.isDirty_markSent (f.chosenTiles.map UInt16.ofNat) i
  rw [h.map_toNat] at hd
  exact hd

lemma mem_chosen_of_sentAt_zero (hT : Trusted source compress) (h : Serving f) {i : ℕ}
    (hi : i < f.scheduler.size) (hs : SentAt source compress f 0 i) : i ∈ f.chosenTiles := by
  obtain ⟨b, hb, hmem⟩ := hs
  rcases sendBatch_spec hT h with ⟨-, -, c, hc, he⟩ | ⟨-, he⟩
  · rw [show f.afterCalls source compress 0 = f from rfl, he] at hb
    obtain rfl := Option.some.inj hb
    rw [hc] at hmem
    have hto := List.mem_map_of_mem (f := UInt16.toNat) hmem
    rw [h.map_toNat, h.toNat_ofNat hi] at hto
    exact hto
  · rw [show f.afterCalls source compress 0 = f from rfl, he] at hb
    contradiction

/-- With the first batch out, the rest of the run still sends everything. -/
lemma sendsAll_afterBatch (hT : Trusted source compress) (h : Serving f)
    (hne : f.chosenTiles ≠ []) (hr : Readable source f) (hall : SendsAll source compress f) :
    SendsAll source compress f.afterBatch := by
  intro i hd hvis
  rw [isDirty_afterBatch h, Bool.and_eq_true, decide_eq_true_eq] at hd
  obtain ⟨k, hk, hsent⟩ := hall i hd.1 hvis
  cases k with
  | zero =>
    have hi := f.scheduler.lt_size_of_isDirty hd.1
    exact absurd (mem_chosen_of_sentAt_zero hT h hi hsent) hd.2
  | succ k =>
    refine ⟨k, ?_, ?_⟩
    · have hk' : ((k : ℤ) + 1) < f.geometry.tileCount := by exact_mod_cast hk
      exact (by omega : (k : ℤ) < f.geometry.tileCount)
    · unfold SentAt at hsent
      rw [(sendBatch_of_readable hT h hne hr).2 k] at hsent
      exact hsent

lemma unblocked_of_sendsAll (hT : Trusted source compress) (h : Serving f)
    (hall : SendsAll source compress f) : Unblocked source f := by
  intro j
  induction j generalizing f with
  | zero =>
    rintro ⟨i, hi, hvis⟩
    have hd := (f.focusPen.scheduler.mem_owed.mp (List.mem_of_mem_drop hi)).1
    obtain ⟨k, -, hsent⟩ := hall i hd hvis
    rw [group_zero]
    exact (readable_of_sentAt hT h hsent).2
  | succ j ih =>
    rintro ⟨i, hi, hvis⟩
    have hd := (f.focusPen.scheduler.mem_owed.mp (List.mem_of_mem_drop hi)).1
    obtain ⟨k, -, hsent⟩ := hall i hd hvis
    obtain ⟨hne, hr⟩ := readable_of_sentAt hT h hsent
    have hrest := ih h.afterBatch (sendsAll_afterBatch hT h hne hr hall)
    rw [group_afterBatch h, owedTiles_afterBatch h, List.drop_drop, Nat.add_comm] at hrest
    refine hrest ⟨i, ?_, hvis⟩
    rw [Nat.succ_mul] at hi
    exact hi

lemma sendsAll_of_unblocked (hT : Trusted source compress) (h : Serving f)
    (hu : Unblocked source f) : SendsAll source compress f := by
  intro i hd hvis
  have hi := f.scheduler.lt_size_of_isDirty hd
  by_cases hf : f.focusPen.scheduler.focus = some i
  · -- the pen's tile is in every batch, and makes it one that can be read
    have hmem : i ∈ f.chosenTiles := by
      refine List.mem_append_left _ (List.mem_filter.mpr ⟨?_, decide_eq_true hi⟩)
      rw [hf]
      exact List.mem_singleton_self i
    have hr : Readable source f := selectionBox_of_visible h.valid h.inGrid
      (List.mem_map_of_mem hmem) ((h.toNat_ofNat hi).symm ▸ hvis)
    refine ⟨0, ?_, (sendBatch_of_readable hT h (List.ne_nil_of_mem hmem) hr).1 i hmem⟩
    rw [← h.tileCount]
    omega
  · have hmem : i ∈ f.owedTiles := f.focusPen.scheduler.mem_owed.mpr ⟨hd, hf⟩
    obtain ⟨p, hp⟩ := List.mem_iff_getElem?.mp hmem
    obtain ⟨k, hk, hsent⟩ := sentAt_of_unblocked hT h hu hp hvis
    have hlt : p < f.owedTiles.length := (List.getElem?_eq_some_iff.mp hp).1
    have hlen : f.owedTiles.length ≤ f.scheduler.size := f.focusPen.scheduler.length_owed_le
    refine ⟨k, ?_, hsent⟩
    rw [← h.tileCount]
    omega

/-- **When the sweep gets round.** Whatever the geometry, the bounds, the budget, the pen and the
state of the scheduler, the tiles that can be seen all go out within one call per tile exactly
when no batch that cannot be read stands in front of one of them. -/
theorem sendsAll_iff (hT : Trusted source compress) (h : Serving f) :
    SendsAll source compress f ↔ Unblocked source f :=
  ⟨unblocked_of_sendsAll hT h, sendsAll_of_unblocked hT h⟩

end batch

/-! ### Two tiles side by side -/

/-- A region of two tiles, each a batch of its own. -/
def twoTiles : FrameSender :=
  (({} : FrameSender).setViewport
    { x := 0, y := 0, w := 64, h := 32, outW := 64, outH := 32, fps := 30, format := .etc2Rgb8,
      tile := 32 }).setBudgetTiles 1

/-- A capture of the given part of the desktop, all of one colour. -/
def plainSource (bounds : Recti) : FrameSource where
  bounds := bounds
  read := fun _ => some fun _ _ => ⟨0, 0, 0, 255⟩

lemma trusted_plainSource (bounds : Recti) : Trusted (plainSource bounds) some :=
  ⟨fun _ _ _ _ => rfl, fun _ => rfl⟩

lemma serving_twoTiles : Serving twoTiles := by
  refine ⟨?_, ?_, ?_, ?_, ?_⟩ <;> decide

/-- On one monitor both tiles go out, in two calls. -/
theorem twoTiles_sendsAll : SendsAll (plainSource ⟨0, 0, 64, 32⟩) some twoTiles := by
  refine (sendsAll_iff (trusted_plainSource _) serving_twoTiles).mpr fun j hj => ?_
  obtain ⟨i, hi, -⟩ := hj
  match j with
  | 0 => decide
  | 1 => decide
  | j + 2 =>
    have hlen : twoTiles.owedTiles.length = 2 := by decide
    have hb : twoTiles.budgetTiles.toNat = 1 := by decide
    rw [List.drop_of_length_le (by rw [hlen, hb]; omega)] at hi
    exact absurd hi List.not_mem_nil

/-- With the left tile on a monitor that is not captured, the right one never goes out. -/
theorem twoTiles_stuck : ¬SendsAll (plainSource ⟨32, 0, 32, 32⟩) some twoTiles := by
  intro hall
  obtain ⟨k, -, hsent⟩ := hall 1 (by decide) ⟨32, 0, by decide, by decide⟩
  refine not_sentAt (trusted_plainSource _) serving_twoTiles (fun hr => ?_) k 1 hsent
  exact absurd hr.2 (by unfold Readable; decide)

end FrameSender

end Digitiz
