import Digitiz.Runs
import Digitiz.ScreenRenderer

/-!
Whose picture is on the texture.

Beside the renderer it is kept for every texel which region of the desktop the blocks over it were
encoded for, with none of them where the texture is still as it was allocated. The renderer knows a
single region for all of the texture, that of the last batch it took whole.
-/

namespace Digitiz

/-- The region each texel was last written for. -/
abbrev Owners := ℤ → ℤ → Option Recti

namespace Owners

def none : Owners := fun _ _ => Option.none

/-- Blocks for a region are written over a rectangle. -/
def stamp (o : Owners) (rect region : Recti) : Owners :=
  fun x y => if rect.contains x y then some region else o x y

/-- The tiles one after the other, until the bytes run out. -/
def stampTiles (g : ViewportGeometry) (o : Owners) : List UInt16 → List UInt8 → Owners
  | [], _ => o
  | index :: tiles, blocks =>
    let rect := g.tileOutputRect index.toNat
    let size := etc2Size rect.w rect.h
    if size = 0 ∨ size > blocks.length then o
    else stampTiles g (o.stamp rect g.region) tiles (blocks.drop size)

end Owners

structure PictureRegion where
  screen : ScreenRenderer := {}
  owners : Owners := .none

namespace PictureRegion

inductive Act
  | init
  | upload (batch : FrameBatch)
  | release
  | clear

/-- The texture is there and of the size the batch asks for. -/
def Keeps (s : PictureRegion) (batch : FrameBatch) : Prop :=
  ∃ t, s.screen.texture = some t ∧ t.w = batch.geometry.outW ∧ t.h = batch.geometry.outH

instance (s : PictureRegion) (batch : FrameBatch) : Decidable (s.Keeps batch) :=
  match h : s.screen.texture with
  | some t => decidable_of_iff (t.w = batch.geometry.outW ∧ t.h = batch.geometry.outH)
      ⟨fun ht => ⟨t, h, ht⟩, fun ⟨t', ht', hw⟩ => by
        obtain rfl := Option.some.inj (h.symm.trans ht'); exact hw⟩
  | none => isFalse fun ⟨t, ht, _⟩ => by simp [h] at ht

def upload (s : PictureRegion) (batch : FrameBatch) : PictureRegion where
  screen := s.screen.upload batch
  owners :=
    if !s.screen.ready ∨ !batch.geometry.valid then s.owners
    else (if s.Keeps batch then s.owners else .none).stampTiles batch.geometry batch.tiles batch.blocks

def step (s : PictureRegion) : Act → PictureRegion
  | .init => { s with screen := s.screen.init }
  | .upload batch => s.upload batch
  | .release => ⟨s.screen.release, .none⟩
  | .clear => { s with screen := s.screen.clear }

def run (acts : List Act) : PictureRegion := acts.foldl step {}

/-- While there is a picture, every texel of it is as it was allocated or was encoded for the region
the texture is stretched over. -/
def Unmixed (s : PictureRegion) : Prop :=
  s.screen.hasImage = true → ∀ x y, s.owners x y = none ∨ s.owners x y = some s.screen.region

/-- The tiles of a batch that are written before its bytes run out, and whether they never do. -/
def written (g : ViewportGeometry) : List UInt16 → List UInt8 → List UInt16 × Bool
  | [], _ => ([], true)
  | index :: tiles, blocks =>
    let rect := g.tileOutputRect index.toNat
    let size := etc2Size rect.w rect.h
    if size = 0 ∨ size > blocks.length then ([], false)
    else
      let (rest, whole) := written g tiles (blocks.drop size)
      (index :: rest, whole)

def Covers (batch : FrameBatch) (x y : ℤ) : Prop :=
  ∃ index ∈ batch.tiles, (batch.geometry.tileOutputRect index.toNat).contains x y = true

/-- A batch that goes onto a texture that is kept brings no second region onto a picture: taken
whole it covers all that was written for another region, and cut short it is for the region shown or
was cut before the first tile. -/
def OnePlace (s : PictureRegion) : Act → Prop
  | .init | .release | .clear => True
  | .upload batch =>
    s.screen.ready = true → batch.geometry.valid = true → s.Keeps batch →
      if (written batch.geometry batch.tiles batch.blocks).2 then
        ∀ x y region, s.owners x y = some region → region ≠ batch.geometry.region → Covers batch x y
      else s.screen.painted = true → batch.geometry.region ≠ s.screen.region →
        (written batch.geometry batch.tiles batch.blocks).1 = []

/-! ### What a batch writes -/

variable {g : ViewportGeometry}

lemma written_whole {tiles : List UInt16} {blocks : List UInt8}
    (h : (written g tiles blocks).2 = true) : (written g tiles blocks).1 = tiles := by
  induction tiles generalizing blocks with
  | nil => rfl
  | cons index tiles ih =>
    rw [written] at h ⊢
    dsimp only at h ⊢
    split_ifs at h ⊢
    exact congrArg (index :: ·) (ih h)

lemma writeTiles_written (t : Texture) (tiles : List UInt16) (blocks : List UInt8) :
    (t.writeTiles g tiles blocks).2 = (written g tiles blocks).2 := by
  induction tiles generalizing t blocks with
  | nil => rfl
  | cons index tiles ih =>
    rw [Texture.writeTiles, written]
    dsimp only
    split_ifs
    · rfl
    · exact ih _ _

/-- Only tiles with something in them are written. -/
lemma pos_of_written {tiles : List UInt16} {blocks : List UInt8} {index : UInt16}
    (h : index ∈ (written g tiles blocks).1) :
    0 < (g.tileOutputRect index.toNat).w ∧ 0 < (g.tileOutputRect index.toNat).h := by
  induction tiles generalizing blocks with
  | nil => simp [written] at h
  | cons i tiles ih =>
    rw [written] at h
    dsimp only at h
    split_ifs at h with hsize
    · simp at h
    · obtain rfl | h := List.mem_cons.mp h
      · by_contra hn
        exact hsize (.inl (if_pos (by omega)))
      · exact ih h

/-- A texel has the region of the batch where a tile of it was written, and its own elsewhere. -/
lemma stampTiles_apply (o : Owners) (tiles : List UInt16) (blocks : List UInt8) (x y : ℤ) :
    o.stampTiles g tiles blocks x y = some g.region ∧
        (∃ index ∈ (written g tiles blocks).1,
          (g.tileOutputRect index.toNat).contains x y = true) ∨
      o.stampTiles g tiles blocks x y = o x y ∧
        ∀ index ∈ (written g tiles blocks).1,
          (g.tileOutputRect index.toNat).contains x y = false := by
  induction tiles generalizing o blocks with
  | nil => exact .inr ⟨rfl, by simp [written]⟩
  | cons i tiles ih =>
    rw [Owners.stampTiles, written]
    dsimp only
    split_ifs with hsize
    · exact .inr ⟨rfl, by simp⟩
    · obtain ⟨hr, index, hi, hc⟩ | ⟨hr, hno⟩ := ih (o.stamp (g.tileOutputRect i.toNat) g.region)
        (blocks.drop (etc2Size (g.tileOutputRect i.toNat).w (g.tileOutputRect i.toNat).h))
      · exact .inl ⟨hr, index, List.mem_cons_of_mem _ hi, hc⟩
      · cases hc : (g.tileOutputRect i.toNat).contains x y with
        | true =>
          refine .inl ⟨?_, i, List.mem_cons_self, hc⟩
          rw [hr, Owners.stamp, if_pos hc]
        | false =>
          refine .inr ⟨?_, fun index hi => ?_⟩
          · rw [hr, Owners.stamp, if_neg (by simp [hc])]
          · obtain rfl | hi := List.mem_cons.mp hi
            · exact hc
            · exact hno index hi

/-! ### One upload -/

variable {s : PictureRegion} {batch : FrameBatch}

lemma ensureTexture_of_keeps (hk : s.Keeps batch) :
    (s.screen.ensureTexture batch.geometry.outW batch.geometry.outH).2 = s.screen.painted := by
  obtain ⟨t, ht, hw⟩ := hk
  simp [ScreenRenderer.ensureTexture, ht, hw]

lemma ensureTexture_of_not_keeps (hk : ¬s.Keeps batch) :
    (s.screen.ensureTexture batch.geometry.outW batch.geometry.outH).2 = false := by
  unfold ScreenRenderer.ensureTexture
  split
  · next t ht =>
    split_ifs with hw
    · exact absurd ⟨t, ht, hw⟩ hk
    · rfl
  · rfl

/-- A batch that was taken whole is the picture. -/
lemma upload_whole (hr : s.screen.ready = true) (hv : batch.geometry.valid = true)
    (hw : (written batch.geometry batch.tiles batch.blocks).2 = true) :
    (s.screen.upload batch).hasImage = true ∧
      (s.screen.upload batch).region = batch.geometry.region := by
  unfold ScreenRenderer.upload
  rw [if_neg (by simp [hr, hv])]
  dsimp only
  split
  · next t h =>
    rw [← writeTiles_written (s.screen.ensureTexture _ _).1, h] at hw
    contradiction
  · exact ⟨rfl, rfl⟩

/-- A batch that was cut short leaves the region, and a picture only where there was one. -/
lemma upload_cut (hr : s.screen.ready = true) (hv : batch.geometry.valid = true)
    (hw : (written batch.geometry batch.tiles batch.blocks).2 = false) :
    (s.screen.upload batch).hasImage =
        (s.screen.ensureTexture batch.geometry.outW batch.geometry.outH).2 ∧
      (s.screen.upload batch).region = s.screen.region := by
  unfold ScreenRenderer.upload
  rw [if_neg (by simp [hr, hv])]
  dsimp only
  split
  · exact ⟨rfl, rfl⟩
  · next t h =>
    rw [← writeTiles_written (s.screen.ensureTexture _ _).1, h] at hw
    contradiction

lemma upload_owners (hr : s.screen.ready = true) (hv : batch.geometry.valid = true) :
    (s.upload batch).owners = (if s.Keeps batch then s.owners else .none).stampTiles
      batch.geometry batch.tiles batch.blocks := if_neg (by simp [hr, hv])

/-- Taken whole, a batch shows one region exactly when it covers what was there for others. -/
lemma unmixed_upload_whole (hr : s.screen.ready = true) (hv : batch.geometry.valid = true)
    (hk : s.Keeps batch) (hw : (written batch.geometry batch.tiles batch.blocks).2 = true) :
    (s.upload batch).Unmixed ↔ ∀ x y region, s.owners x y = some region →
      region ≠ batch.geometry.region → Covers batch x y := by
  obtain ⟨himage, hregion⟩ := upload_whole hr hv hw
  have howners : (s.upload batch).owners =
      s.owners.stampTiles batch.geometry batch.tiles batch.blocks := by
    rw [upload_owners hr hv, if_pos hk]
  have happly := stampTiles_apply (g := batch.geometry) s.owners batch.tiles batch.blocks
  rw [written_whole hw] at happly
  constructor
  · intro hun x y region ho hne
    obtain ⟨-, hcov⟩ | ⟨hsame, -⟩ := happly x y
    · exact hcov
    · have := hun himage x y
      rw [howners, hsame, ho, show (s.upload batch).screen.region = _ from hregion] at this
      simp [hne] at this
  · intro hcov _ x y
    rw [howners, show (s.upload batch).screen.region = _ from hregion]
    obtain ⟨hmine, -⟩ | ⟨hsame, hno⟩ := happly x y
    · exact .inr hmine
    · rw [hsame]
      cases ho : s.owners x y with
      | none => exact .inl rfl
      | some region =>
        by_cases hne : region = batch.geometry.region
        · exact .inr (by rw [hne])
        · obtain ⟨index, hi, hc⟩ := hcov x y region ho hne
          rw [hno index hi] at hc
          contradiction

/-- Cut short over a picture, a batch shows one region exactly when it is for the region shown or
wrote nothing. -/
lemma unmixed_upload_cut (hr : s.screen.ready = true) (hv : batch.geometry.valid = true)
    (hk : s.Keeps batch) (hw : (written batch.geometry batch.tiles batch.blocks).2 = false)
    (hun : s.Unmixed) :
    (s.upload batch).Unmixed ↔ (s.screen.painted = true →
      batch.geometry.region ≠ s.screen.region →
        (written batch.geometry batch.tiles batch.blocks).1 = []) := by
  obtain ⟨himage, hregion⟩ := upload_cut hr hv hw
  rw [ensureTexture_of_keeps hk] at himage
  have howners : (s.upload batch).owners =
      s.owners.stampTiles batch.geometry batch.tiles batch.blocks := by
    rw [upload_owners hr hv, if_pos hk]
  have happly := stampTiles_apply (g := batch.geometry) s.owners batch.tiles batch.blocks
  constructor
  · intro hun' hp hne
    -- the corner of the first tile written would show the other region
    by_contra hnil
    obtain ⟨index, hi⟩ := List.exists_mem_of_ne_nil _ hnil
    obtain ⟨hw0, hh0⟩ := pos_of_written hi
    let rect := batch.geometry.tileOutputRect index.toNat
    have hcorner : rect.contains rect.x rect.y = true :=
      Recti.contains_iff.mpr
        ⟨⟨le_rfl, lt_add_of_pos_right _ hw0⟩, le_rfl, lt_add_of_pos_right _ hh0⟩
    obtain ⟨hmine, -⟩ | ⟨-, hno⟩ := happly rect.x rect.y
    · have := hun' (himage.trans hp) rect.x rect.y
      rw [howners, hmine, show (s.upload batch).screen.region = _ from hregion] at this
      simp [hne] at this
    · rw [hno index hi] at hcorner
      contradiction
  · intro hcond hi x y
    have hp : s.screen.painted = true := himage.symm.trans hi
    obtain ⟨t, ht, -⟩ := hk
    have hbefore := hun (by simp [ScreenRenderer.hasImage, ht, hp]) x y
    rw [howners, show (s.upload batch).screen.region = _ from hregion]
    obtain ⟨hmine, index, hmem, -⟩ | ⟨hsame, -⟩ := happly x y
    · by_cases hne : batch.geometry.region = s.screen.region
      · exact .inr (by rw [hmine, hne])
      · rw [hcond hp hne] at hmem
        simp at hmem
    · rwa [hsame]

/-- A batch that makes a new texture is alone on it. -/
lemma unmixed_upload_new (hr : s.screen.ready = true) (hv : batch.geometry.valid = true)
    (hk : ¬s.Keeps batch) : (s.upload batch).Unmixed := by
  intro himage x y
  cases hw : (written batch.geometry batch.tiles batch.blocks).2 with
  | false =>
    have hnone : (s.upload batch).screen.hasImage = false :=
      (upload_cut hr hv hw).1.trans (ensureTexture_of_not_keeps hk)
    rw [hnone] at himage
    contradiction
  | true =>
    rw [upload_owners hr hv, if_neg hk,
      show (s.upload batch).screen.region = _ from (upload_whole hr hv hw).2]
    obtain ⟨hmine, -⟩ | ⟨hsame, -⟩ :=
      stampTiles_apply (g := batch.geometry) .none batch.tiles batch.blocks x y
    · exact .inr hmine
    · exact .inl hsame

/-- **One call.** It keeps the picture in one place exactly under its condition. -/
theorem step_unmixed_iff (hun : s.Unmixed) (a : Act) : (s.step a).Unmixed ↔ s.OnePlace a := by
  cases a with
  | init => exact iff_of_true hun trivial
  | release => exact iff_of_true (fun h => by simp [step, ScreenRenderer.release,
      ScreenRenderer.hasImage] at h) trivial
  | clear => exact iff_of_true (fun h => by simp [step, ScreenRenderer.clear,
      ScreenRenderer.hasImage] at h) trivial
  | upload batch =>
    by_cases hskip : s.screen.ready = true ∧ batch.geometry.valid = true
    · obtain ⟨hr, hv⟩ := hskip
      by_cases hk : s.Keeps batch
      · simp only [OnePlace, hr, hv, hk, true_implies]
        cases hw : (written batch.geometry batch.tiles batch.blocks).2 with
        | true =>
          rw [if_pos rfl]
          exact unmixed_upload_whole hr hv hk hw
        | false =>
          rw [if_neg Bool.false_ne_true]
          exact unmixed_upload_cut hr hv hk hw hun
      · exact iff_of_true (unmixed_upload_new hr hv hk) fun _ _ h => absurd h hk
    · -- nothing is uploaded without the program or for an invalid grid
      have hno : !s.screen.ready ∨ !batch.geometry.valid := by
        by_contra hn
        exact hskip (by simpa using hn)
      have hsame : s.upload batch = s := by
        have hs : s.screen.upload batch = s.screen := if_pos (by simpa using hno)
        have ho : (s.upload batch).owners = s.owners := if_pos (by simpa using hno)
        exact congrArg₂ mk hs ho
      exact iff_of_true (by rw [step, hsame]; exact hun) fun hr hv => absurd ⟨hr, hv⟩ hskip

/-- **The picture is of one place exactly when every batch brings it there.** After every beginning
of a sequence of calls the picture is unmixed, exactly when every upload in it either makes a new
texture or covers, taken whole, all that was written for another region. -/
theorem picture_of_one_place_iff (acts : List Act) :
    (∀ n, (run (acts.take n)).Unmixed) ↔
      ∀ n a, acts[n]? = some a → (run (acts.take n)).OnePlace a := by
  have hinit : Unmixed {} := fun h => by simp [ScreenRenderer.hasImage] at h
  exact holds_along_iff (fun s a (h : Unmixed s) => step_unmixed_iff h a) hinit acts

/-! ### A pan -/

/-- A batch of some of the two tiles of a region of 16 by 8 pixels. -/
def strip (x : ℤ) (tiles : List UInt16) : FrameBatch where
  geometry := makeGeometry ⟨x, 0, 16, 8⟩ 16 8 8
  tiles := tiles
  blocks := List.replicate (32 * tiles.length) 1

/-- The view is panned by a pixel and only the left tile of it has come so far: the right half of
the picture is still the old place, stretched over the new one. -/
theorem pan_mixes : ¬(run [.init, .upload (strip 0 [0, 1]), .upload (strip 1 [0])]).Unmixed := by
  intro h
  have hright := h (by decide +kernel) 8 0
  revert hright
  decide +kernel

end PictureRegion

end Digitiz
