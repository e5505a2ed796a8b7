import Digitiz.ScreenRenderer
import Digitiz.SentBatches

/-!
What is on the picture, and what will be once the batches on their way are uploaded.

Tiles of one grid do not overlap, so a batch changes the tiles it names and no others. A batch of
another grid is taken to spoil everything that was there before it.
-/

namespace Digitiz

open ViewportGeometry FrameSender

/-! ### Tiles apart -/

namespace ViewportGeometry

variable {g : ViewportGeometry} {i j : ℕ}

lemma not_overlaps (hv : g.valid = true) (hi : (i : ℤ) < g.tileCount) (hj : (j : ℤ) < g.tileCount)
    (hij : i ≠ j) : (g.tileOutputRect i).overlaps (g.tileOutputRect j) = false := by
  have ht := (valid_iff.mp hv).2.2.2.2.1
  rw [tileOutputRect_eq hv (by omega) hi, tileOutputRect_eq hv (by omega) hj]
  refine decide_eq_false fun ⟨hx, hx', hy, hy'⟩ => hij (Int.natCast_inj.mp ?_)
  dsimp only at hx hx' hy hy'
  exact index_ext (Rescale.eq_of_overlap ht (min_le_left _ _) (min_le_left _ _) hx hx')
    (Rescale.eq_of_overlap ht (min_le_left _ _) (min_le_left _ _) hy hy')

lemma tileOutputRect_ne (hv : g.valid = true) (hi : (i : ℤ) < g.tileCount)
    (hj : (j : ℤ) < g.tileCount) (hij : i ≠ j) : g.tileOutputRect i ≠ g.tileOutputRect j := by
  intro he
  have hno := not_overlaps hv hi hj hij
  have hpos := tileOutputRect_pos hv (by omega) hj
  rw [he] at hno
  refine absurd (decide_eq_true ?_) (ne_true_of_eq_false hno)
  omega

end ViewportGeometry

/-! ### Batches made of tiles -/

/-- The batch is made of these blocks for tiles of this grid. -/
structure FrameBatch.Of (fb : FrameBatch) (g : ViewportGeometry) (content : ℕ → List UInt8) :
    Prop where
  geometry : fb.geometry = g
  inGrid : InGrid g fb.tiles
  blocks : fb.blocks = fb.tiles.flatMap fun t => content t.toNat
  length : ∀ t ∈ fb.tiles, (content t.toNat).length = g.tileBytes t

variable {g : ViewportGeometry} {i : ℕ} {c : List UInt8} {fb : FrameBatch}

lemma Texture.cells_write {r rect : Recti} (t : Texture) (blocks : List UInt8) (hne : r ≠ rect)
    (hno : r.overlaps rect = false) : (t.write rect blocks).cells r = t.cells r := by
  simp [Texture.write, hne, hno]

/-- The tiles of a batch are written, and no others. -/
lemma Texture.writeTiles_spec (hv : g.valid = true) {tiles : List UInt16} (ht : InGrid g tiles)
    (content : ℕ → List UInt8) (hlen : ∀ t ∈ tiles, (content t.toNat).length = g.tileBytes t)
    (t : Texture) :
    ∃ t', t.writeTiles g tiles (tiles.flatMap fun t => content t.toNat) = (t', true) ∧
      (t'.w = t.w ∧ t'.h = t.h) ∧ ∀ i : ℕ, (i : ℤ) < g.tileCount →
        t'.cells (g.tileOutputRect i) =
          if i ∈ tiles.map UInt16.toNat then some (content i) else t.cells (g.tileOutputRect i) := by
  induction tiles generalizing t with
  | nil => exact ⟨t, rfl, ⟨rfl, rfl⟩, by simp⟩
  | cons a r ih =>
    have ha := ht a List.mem_cons_self
    have hsize := hlen a List.mem_cons_self
    obtain ⟨hpos, -⟩ := tileBytes_le hv ha
    obtain ⟨t', hw, hdim, hcells⟩ := ih (fun u hu => ht u (List.mem_cons_of_mem _ hu))
      (fun u hu => hlen u (List.mem_cons_of_mem _ hu))
      (t.write (g.tileOutputRect a.toNat) (content a.toNat))
    refine ⟨t', ?_, hdim, fun i hi => ?_⟩
    · rw [List.flatMap_cons, writeTiles]
      rw [← tileBytes, if_neg (by rw [List.length_append]; omega), List.take_left' hsize,
        List.drop_left' hsize]
      exact hw
    · rw [hcells i hi]
      by_cases hia : i = a.toNat
      · subst hia
        by_cases hr : a.toNat ∈ r.map UInt16.toNat <;> simp [hr, Texture.write]
      · rw [cells_write _ _ (tileOutputRect_ne hv hi ha hia) (not_overlaps hv hi ha hia)]
        simp [hia]

/-! ### What is shown, and what will be -/

/-- The tile is on the picture with these blocks. -/
def Holds (screen : ScreenRenderer) (g : ViewportGeometry) (i : ℕ) (c : List UInt8) : Prop :=
  screen.painted = true ∧ screen.region = g.region ∧ ∃ t, screen.texture = some t ∧
    (t.w = g.outW ∧ t.h = g.outH) ∧ t.cells (g.tileOutputRect i) = some c

/-- The batch brings the tile with these blocks. -/
def Carries (fb : FrameBatch) (g : ViewportGeometry) (i : ℕ) (c : List UInt8) : Prop :=
  ∃ content, fb.Of g content ∧ content i = c ∧ i ∈ fb.tiles.map UInt16.toNat

/-- The batch leaves the tile alone. -/
def Passes (fb : FrameBatch) (g : ViewportGeometry) (i : ℕ) : Prop :=
  ∃ content, fb.Of g content ∧ i ∉ fb.tiles.map UInt16.toNat

lemma ScreenRenderer.ready_upload (screen : ScreenRenderer) (fb : FrameBatch) :
    (screen.upload fb).ready = screen.ready := by
  unfold ScreenRenderer.upload
  split_ifs
  · rfl
  · dsimp only
    split <;> rfl

/-- What the texture is after a batch of its grid. -/
lemma upload_of {screen : ScreenRenderer} (hr : screen.ready = true) (hv : g.valid = true)
    {content : ℕ → List UInt8} (hof : fb.Of g content) :
    ∃ t, (screen.upload fb).texture = some t ∧ (screen.upload fb).painted = true ∧
      (screen.upload fb).region = g.region ∧ (t.w = g.outW ∧ t.h = g.outH) ∧
      ∀ i : ℕ, (i : ℤ) < g.tileCount → t.cells (g.tileOutputRect i) =
        if i ∈ fb.tiles.map UInt16.toNat then some (content i)
        else (screen.ensureTexture g.outW g.outH).1.cells (g.tileOutputRect i) := by
  obtain ⟨t, hw, hdim, hcells⟩ := Texture.writeTiles_spec hv hof.inGrid content hof.length
    (screen.ensureTexture g.outW g.outH).1
  have hsame : (screen.ensureTexture g.outW g.outH).1.w = g.outW ∧
      (screen.ensureTexture g.outW g.outH).1.h = g.outH := by
    unfold ScreenRenderer.ensureTexture
    split
    · split_ifs with hs
      · exact hs
      · exact ⟨rfl, rfl⟩
    · exact ⟨rfl, rfl⟩
  have hup : screen.upload fb = { screen with
      texture := some t, region := g.region, painted := true } := by
    unfold ScreenRenderer.upload
    rw [hof.geometry, if_neg (by simp [hr, hv])]
    dsimp only
    rw [hof.blocks, hw]
  rw [hup]
  exact ⟨t, rfl, rfl, rfl, ⟨hdim.1.trans hsame.1, hdim.2.trans hsame.2⟩, hcells⟩

lemma holds_of_carries {screen : ScreenRenderer} (hr : screen.ready = true) (hv : g.valid = true)
    (hi : (i : ℤ) < g.tileCount) (h : Carries fb g i c) : Holds (screen.upload fb) g i c := by
  obtain ⟨content, hof, rfl, hmem⟩ := h
  obtain ⟨t, htex, hp, hreg, hdim, hcells⟩ := upload_of hr hv hof
  exact ⟨hp, hreg, t, htex, hdim, by rw [hcells i hi, if_pos hmem]⟩

lemma holds_of_passes {screen : ScreenRenderer} (hr : screen.ready = true) (hv : g.valid = true)
    (hi : (i : ℤ) < g.tileCount) (hpass : Passes fb g i) (h : Holds screen g i c) :
    Holds (screen.upload fb) g i c := by
  obtain ⟨content, hof, hmem⟩ := hpass
  obtain ⟨t, htex, hp, hreg, hdim, hcells⟩ := upload_of hr hv hof
  obtain ⟨-, -, t₀, htex₀, hdim₀, hc⟩ := h
  refine ⟨hp, hreg, t, htex, hdim, ?_⟩
  rw [hcells i hi, if_neg hmem, ScreenRenderer.ensureTexture, htex₀]
  dsimp only
  rw [if_pos hdim₀, hc]

/-- The tile will have these blocks once the batches are uploaded, if `P` says it has them now. -/
def Will (P : Prop) (g : ViewportGeometry) (i : ℕ) (c : List UInt8) : List FrameBatch → Prop
  | [] => P
  | fb :: l => Will (Carries fb g i c ∨ Passes fb g i ∧ P) g i c l

lemma will_mono {P Q : Prop} (h : P → Q) {l : List FrameBatch} (hl : Will P g i c l) :
    Will Q g i c l := by
  induction l generalizing P Q with
  | nil => exact h hl
  | cons fb l ih => exact ih (Or.imp_right (And.imp_right h)) hl

lemma will_append (P : Prop) (l l' : List FrameBatch) :
    Will P g i c (l ++ l') = Will (Will P g i c l) g i c l' := by
  induction l generalizing P with
  | nil => rfl
  | cons fb l ih => exact ih _

/-- It has them now, or one of the batches brings them. -/
lemma will_cases {P : Prop} {l : List FrameBatch} (h : Will P g i c l) :
    P ∨ ∃ fb ∈ l, Carries fb g i c := by
  induction l generalizing P with
  | nil => exact .inl h
  | cons fb l ih =>
    rcases ih h with (hc | hp) | ⟨fb', hmem, hc⟩
    · exact .inr ⟨fb, List.mem_cons_self, hc⟩
    · exact .inl hp.2
    · exact .inr ⟨fb', List.mem_cons_of_mem _ hmem, hc⟩

/-- Uploading the first of the batches changes nothing about what will be. -/
lemma will_upload {screen : ScreenRenderer} (hr : screen.ready = true) (hv : g.valid = true)
    (hi : (i : ℤ) < g.tileCount) {l l' : List FrameBatch}
    (h : Will (Holds screen g i c) g i c (l ++ l')) :
    Will (Holds (l.foldl ScreenRenderer.upload screen) g i c) g i c l' := by
  induction l generalizing screen with
  | nil => exact h
  | cons fb l ih =>
    refine ih ((screen.ready_upload fb).trans hr) (will_mono ?_ h)
    rintro (hc | ⟨hp, hh⟩)
    · exact holds_of_carries hr hv hi hc
    · exact holds_of_passes hr hv hi hp hh

end Digitiz
