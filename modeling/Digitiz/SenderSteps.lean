import Digitiz.FrameSender

/-!
What each call does to the sender, said once.

A request either stops the stream, goes on with the grid there is, or makes a new grid that is
owed whole. A capture only ever adds to what is owed, and a batch takes off it exactly the tiles
it names.
-/

namespace Digitiz

/-- The request can be served. -/
def ViewportReq.starts (r : ViewportReq) : Bool :=
  r.fps > 0 ∧ r.format = .etc2Rgb8 ∧ r.geometry.valid

lemma ViewportReq.valid_of_starts {r : ViewportReq} (h : r.starts = true) :
    r.geometry.valid = true :=
  (of_decide_eq_true h).2.2

/-- There is no grid for an empty region. -/
lemma ViewportReq.pos_of_valid {r : ViewportReq} (h : r.geometry.valid = true) :
    0 < r.w.toInt ∧ 0 < r.h.toInt := by
  by_contra hno
  rw [ViewportReq.geometry,
    ViewportGeometry.makeGeometry_invalid _ _ _ _ (by dsimp only; omega)] at h
  contradiction

lemma TileScheduler.size_eq_of_grid {s t : TileScheduler}
    (h : t.cols = s.cols ∧ t.rows = s.rows) : t.size = s.size := by
  rw [TileScheduler.size, h.1, h.2, TileScheduler.size]

namespace FrameSender

/-! ### The grid -/

/-- The grid of the scheduler is that of the geometry. -/
def Matched (f : FrameSender) : Prop :=
  (f.scheduler.cols : ℤ) = f.geometry.cols ∧ (f.scheduler.rows : ℤ) = f.geometry.rows

variable {f f' : FrameSender}

lemma Matched.tileCount (h : Matched f) : (f.scheduler.size : ℤ) = f.geometry.tileCount := by
  rw [TileScheduler.size, ViewportGeometry.tileCount, ← h.1, ← h.2]
  push_cast
  rfl

lemma Matched.of_grid (h : Matched f) (hg : f'.geometry = f.geometry)
    (hs : f'.scheduler.cols = f.scheduler.cols ∧ f'.scheduler.rows = f.scheduler.rows) :
    Matched f' := by
  unfold Matched
  rw [hg, hs.1, hs.2]
  exact h

lemma matched_configure {r : ViewportReq} (hr : r.starts = true) (f : FrameSender) :
    Matched { f with
      geometry := r.geometry
      scheduler := f.scheduler.configure r.geometry.cols r.geometry.rows } := by
  have hc := ViewportGeometry.cols_pos (ViewportReq.valid_of_starts hr)
  have hrw := ViewportGeometry.rows_pos (ViewportReq.valid_of_starts hr)
  exact ⟨Int.toNat_of_nonneg hc.le, Int.toNat_of_nonneg hrw.le⟩

/-! ### Requests -/

variable (f : FrameSender) (r : ViewportReq)

lemma setViewport_of_not_starts (h : r.starts = false) :
    ∃ r', f.setViewport r = { f with streaming := false, request := r' } := by
  have h' : ¬(r.fps > 0 ∧ r.format = .etc2Rgb8 ∧ r.geometry.valid) := of_decide_eq_false h
  unfold setViewport
  dsimp only
  by_cases hwants : ¬(r.fps > 0 ∧ r.format ≠ .off) ∨ (!r.geometry.valid) = true
  · exact ⟨r, if_pos hwants⟩
  · rw [if_neg hwants, if_pos]
    · exact ⟨f.request, rfl⟩
    · intro hfmt
      simp only [not_or, not_not, Bool.not_eq_true', Bool.not_eq_false] at hwants
      exact h' ⟨hwants.1.1, hfmt, hwants.2⟩

lemma setViewport_of_starts (h : r.starts = true) :
    f.setViewport r = if f.geometryReady = true ∧ r.geometry = f.geometry then
        { f with request := r, geometry := r.geometry, streaming := true }
      else { f with
        request := r, geometry := r.geometry, streaming := true, geometryReady := true
        scheduler := f.scheduler.configure r.geometry.cols r.geometry.rows } := by
  obtain ⟨hfps, hfmt, hv⟩ : r.fps > 0 ∧ r.format = .etc2Rgb8 ∧ r.geometry.valid = true :=
    of_decide_eq_true h
  have hoff : r.format ≠ .off := by rw [hfmt]; decide
  have hchanged : ((!f.geometryReady) = true ∨ r.geometry.region ≠ f.geometry.region ∨
      r.geometry.outW ≠ f.geometry.outW ∨ r.geometry.outH ≠ f.geometry.outH ∨
      r.geometry.tile ≠ f.geometry.tile) ↔ ¬(f.geometryReady = true ∧ r.geometry = f.geometry) := by
    rw [ViewportGeometry.ext_iff]
    cases f.geometryReady <;> simp; tauto
  unfold setViewport
  dsimp only
  rw [if_neg (by simp [hfps, hoff, hv]), if_neg (by simpa using hfmt)]
  simp only [hchanged, ite_not]

/-! ### Captures -/

/-- The update says something about the tile. -/
def FrameUpdate.touches (u : FrameUpdate) (g : ViewportGeometry) (i : ℕ) : Prop :=
  u.full = true ∨ u.dirty = [] ∨ ∃ d ∈ u.dirty ++ u.moves,
    (g.tilesTouching d).contains (i % g.cols.toNat : ℕ) (i / g.cols.toNat : ℕ) = true

lemma foldl_markDirtyRect (g : ViewportGeometry) (rects : List Recti) (s : TileScheduler) :
    let t := rects.foldl (fun s d => s.markDirtyRect (g.tilesTouching d)) s
    (t.cols = s.cols ∧ t.rows = s.rows) ∧
      ∀ i, (s.isDirty i = true ∨ i < s.size ∧ ∃ d ∈ rects,
        (g.tilesTouching d).contains (i % s.cols : ℕ) (i / s.cols : ℕ) = true) →
        t.isDirty i = true := by
  induction rects generalizing s with
  | nil => simp
  | cons d rects ih =>
    obtain ⟨hw, hh⟩ := s.markDirtyRect_grid (g.tilesTouching d)
    obtain ⟨⟨hw', hh'⟩, hd⟩ := ih (s.markDirtyRect (g.tilesTouching d))
    have hsize : (s.markDirtyRect (g.tilesTouching d)).size = s.size :=
      TileScheduler.size_eq_of_grid ⟨hw, hh⟩
    refine ⟨⟨hw'.trans hw, hh'.trans hh⟩, fun i hi => hd i ?_⟩
    rw [hsize, hw]
    rcases hi with hi | ⟨hi, e, he, hin⟩
    · exact .inl (s.isDirty_markDirtyRect _ (.inl hi))
    · rcases List.mem_cons.mp he with rfl | he
      · exact .inl (s.isDirty_markDirtyRect _ (.inr ⟨hi, hin⟩))
      · exact .inr ⟨hi, e, he, hin⟩

/-- The dirty rectangles of an update, or everything where it names none. -/
lemma mark_spec (u : FrameUpdate) (g : ViewportGeometry) (s : TileScheduler) :
    let t := if u.full ∨ u.dirty = [] then s.markAllDirty
      else u.dirty.foldl (fun s d => s.markDirtyRect (g.tilesTouching d)) s
    (t.cols = s.cols ∧ t.rows = s.rows) ∧
      (∀ i, s.isDirty i = true → t.isDirty i = true) ∧
      ∀ i < s.size, (u.full = true ∨ u.dirty = [] ∨ ∃ d ∈ u.dirty,
        (g.tilesTouching d).contains (i % s.cols : ℕ) (i / s.cols : ℕ) = true) →
        t.isDirty i = true := by
  dsimp only
  split_ifs with hall
  · have hd : ∀ i < s.size, s.markAllDirty.isDirty i = true := fun i hi => by
      rw [TileScheduler.isDirty_markAllDirty, decide_eq_true hi]
    exact ⟨⟨rfl, rfl⟩, fun i hi => hd i (s.lt_size_of_isDirty hi), fun i hi _ => hd i hi⟩
  · obtain ⟨hgrid, hd⟩ := foldl_markDirtyRect g u.dirty s
    refine ⟨hgrid, fun i hi => hd i (.inl hi), fun i hi htouch => hd i (.inr ⟨hi, ?_⟩)⟩
    rcases htouch with h | h | h
    · exact absurd (.inl h) hall
    · exact absurd (.inr h) hall
    · exact h

/-- A capture keeps the grid and what is owed, and marks what the update says. -/
lemma capture_spec (u : Option FrameUpdate) :
    ∃ s, f.capture u = { f with scheduler := s } ∧
      (s.cols = f.scheduler.cols ∧ s.rows = f.scheduler.rows) ∧
      (∀ i, f.scheduler.isDirty i = true → s.isDirty i = true) ∧
      (∀ u', u = some u' → (f.scheduler.cols : ℤ) = f.geometry.cols → ∀ i < f.scheduler.size,
        u'.touches f.geometry i → s.isDirty i = true) := by
  cases u with
  | none => exact ⟨f.scheduler, rfl, ⟨rfl, rfl⟩, fun _ h => h, nofun⟩
  | some u =>
    obtain ⟨hgrid, hkeep, hmark⟩ := mark_spec u f.geometry f.scheduler
    refine ⟨_, rfl, ?_⟩
    generalize (if u.full ∨ u.dirty = [] then f.scheduler.markAllDirty
      else u.dirty.foldl (fun s d => s.markDirtyRect (f.geometry.tilesTouching d)) f.scheduler) = t
      at hgrid hkeep hmark
    -- what moved is marked on top of that
    obtain ⟨hgrid', hd⟩ := foldl_markDirtyRect f.geometry u.moves t
    rw [TileScheduler.size_eq_of_grid hgrid, hgrid.1] at hd
    refine ⟨⟨hgrid'.1.trans hgrid.1, hgrid'.2.trans hgrid.2⟩,
      fun i hi => hd i (.inl (hkeep i hi)), ?_⟩
    rintro u' hu hcols i hi htouch
    obtain rfl := Option.some.inj hu
    have hc : f.geometry.cols.toNat = f.scheduler.cols := by omega
    unfold FrameUpdate.touches at htouch
    rw [hc] at htouch
    refine hd i ?_
    rcases htouch with h | h | ⟨d, hmem, hin⟩
    · exact .inl (hmark i hi (.inl h))
    · exact .inl (hmark i hi (.inr (.inl h)))
    · rcases List.mem_append.mp hmem with hmem | hmem
      · exact .inl (hmark i hi (.inr (.inr ⟨d, hmem, hin⟩)))
      · exact .inr ⟨hi, d, hmem, hin⟩

/-! ### Batches -/

variable (source : FrameSource) (compress : List UInt8 → Option (List UInt8))

/-- Preparing a batch takes nothing off what is owed. -/
lemma prepareBatch_cases :
    f.prepareBatch source compress = (f.focusPen, none) ∨
      ∃ sent payload c, encodeSelection source f.geometry
          (f.focusPen.scheduler.select f.budgetTiles) = some (sent, payload) ∧
        compress payload = some c ∧
        f.prepareBatch source compress = ({ f.focusPen with seq := f.seq + 1 },
          some ⟨{ f.focusPen with seq := f.seq + 1 }.frameInfo sent payload c, c⟩) := by
  unfold prepareBatch
  dsimp only
  split_ifs with hsel
  · exact .inl rfl
  · cases henc : encodeSelection source f.focusPen.geometry
        (f.focusPen.scheduler.select f.focusPen.budgetTiles) with
    | none => exact .inl rfl
    | some p =>
      obtain ⟨sent, payload⟩ := p
      dsimp only
      split_ifs with hnil
      · exact .inl rfl
      · cases hc : compress payload with
        | none => exact .inl rfl
        | some c => exact .inr ⟨sent, payload, c, henc, hc, rfl⟩

end FrameSender

end Digitiz
