import Digitiz.Arith
import Digitiz.FrameSender
import Digitiz.PointerPipeline

/-!
The arithmetic of the host, operation by operation.

What is proved about geometries, tiles and pointers takes integers to be without bound. Here the
same functions keep the result of every operation the source carries out on an `int`, with the
conversions of such results from wider types among them, and none of what it carries out on a wider
one. Left out are the points that come out of floating-point numbers: where a relative message moves
the cursor to and where a smoothed stroke passes, which the source rounds with `lround`. That the
functions return what those they follow return is the first thing shown of each.
-/

namespace Digitiz

open Rescale

namespace Arith

/-! ### Geometry -/

def roundUpTo (v multiple : ℤ) : Arith ℤ := do
  if multiple ≤ 0 then pure v
  else
    let a ← int (v + multiple)
    let b ← int (a - 1)
    let q ← int (b / multiple)
    int (q * multiple)

def makeGeometry (region : Recti) (outW outH tile : ℤ) : Arith ViewportGeometry := do
  if region.w ≤ 0 ∨ region.h ≤ 0 then pure {}
  else
    let outW := if outW ≤ 0 then region.w else outW
    let outH := if outH ≤ 0 then region.h else outH
    let tile := if tile ≤ 0 then 64 else tile
    let w ← roundUpTo (clamp outW 4 8192) 4
    let h ← roundUpTo (clamp outH 4 8192) 4
    let t ← roundUpTo (clamp tile 8 256) 4
    pure { region := region, outW := w, outH := h, tile := t }

variable (g : ViewportGeometry)

/-- How many tiles cover a side of `out` pixels. -/
def tilesAcross (out : ℤ) : Arith ℤ := do
  if g.tile > 0 then
    let a ← int (out + g.tile)
    let b ← int (a - 1)
    int (b / g.tile)
  else pure 0

def cols : Arith ℤ := tilesAcross g g.outW
def rows : Arith ℤ := tilesAcross g g.outH

def tileCount : Arith ℤ := do
  let c ← cols g
  let r ← rows g
  int (c * r)

def tileOutputRect (index : ℤ) : Arith Recti := do
  if g.tile ≤ 0 ∨ index < 0 then pure {}
  else
    let n ← tileCount g
    if index ≥ n then pure {}
    else
      let c ← cols g
      let col ← int (index % c)
      let c ← cols g
      let row ← int (index / c)
      let x ← int (col * g.tile)
      let y ← int (row * g.tile)
      let w ← int (g.outW - x)
      let h ← int (g.outH - y)
      pure ⟨x, y, min g.tile w, min g.tile h⟩

def tileSourceRect (index : ℤ) : Arith Recti := do
  let out ← tileOutputRect g index
  if out.w ≤ 0 ∨ out.h ≤ 0 then pure {}
  else
    -- the products of an edge are wide, its conversion back is not
    let x0 ← int (down out.x g.outW g.region.w)
    let right ← int (out.x + out.w)
    let x1 ← int (down right g.outW g.region.w)
    let y0 ← int (down out.y g.outH g.region.h)
    let bottom ← int (out.y + out.h)
    let y1 ← int (down bottom g.outH g.region.h)
    let x ← int (g.region.x + x0)
    let y ← int (g.region.y + y0)
    let w ← int (x1 - x0)
    let h ← int (y1 - y0)
    pure ⟨x, y, max w 1, max h 1⟩

def tilesTouching (desktop : Recti) : Arith Recti := do
  if !g.valid then pure {}
  else
    let x0 ← int (desktop.x - g.region.x)
    let y0 ← int (desktop.y - g.region.y)
    let right ← int (desktop.x + desktop.w)
    let x1 ← int (right - g.region.x)
    let bottom ← int (desktop.y + desktop.h)
    let y1 ← int (bottom - g.region.y)
    let rx0 := max x0 0
    let ry0 := max y0 0
    let rx1 := min x1 g.region.w
    let ry1 := min y1 g.region.h
    if rx1 ≤ rx0 ∨ ry1 ≤ ry0 then pure {}
    else
      let ox0 ← int (down rx0 g.region.w g.outW)
      let oy0 ← int (down ry0 g.region.h g.outH)
      let ox1 ← int (up rx1 g.region.w g.outW)
      let oy1 ← int (up ry1 g.region.h g.outH)
      let a ← int (ox0 / g.tile)
      let c ← cols g
      let lastCol ← int (c - 1)
      let b ← int (oy0 / g.tile)
      let r ← rows g
      let lastRow ← int (r - 1)
      let e ← int (ox1 + g.tile)
      let e ← int (e - 1)
      let e ← int (e / g.tile)
      let f ← int (oy1 + g.tile)
      let f ← int (f - 1)
      let f ← int (f / g.tile)
      let tx0 := clamp a 0 lastCol
      let ty0 := clamp b 0 lastRow
      let tx1 := clamp e 1 c
      let ty1 := clamp f 1 r
      let w ← int (tx1 - tx0)
      let h ← int (ty1 - ty0)
      pure ⟨tx0, ty0, max w 1, max h 1⟩

/-! ### Reading a selection -/

def join (box src : Recti) : Arith Recti := do
  let x0 := min box.x src.x
  let y0 := min box.y src.y
  let a ← int (box.x + box.w)
  let b ← int (src.x + src.w)
  let c ← int (box.y + box.h)
  let d ← int (src.y + src.h)
  let w ← int (max a b - x0)
  let h ← int (max c d - y0)
  pure ⟨x0, y0, w, h⟩

def extend (box : Option Recti) (index : UInt16) : Arith (Option Recti) := do
  let src ← tileSourceRect g index.toNat
  if src.w ≤ 0 ∨ src.h ≤ 0 then pure box
  else
    match box with
    | none => pure (some src)
    | some box => do
      let b ← join box src
      pure (some b)

def clip (box bounds : Recti) : Arith (Option Recti) := do
  let a ← int (box.x + box.w)
  let b ← int (bounds.x + bounds.w)
  let c ← int (box.y + box.h)
  let d ← int (bounds.y + bounds.h)
  let x0 := max box.x bounds.x
  let y0 := max box.y bounds.y
  let x1 := min a b
  let y1 := min c d
  if x1 ≤ x0 ∨ y1 ≤ y0 then pure none
  else
    let w ← int (x1 - x0)
    let h ← int (y1 - y0)
    pure (some ⟨x0, y0, w, h⟩)

/-- The rectangle `read_selection` asks the source for. -/
def selectionBox (bounds : Recti) (tiles : List UInt16) : Arith (Option Recti) := do
  match ← sweep (extend g) tiles none with
  | none => pure none
  | some box => clip box bounds

/-! ### Gathering a tile -/

/-- One more pixel in the running sums. -/
def add (s : Sample) (p : Pixel) : Arith Sample := do
  let s := s.add p
  let _ ← int s.b
  let _ ← int s.g
  let _ ← int s.r
  let _ ← int s.n
  pure s

def sampleBox (pixels : ℤ → ℤ → Pixel) (region : Recti) (sx0 sx1 sy0 sy1 : ℤ) : Arith Sample :=
  sweep (fun s sy =>
    if sy < 0 ∨ sy ≥ region.h then pure s
    else sweep (fun s sx =>
      if sx < 0 ∨ sx ≥ region.w then pure s else add s (pixels sx sy)) (intRange sx0 sx1) s)
    (intRange sy0 sy1) {}

/-- The edge before block `v` of `out` on a side of `src` pixels, from where was read. -/
def edge (src read v size out : ℤ) : Arith ℤ := do
  let a ← int (src - read)
  let p ← int (v * size)
  let q ← int (p / out)
  int (a + q)

/-- Block `v`, which has at least one pixel. -/
def block (src read v size out : ℤ) : Arith (ℤ × ℤ) := do
  let s0 ← edge src read v size out
  let a ← int (s0 + 1)
  let v' ← int (v + 1)
  let b ← edge src read v' size out
  pure (s0, max a b)

def gatherTile (readRect : Recti) (pixels : ℤ → ℤ → Pixel) (index : ℤ) :
    Arith (Option (ℤ × ℤ × List UInt8)) := do
  let out ← tileOutputRect g index
  let src ← tileSourceRect g index
  if out.w ≤ 0 ∨ out.h ≤ 0 then pure none
  else
    let lines ← each (intRange 0 out.h) fun y => do
      let (sy0, sy1) ← block src.y readRect.y y src.h out.h
      let cells ← each (intRange 0 out.w) fun x => do
        let (sx0, sx1) ← block src.x readRect.x x src.w out.w
        let s ← sampleBox pixels readRect sx0 sx1 sy0 sy1
        pure s.bytes
      pure cells.flatten
    pure (some (out.w, out.h, lines.flatten))

/-! ### Pointers -/

def place (env : Surroundings) (m : Pointer) : Arith (Option (ℤ × ℤ)) := do
  if m.flags &&& kPointerWindowRelative ≠ 0 then
    match env.windowBounds with
    | none => pure none
    | some window =>
      let x ← int (m.x.toInt + window.x)
      let y ← int (m.y.toInt + window.y)
      pure (some (x, y))
  else pure (some (m.x.toInt, m.y.toInt))

variable {R σ : Type} [Field R] [LinearOrder R] [FloatOps R]

def handlePointer (I : IInputInjector σ) (env : Surroundings) (p : PointerPipeline R σ)
    (m : Pointer) : Arith (PointerPipeline R σ) := do
  let p := p.count fun s => { s with received := s.received + 1 }
  if !p.enabled then pure (p.count fun s => { s with droppedDisabled := s.droppedDisabled + 1 })
  else if m.flags &&& kPointerRelative ≠ 0 then
    pure ((p.count fun s => { s with relativeEvents := s.relativeEvents + 1 }).handleRelative
      I env m)
  else
    match ← place env m with
    | none => pure (p.count fun s => { s with droppedNoWindow := s.droppedNoWindow + 1 })
    | some (x, y) =>
      let needsScreen := m.action = .down ∨ m.action = .move ∨ m.action = .hover
      if needsScreen ∧ !PointerPipeline.onScreen env x y then
        pure (p.count fun s => { s with droppedOffScreen := s.droppedOffScreen + 1 })
      else pure (p.handleAt I m x y)

/-! ### The same results -/

lemma val_roundUpTo (v multiple : ℤ) :
    (roundUpTo v multiple).val = Digitiz.roundUpTo v multiple := by
  unfold roundUpTo Digitiz.roundUpTo
  split_ifs <;> rfl

lemma val_makeGeometry (region : Recti) (outW outH tile : ℤ) :
    (makeGeometry region outW outH tile).val = Digitiz.makeGeometry region outW outH tile := by
  unfold makeGeometry Digitiz.makeGeometry
  simp only [val_ite, val_bind, val_pure, val_roundUpTo]

@[simp] lemma val_cols : (cols g).val = g.cols := by
  unfold cols tilesAcross ViewportGeometry.cols
  split_ifs <;> rfl

@[simp] lemma val_rows : (rows g).val = g.rows := by
  unfold rows tilesAcross ViewportGeometry.rows
  split_ifs <;> rfl

@[simp] lemma val_tileCount : (tileCount g).val = g.tileCount := by
  unfold tileCount ViewportGeometry.tileCount
  simp

@[simp] lemma val_tileOutputRect (index : ℤ) :
    (tileOutputRect g index).val = g.tileOutputRect index := by
  unfold tileOutputRect ViewportGeometry.tileOutputRect
  simp only [val_ite, val_bind, val_int, val_pure, val_tileCount, val_cols]
  by_cases h : g.tile ≤ 0 ∨ index < 0
  · rw [if_pos h, if_pos (by omega)]
  · rw [if_neg h]
    exact if_congr (by omega) rfl rfl

@[simp] lemma val_tileSourceRect (index : ℤ) :
    (tileSourceRect g index).val = g.tileSourceRect index := by
  unfold tileSourceRect ViewportGeometry.tileSourceRect
  rw [val_bind, val_tileOutputRect]
  dsimp only
  split_ifs <;> rfl

lemma val_tilesTouching (desktop : Recti) :
    (tilesTouching g desktop).val = g.tilesTouching desktop := by
  unfold tilesTouching ViewportGeometry.tilesTouching
  refine (val_ite _ _ _).trans (if_congr Iff.rfl rfl ?_)
  refine (val_ite _ _ _).trans (if_congr Iff.rfl rfl ?_)
  simp only [val_bind, val_int, val_cols, val_rows, val_pure]

lemma val_join (box src : Recti) : (join box src).val = FrameSender.join box src := rfl

lemma val_extend (box : Option Recti) (index : UInt16) :
    (extend g box index).val = FrameSender.extend g box index := by
  unfold extend FrameSender.extend
  rw [val_bind, val_tileSourceRect]
  dsimp only
  split_ifs
  · rfl
  · cases box <;> rfl

lemma val_clip (box bounds : Recti) : (clip box bounds).val = FrameSender.clip box bounds := by
  unfold clip FrameSender.clip
  exact val_ite _ _ _

lemma val_boundingBox (tiles : List UInt16) :
    (sweep (extend g) tiles none).val = FrameSender.boundingBox g tiles := by
  rw [val_sweep]
  exact List.foldl_ext _ _ _ fun box index _ => val_extend g box index

lemma val_selectionBox (bounds : Recti) (tiles : List UInt16) :
    (selectionBox g bounds tiles).val = FrameSender.selectionBox g bounds tiles := by
  unfold selectionBox FrameSender.selectionBox
  rw [val_bind, val_boundingBox]
  cases FrameSender.boundingBox g tiles with
  | none => rfl
  | some box => exact val_clip box bounds

lemma val_sampleBox (pixels : ℤ → ℤ → Pixel) (region : Recti) (sx0 sx1 sy0 sy1 : ℤ) :
    (sampleBox pixels region sx0 sx1 sy0 sy1).val =
      Digitiz.sampleBox pixels region sx0 sx1 sy0 sy1 := by
  unfold sampleBox Digitiz.sampleBox
  rw [val_sweep]
  refine List.foldl_ext _ _ _ fun s sy _ => ?_
  split_ifs
  · rfl
  · rw [val_sweep]
    refine List.foldl_ext _ _ _ fun s sx _ => ?_
    split_ifs <;> rfl

lemma val_gatherTile (readRect : Recti) (pixels : ℤ → ℤ → Pixel) (index : ℤ) :
    (gatherTile g readRect pixels index).val = Digitiz.gatherTile g readRect pixels index := by
  unfold gatherTile Digitiz.gatherTile
  rw [val_bind, val_bind, val_tileOutputRect, val_tileSourceRect]
  simp only [val_ite, val_bind, val_pure, val_each, block, edge, val_int, val_sampleBox]
  rfl

lemma val_place (env : Surroundings) (m : Pointer) :
    (place env m).val = PointerPipeline.place env m := by
  unfold place PointerPipeline.place
  split_ifs
  · cases env.windowBounds <;> rfl
  · rfl

omit g in
lemma val_handlePointer (I : IInputInjector σ) (env : Surroundings) (p : PointerPipeline R σ)
    (m : Pointer) : (handlePointer I env p m).val = p.handlePointer I env m := by
  unfold handlePointer PointerPipeline.handlePointer
  dsimp only
  split_ifs
  · rfl
  · rfl
  · rw [val_bind, val_place]
    cases PointerPipeline.place env m with
    | none => rfl
    | some c =>
      dsimp only
      split_ifs <;> rfl

end Arith

end Digitiz
