import Digitiz.FrameSender
import Digitiz.Scatter

/-!
ETC2 encoding on the graphics card, so that what crosses the bus is blocks and not pixels.

A group of threads takes one tile and deals its blocks out among them. The shader has no integers
of 64 bits, so the two halves of a block are carried as two words, and the bytes of each are
swapped on the way out. Where a job's numbers are added or multiplied they are integers without a
bound: the sizes are taken to be small enough. Words and addresses are what they are.
-/

namespace Digitiz

/-- A texture of eight bits a channel. A texel outside of it is all zeros. -/
structure Texture2D where
  width : ℤ
  height : ℤ
  texel : ℤ → ℤ → Pixel

/-- What a load gives, each channel brought back to the eight bits it is stored as. -/
def Texture2D.load (t : Texture2D) (x y : ℤ) : Pixel :=
  if 0 ≤ x ∧ x < t.width ∧ 0 ≤ y ∧ y < t.height then t.texel x y else ⟨0, 0, 0, 0⟩

namespace Etc2Compute

open Rescale Etc2

/-! ### The shader -/

def kMod : List (List ℤ) :=
  [[2, 8, -2, -8], [5, 17, -5, -17], [9, 29, -9, -29], [13, 42, -13, -42], [18, 60, -18, -60],
    [24, 80, -24, -80], [33, 106, -33, -106], [47, 183, -47, -183]]

def clamp255 (v : ℤ) : ℤ := clamp v 0 255
def quant4 (v : ℤ) : ℤ := clamp ((v * 15 + 127) / 255) 0 15
def expand4 (q : ℤ) : ℤ := q * 17
def quant5 (v : ℤ) : ℤ := clamp ((v * 31 + 127) / 255) 0 31
def expand5 (q : ℤ) : ℤ := ((q.toNat <<< 3 ||| q.toNat >>> 2 : ℕ) : ℤ)

def bswap (v : UInt32) : UInt32 :=
  v >>> 24 ||| (v >>> 8 &&& (0x0000FF00 : UInt32)) ||| (v <<< 8 &&& (0x00FF0000 : UInt32)) |||
    v <<< 24

/-- Which of the sixteen pixels belong to a half. -/
def subblock (flip half : ℕ) : List ℕ :=
  (List.range 4).flatMap fun x => (List.range 4).filterMap fun y =>
    let mine := if flip = 0 then decide (x ≥ 2) == decide (half = 1)
      else decide (y ≥ 2) == decide (half = 1)
    if mine then some (x * 4 + y) else none

/-- The best index for one pixel, and the error it costs. -/
def fitPixel (base : Rgb) (table : ℕ) (p : Rgb) : ℤ × ℕ :=
  (List.range 4).foldl (fun best index =>
    let m := (kMod.getD table []).getD index 0
    let dr := clamp255 (base.r + m) - p.r
    let dg := clamp255 (base.g + m) - p.g
    let db := clamp255 (base.b + m) - p.b
    let e := dr * dr + dg * dg + db * db
    if best.1 < 0 ∨ e < best.1 then (e, index) else best) (-1, 0)

/-- The best table and indices for one half against one base colour. Every table is gone through
to its end. -/
def fit (px : List Rgb) (base : Rgb) : Fit :=
  (List.range 8).foldl (fun best table =>
    let (error, indices) := px.foldl (fun (error, indices) p =>
      let (e, i) := fitPixel base table p
      (error + e, indices ++ [i])) ((0, []) : ℤ × List ℕ)
    if best.error < 0 ∨ error < best.error then ⟨error, table, indices⟩ else best)
    ⟨-1, 0, List.replicate 8 0⟩

/-- The sum over a box of texels. -/
def loadBox (gSrc : Texture2D) (x y sx0 sx1 sy0 sy1 : ℤ) : Sample :=
  (intRange sy0 sy1).foldl (fun s sy =>
    (intRange sx0 sx1).foldl (fun s sx => s.add (gSrc.load (x + sx) (y + sy))) s) {}

/-- One pixel of the tile: the average over the box it stands for. -/
def boxAverage (gSrc : Texture2D) (job : TileJob) (ox oy : ℤ) : Rgb :=
  let sx0 := ox * job.src.w / job.outW
  let sx1 := max (sx0 + 1) ((ox + 1) * job.src.w / job.outW)
  let sy0 := oy * job.src.h / job.outH
  let sy1 := max (sy0 + 1) ((oy + 1) * job.src.h / job.outH)
  let s := loadBox gSrc job.src.x job.src.y sx0 sx1 sy0 sy1
  let n := max s.n 1
  ⟨(s.r / n : ℕ), (s.g / n : ℕ), (s.b / n : ℕ)⟩

/-- The pixels of a half and their average. -/
def half (px : ℕ → Rgb) (flip which : ℕ) : List Rgb × Rgb :=
  let pixels := (subblock flip which).map px
  let sum := pixels.foldl (Rgb.map₂ (· + ·)) {}
  (pixels, Rgb.map (fun c => (c + 4) / 8) sum)

/-- Four bits a channel, the halves unrelated. -/
def tryIndividual (flip : ℕ) (h0 h1 : List Rgb × Rgb) (best : Candidate) : Candidate :=
  let q0 := Rgb.map quant4 h0.2
  let q1 := Rgb.map quant4 h1.2
  let f0 := fit h0.1 (Rgb.map expand4 q0)
  let f1 := fit h1.1 (Rgb.map expand4 q1)
  let error := f0.error + f1.error
  if best.error < 0 ∨ error < best.error then
    ⟨error, flip, false, q0, q1, (f0.table, f1.table), (f0.indices, f1.indices)⟩
  else best

/-- Five bits for the first half and a signed step of three bits for the second. -/
def tryDifferential (flip : ℕ) (h0 h1 : List Rgb × Rgb) (best : Candidate) : Candidate :=
  let bq := Rgb.map quant5 h0.2
  let want := Rgb.map quant5 h1.2
  let d := Rgb.map (clamp · (-4) 3) (Rgb.map₂ (· - ·) want bq)
  let second := Rgb.map (clamp · 0 31) (Rgb.map₂ (· + ·) bq d)
  let d := Rgb.map₂ (· - ·) second bq
  let f0 := fit h0.1 (Rgb.map expand5 bq)
  let f1 := fit h1.1 (Rgb.map expand5 second)
  let error := f0.error + f1.error
  if best.error < 0 ∨ error < best.error then
    ⟨error, flip, true, bq, d, (f0.table, f1.table), (f0.indices, f1.indices)⟩
  else best

/-- The way to write a block that costs least. -/
def choose (px : ℕ → Rgb) : Candidate :=
  (List.range 2).foldl (fun best flip =>
    let h0 := half px flip 0
    let h1 := half px flip 1
    tryDifferential flip h0 h1 (tryIndividual flip h0 h1 best))
    { indices := (List.replicate 8 0, List.replicate 8 0) }

/-- The low bits of a value, moved into place. -/
def bits (v : ℤ) (mask : UInt32) (shift : ℕ) : UInt32 :=
  (UInt32.ofInt v &&& mask) <<< UInt32.ofNat shift

/-- The colours, tables and flip. -/
def high (c : Candidate) : UInt32 :=
  let hi : UInt32 :=
    if c.differential then
      bits c.q0.r 0x1F 27 ||| bits c.q1.r 0x07 24 ||| bits c.q0.g 0x1F 19 |||
        bits c.q1.g 0x07 16 ||| bits c.q0.b 0x1F 11 ||| bits c.q1.b 0x07 8 ||| (1 : UInt32) <<< 1
    else
      bits c.q0.r 0x0F 28 ||| bits c.q1.r 0x0F 24 ||| bits c.q0.g 0x0F 20 |||
        bits c.q1.g 0x0F 16 ||| bits c.q0.b 0x0F 12 ||| bits c.q1.b 0x0F 8
  hi ||| bits c.table.1 0x07 5 ||| bits c.table.2 0x07 2 ||| bits c.flip 1 0

/-- The indices, both halves at once. -/
def low (c : Candidate) : UInt32 :=
  let pix0 := subblock c.flip 0
  let pix1 := subblock c.flip 1
  (List.range 8).foldl (fun lo w =>
    let i0 := c.indices.1.getD w 0
    let i1 := c.indices.2.getD w 0
    lo ||| bits (i0 >>> 1 : ℕ) 1 (16 + pix0.getD w 0) ||| bits i0 1 (pix0.getD w 0)
      ||| bits (i1 >>> 1 : ℕ) 1 (16 + pix1.getD w 0) ||| bits i1 1 (pix1.getD w 0)) 0

/-- A word in memory, its least significant byte first. -/
def wordBytes (v : UInt32) : List UInt8 :=
  [v.toUInt8, (v >>> 8).toUInt8, (v >>> 16).toUInt8, (v >>> 24).toUInt8]

/-- The stores of some bytes from an address on. -/
def storeBytes (address : ℕ) : List UInt8 → List (ℕ × UInt8)
  | [] => []
  | b :: rest => (address, b) :: storeBytes (address + 1) rest

def store2 (address a b : UInt32) : List (ℕ × UInt8) :=
  storeBytes address.toNat (wordBytes a ++ wordBytes b)

/-- A job as the shader finds it, with the place of its first block. -/
structure Packed where
  job : TileJob
  baseByte : UInt32

/-- Threads in a group. -/
def kThreads : ℕ := 64

/-- One turn of the loop: a block is sampled, encoded and stored. -/
def storeBlock (gSrc : Texture2D) (p : Packed) (blk : ℕ) : List (ℕ × UInt8) :=
  let cols := (p.job.outW / 4).toNat
  let bx := blk % cols
  let by_ := blk / cols
  let best := choose fun i =>
    boxAverage gSrc p.job ((bx * 4 + i / 4 : ℕ) : ℤ) ((by_ * 4 + i % 4 : ℕ) : ℤ)
  store2 (p.baseByte + UInt32.ofNat blk * 8) (bswap (high best)) (bswap (low best))

/-- What one thread of a group stores. -/
def main (gSrc : Texture2D) (p : Packed) (thread : ℕ) : List (ℕ × UInt8) :=
  let cols := (p.job.outW / 4).toNat
  let rows := (p.job.outH / 4).toNat
  let total := cols * rows
  (Scatter.strided kThreads total thread).flatMap (storeBlock gSrc p)

/-- What a dispatch stores, one group after the other. -/
def dispatch (gSrc : Texture2D) (packed : List Packed) : List (ℕ × UInt8) :=
  packed.flatMap fun p => (List.range kThreads).flatMap (main gSrc p)

end Etc2Compute

/-! ### The encoder -/

/-- The graphics card: whether it has buffers for so many jobs and bytes, what the output buffer
held before, and the order in which the bytes a dispatch stores get there. Nothing is known of
that order but that each of them does. -/
structure Device where
  hasBuffers : ℕ → ℕ → Bool
  memory : ℕ → UInt8
  schedule : List (ℕ × UInt8) → List (ℕ × UInt8)
  perm : ∀ stores, (schedule stores).Perm stores

namespace Etc2ComputeEncoder

open Etc2Compute

/-- Whether the shader can take a job. -/
def takes (j : TileJob) : Bool :=
  !(j.outW ≤ 0 ∨ j.outH ≤ 0 ∨ j.outW % 4 ≠ 0 ∨ j.outH % 4 ≠ 0 ∨ j.src.w ≤ 0 ∨ j.src.h ≤ 0)

/-- Byte offsets, computed the same way the blocks are put together elsewhere. -/
def pack (total : ℕ) : List TileJob → List Packed
  | [] => []
  | j :: rest => ⟨j, UInt32.ofNat total⟩ :: pack (total + etc2Size j.outW j.outH) rest

def totalBytes (jobs : List TileJob) : ℕ := (jobs.map fun j => etc2Size j.outW j.outH).sum

def encode (d : Device) (source : Texture2D) (jobs : List TileJob) : Option (List UInt8) :=
  if jobs = [] ∨ jobs.any fun j => !takes j then none
  else if !d.hasBuffers jobs.length (totalBytes jobs) then none
  else
    let out := Scatter.run d.memory (d.schedule (dispatch source (pack 0 jobs)))
    some ((List.range (totalBytes jobs)).map out)

end Etc2ComputeEncoder

/-- The copy of the desktop that the capture keeps: what lies inside its bounds. -/
def desktopTexture (image : Image) (bounds : Recti) : Texture2D where
  width := bounds.w
  height := bounds.h
  texel x y := image (bounds.x + x) (bounds.y + y)

/-- A capture of a desktop image, with the encoder of a graphics card. -/
def DxgiFrameSource (d : Device) (image : Image) (bounds : Recti) : FrameSource where
  bounds := bounds
  encoder := some (Etc2ComputeEncoder.encode d (desktopTexture image bounds))
  read box := (FrameSender.clip box bounds).map (readBox image)

end Digitiz
