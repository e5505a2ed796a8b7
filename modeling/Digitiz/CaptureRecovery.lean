import Digitiz.Runs
import Digitiz.SenderSteps

/-!
The capture when the calls it is made of fail.

The source of the frames is made at the first tick that needs one. A frame that cannot be acquired
makes the source start its duplication again, on the device it has. Two failures are for good: the
sender stops the stream when the source cannot be started, and nothing but a new request starts it
again; and a source whose duplication could not be started again is left without one, and never
tries another time.
-/

namespace Digitiz

open FrameSender (FrameUpdate)

/-- Whether the calls of `create_duplication` succeed, and where the output lies. -/
structure DuplicationCalls where
  asDevice : Bool := true
  getAdapter : Bool := true
  enumOutputs : Bool := true
  asOutput : Bool := true
  duplicateOutput : Bool := true
  desktopCoordinates : Recti := {}

/-- What `AcquireNextFrame` gives. -/
inductive Acquired
  | timeout
  | failed
  | frame (lastPresentTime : ℤ) (metadata : Option (List Recti × List Recti))

/-- Whether the calls of one tick succeed. -/
structure CaptureCalls where
  createDevice : Bool := true
  start : DuplicationCalls := {}
  acquire : Acquired
  asTexture : Bool := true
  createTexture : Bool := true
  /-- The calls made again after a frame could not be acquired. -/
  recover : DuplicationCalls := {}

/-- The members of the source: for each object whether it is there. -/
structure DxgiSource where
  device : Bool := false
  output : Bool := false
  duplication : Bool := false
  frameTexture : Bool := false
  desktop : Bool := false
  desktopValid : Bool := false
  bounds : Recti := {}
  frame : UInt64 := 0
  holding : Bool := false
  firstFrame : Bool := true

namespace DxgiSource

def releaseFrame (d : DxgiSource) : DxgiSource := { d with frameTexture := false, holding := false }

def stop (d : DxgiSource) : DxgiSource :=
  { d.releaseFrame with duplication := false, output := false, device := false }

def createDuplication (d : DxgiSource) (c : DuplicationCalls) : DxgiSource × Bool :=
  if !c.asDevice then (d, false)
  else if !c.getAdapter then (d, false)
  else if !c.enumOutputs then (d, false)
  else if !c.asOutput then (d, false)
  else
    let d := { d with output := true, bounds := c.desktopCoordinates }
    if !c.duplicateOutput then ({ d with duplication := false }, false)
    else ({ d with duplication := true, firstFrame := true }, true)

def start (d : DxgiSource) (c : CaptureCalls) : DxgiSource × Bool :=
  let d := d.stop
  if !c.createDevice then (d, false) else { d with device := true }.createDuplication c.start

/-- Whether it worked is not looked at. -/
def recover (d : DxgiSource) (c : DuplicationCalls) : DxgiSource :=
  ({ d.releaseFrame with duplication := false, output := false }.createDuplication c).1

/-- The copy of the desktop is made once. -/
def ensureDesktop (d : DxgiSource) (c : CaptureCalls) : DxgiSource × Bool :=
  if d.desktop then (d, true)
  else if !c.createTexture then (d, false)
  else ({ d with desktop := true }, true)

/-- What the driver said about the frame; nothing said means all of it. -/
def update (d : DxgiSource) (metadata : Option (List Recti × List Recti)) : FrameUpdate :=
  let u : FrameUpdate :=
    match metadata with
    | none => { full := true }
    | some (dirty, moves) =>
      let place := fun r : Recti => { r with x := r.x + d.bounds.x, y := r.y + d.bounds.y }
      { dirty := dirty.map place, moves := moves.map place }
  { u with full := u.full || d.firstFrame }

def next (d : DxgiSource) (c : CaptureCalls) : DxgiSource × Option FrameUpdate :=
  if !d.duplication then (d, none)
  else
    let d := d.releaseFrame
    match c.acquire with
    -- a still screen, which is the normal case
    | .timeout => (d, none)
    | .failed => (d.recover c.recover, none)
    | .frame lastPresentTime metadata =>
      let d := { d with holding := true, frame := d.frame + 1 }
      -- only the mouse has moved
      if lastPresentTime = 0 then (d.releaseFrame, none)
      else if !c.asTexture then (d.releaseFrame, none)
      else
        let e := { d with frameTexture := true }.ensureDesktop c
        if !e.2 then (e.1.releaseFrame, none)
        else
          ({ e.1 with desktopValid := true, firstFrame := false }, some (e.1.update metadata))

end DxgiSource

/-- The sender with the source it has, if it has one. -/
structure Screen where
  frames : FrameSender := {}
  source : Option DxgiSource := none

/-- What is left of a tick after the capture: whether it is time for a batch and the last one is
out, and the pixels it is made of. -/
structure BatchCalls where
  due : Bool
  ready : Bool
  image : FrameSource
  compress : List UInt8 → Option (List UInt8)

namespace Screen

/-- A source that cannot be started is thrown away, and the stream is over. -/
def ensureSource (s : Screen) (c : CaptureCalls) : Screen × Bool :=
  match s.source with
  | some _ => (s, true)
  | none =>
    let started := ({} : DxgiSource).start c
    if !started.2 then ({ s with frames := { s.frames with streaming := false } }, false)
    else ({ s with source := some started.1 }, true)

/-- The sender after a look at the desktop, and whether a capture was taken. -/
def capture (s : Screen) (c : CaptureCalls) : Screen × Bool :=
  match s.source with
  | none => (s, false)
  | some d =>
    ({ frames := s.frames.capture (d.next c).2, source := some (d.next c).1 }, (d.next c).2.isSome)

/-- The batch at the end of a tick. -/
def batch (s : Screen) (b : BatchCalls) : Screen :=
  if !b.due then s
  else if !s.frames.scheduler.anythingDirty ∧ s.frames.penTile < 0 then s
  else if !b.ready then s
  else { s with frames := (s.frames.sendBatch b.image b.compress).1 }

/-- A tick, and whether a capture was taken in it. -/
def tick (s : Screen) (c : CaptureCalls) (b : BatchCalls) : Screen × Bool :=
  if !s.frames.streaming ∨ !s.frames.geometry.valid then (s, false)
  else
    let e := s.ensureSource c
    if !e.2 then (e.1, false) else ((e.1.capture c).1.batch b, (e.1.capture c).2)

/-- What happens while a request to stream is in force: ticks, another such request, and what the
host tells the sender. -/
inductive Act
  | tick (c : CaptureCalls) (b : BatchCalls)
  | setViewport (request : ViewportReq) (starts : request.starts = true)
  | setPen (down : Bool) (x y : ℤ)
  | setBudgetTiles (tiles : ℤ)

def step (s : Screen) : Act → Screen
  | .tick c b => (s.tick c b).1
  | .setViewport request _ => { s with frames := s.frames.setViewport request }
  | .setPen down x y => { s with frames := s.frames.setPen down x y }
  | .setBudgetTiles tiles => { s with frames := s.frames.setBudgetTiles tiles }

/-- A sender that has just been given its first request. -/
def init (request : ViewportReq) : Screen := { frames := ({} : FrameSender).setViewport request }

def run (request : ViewportReq) (acts : List Act) : Screen := acts.foldl step (init request)

end Screen

/-! ### The source -/

/-- All the calls of `create_duplication` succeed. -/
def DuplicationCalls.ok (c : DuplicationCalls) : Bool :=
  c.asDevice && c.getAdapter && c.enumOutputs && c.asOutput && c.duplicateOutput

namespace DxgiSource

/-- The duplication is there afterwards exactly if all the calls succeed. -/
lemma createDuplication_spec {d : DxgiSource} (h : d.duplication = false) (c : DuplicationCalls) :
    (d.createDuplication c).2 = c.ok ∧ (d.createDuplication c).1.duplication = c.ok := by
  unfold createDuplication DuplicationCalls.ok
  cases c.asDevice <;> cases c.getAdapter <;> cases c.enumOutputs <;> cases c.asOutput <;>
    cases c.duplicateOutput <;> simp [h]

lemma start_spec (d : DxgiSource) (c : CaptureCalls) :
    (d.start c).2 = (c.createDevice && c.start.ok) ∧
      ((d.start c).2 = true → (d.start c).1.duplication = true) := by
  unfold start
  dsimp only
  cases c.createDevice with
  | false => exact ⟨rfl, fun h => h⟩
  | true =>
    obtain ⟨hok, hdup⟩ := createDuplication_spec (d := { d.stop with device := true }) rfl c.start
    exact ⟨hok, fun h => hdup.trans (hok.symm.trans h)⟩

lemma recover_duplication (d : DxgiSource) (c : DuplicationCalls) :
    (d.recover c).duplication = c.ok :=
  (createDuplication_spec rfl c).2

/-- Without a duplication there is never a frame again. -/
lemma next_of_not_duplication {d : DxgiSource} (h : d.duplication = false) (c : CaptureCalls) :
    d.next c = (d, none) := by
  rw [next, h]
  rfl

lemma ensureDesktop_duplication (d : DxgiSource) (c : CaptureCalls) :
    (d.ensureDesktop c).1.duplication = d.duplication := by
  unfold ensureDesktop
  split_ifs <;> rfl

/-- Only a frame that could not be acquired can cost the duplication. -/
lemma next_duplication {d : DxgiSource} (h : d.duplication = true) (c : CaptureCalls) :
    (d.next c).1.duplication = true ↔ (c.acquire = .failed → c.recover.ok = true) := by
  unfold next
  rw [h, if_neg (by decide)]
  cases hacq : c.acquire with
  | timeout => simp [releaseFrame, h]
  | failed => simp [recover_duplication]
  | frame lastPresentTime metadata =>
    dsimp only
    split_ifs <;> simp [releaseFrame, ensureDesktop_duplication, h]

end DxgiSource

/-- All the calls of the tick succeed and the desktop has presented a new frame. -/
def CaptureCalls.Good (c : CaptureCalls) : Prop :=
  c.createDevice = true ∧ c.start.ok = true ∧ c.asTexture = true ∧ c.createTexture = true ∧
    c.recover.ok = true ∧ ∃ t m, c.acquire = .frame t m ∧ t ≠ 0

namespace DxgiSource

lemma next_of_good {d : DxgiSource} (h : d.duplication = true) {c : CaptureCalls} (hc : c.Good) :
    (d.next c).2.isSome = true := by
  obtain ⟨-, -, htexture, hcreate, -, t, m, hacq, ht⟩ := hc
  unfold next
  rw [h, if_neg (by decide), hacq]
  dsimp only
  rw [if_neg ht, htexture, if_neg (by decide), if_neg]
  · rfl
  · unfold ensureDesktop
    rw [hcreate]
    split_ifs <;> simp at *

end DxgiSource

/-! ### The sender -/

namespace Screen

variable {s : Screen}

/-- There will be frames: the stream is on, and a source that is there has its duplication. -/
def Alive (s : Screen) : Prop :=
  s.frames.streaming = true ∧ s.frames.geometry.valid = true ∧
    ∀ d, s.source = some d → d.duplication = true

/-- Two ticks in which everything succeeds take a capture. -/
def Recovers (s : Screen) : Prop :=
  ∀ c₁ c₂ b₁ b₂, c₁.Good → c₂.Good →
    (s.tick c₁ b₁).2 = true ∨ ((s.tick c₁ b₁).1.tick c₂ b₂).2 = true

lemma capture_keeps (s : Screen) (c : CaptureCalls) :
    (s.capture c).1.frames.streaming = s.frames.streaming ∧
      (s.capture c).1.frames.geometry = s.frames.geometry := by
  unfold capture
  cases s.source with
  | none => exact ⟨rfl, rfl⟩
  | some d =>
    dsimp only
    cases (d.next c).2 <;> exact ⟨rfl, rfl⟩

lemma ensureSource_some {d : DxgiSource} (h : s.source = some d) (c : CaptureCalls) :
    s.ensureSource c = (s, true) := by
  rw [ensureSource, h]

lemma ensureSource_none (h : s.source = none) (c : CaptureCalls) :
    (c.createDevice && c.start.ok) = false ∧
        s.ensureSource c = ({ s with frames := { s.frames with streaming := false } }, false) ∨
      (c.createDevice && c.start.ok) = true ∧ ∃ d : DxgiSource, d.duplication = true ∧
        s.ensureSource c = ({ s with source := some d }, true) := by
  obtain ⟨hok, hdup⟩ := ({} : DxgiSource).start_spec c
  rw [ensureSource, h]
  dsimp only
  by_cases hstart : (({} : DxgiSource).start c).2 = true
  · refine Or.inr ⟨hok.symm.trans hstart, _, hdup hstart, if_neg ?_⟩
    rw [hstart]
    decide
  · have hfalse := Bool.not_eq_true _ ▸ hstart
    refine Or.inl ⟨hok.symm.trans hfalse, if_pos ?_⟩
    rw [hfalse]
    rfl

lemma batch_keeps (s : Screen) (b : BatchCalls) :
    (s.batch b).frames.streaming = s.frames.streaming ∧
      (s.batch b).frames.geometry = s.frames.geometry ∧ (s.batch b).source = s.source := by
  unfold batch
  split_ifs
  · exact ⟨rfl, rfl, rfl⟩
  · exact ⟨rfl, rfl, rfl⟩
  · exact ⟨rfl, rfl, rfl⟩
  · unfold FrameSender.sendBatch
    obtain h | ⟨sent, payload, c, -, -, h⟩ :=
      FrameSender.prepareBatch_cases s.frames b.image b.compress
    · rw [h]
      exact ⟨rfl, rfl, rfl⟩
    · rw [h]
      exact ⟨rfl, rfl, rfl⟩

/-- What a tick does to a stream that is on. -/
lemma tick_cases (hs : s.frames.streaming = true) (hv : s.frames.geometry.valid = true)
    (c : CaptureCalls) (b : BatchCalls) :
    (s.source = none ∧ (c.createDevice && c.start.ok) = false ∧
      (s.tick c b).1.frames.streaming = false ∧ (s.tick c b).2 = false) ∨
    ∃ d : DxgiSource, (s.source = some d ∨ s.source = none ∧
        (c.createDevice && c.start.ok) = true ∧ d.duplication = true) ∧
      (s.tick c b).1.frames.streaming = true ∧ (s.tick c b).1.frames.geometry.valid = true ∧
      (s.tick c b).1.source = some (d.next c).1 ∧ (s.tick c b).2 = (d.next c).2.isSome := by
  have hgo : ¬ ((!s.frames.streaming) = true ∨ (!s.frames.geometry.valid) = true) := by
    rw [hs, hv]
    decide
  -- from a source on
  have hrest : ∀ (t : Screen) (d : DxgiSource), t.source = some d →
      t.frames.streaming = true → t.frames.geometry.valid = true →
      ((t.capture c).1.batch b).frames.streaming = true ∧
        ((t.capture c).1.batch b).frames.geometry.valid = true ∧
        ((t.capture c).1.batch b).source = some (d.next c).1 ∧
        (t.capture c).2 = (d.next c).2.isSome := fun t d hd hts htv => by
    obtain ⟨hstream, hgeo⟩ := capture_keeps t c
    obtain ⟨hstream', hgeo', hsrc'⟩ := batch_keeps (t.capture c).1 b
    rw [hstream', hgeo', hsrc', hstream, hgeo]
    refine ⟨hts, htv, ?_, ?_⟩ <;> rw [capture, hd]
  rw [tick, if_neg hgo]
  cases hsrc : s.source with
  | some d =>
    rw [ensureSource_some hsrc]
    exact Or.inr ⟨d, Or.inl rfl, hrest s d hsrc hs hv⟩
  | none =>
    obtain ⟨hfail, he⟩ | ⟨hok, d, hdup, he⟩ := ensureSource_none hsrc c
    · rw [he]
      exact Or.inl ⟨rfl, hfail, rfl, rfl⟩
    · rw [he]
      exact Or.inr ⟨d, Or.inr ⟨rfl, hok, hdup⟩, hrest _ d rfl hs hv⟩

/-- **A stream that is dead stays dead**, whatever succeeds afterwards. -/
theorem tick_of_not_alive (h : ¬ s.Alive) (c : CaptureCalls) (b : BatchCalls) :
    (s.tick c b).2 = false ∧ ¬ (s.tick c b).1.Alive := by
  by_cases hgo : s.frames.streaming = true ∧ s.frames.geometry.valid = true
  · obtain ⟨hs, hv⟩ := hgo
    obtain ⟨d, hd, hdup⟩ : ∃ d, s.source = some d ∧ d.duplication = false := by
      by_contra hno
      refine h ⟨hs, hv, fun d hd => ?_⟩
      by_contra hdup
      exact hno ⟨d, hd, Bool.eq_false_iff.mpr hdup⟩
    obtain ⟨hnone, -⟩ | ⟨d', hd', -, -, hsrc, hcap⟩ := tick_cases hs hv c b
    · rw [hd] at hnone
      contradiction
    · obtain rfl : d = d' := by
        obtain hd' | ⟨hnone, -⟩ := hd'
        · exact Option.some.inj (hd.symm.trans hd')
        · rw [hd] at hnone
          contradiction
      rw [DxgiSource.next_of_not_duplication hdup] at hsrc hcap
      refine ⟨hcap, fun halive => ?_⟩
      rw [halive.2.2 d hsrc] at hdup
      contradiction
  · have htick : s.tick c b = (s, false) := by
      rw [tick, if_pos]
      by_contra hno
      simp only [not_or, Bool.not_eq_true', Bool.not_eq_false] at hno
      exact hgo hno
    rw [htick]
    exact ⟨rfl, h⟩

lemma tick_of_alive (h : s.Alive) {c : CaptureCalls} (hc : c.Good) (b : BatchCalls) :
    (s.tick c b).2 = true := by
  obtain ⟨hs, hv, hdup⟩ := h
  obtain ⟨-, hfail, -⟩ | ⟨d, hd, -, -, -, hcap⟩ := tick_cases hs hv c b
  · rw [hc.1, hc.2.1] at hfail
    contradiction
  · rw [hcap]
    obtain hd | ⟨-, -, hd⟩ := hd
    · exact DxgiSource.next_of_good (hdup d hd) hc
    · exact DxgiSource.next_of_good hd hc

/-- Calls that all succeed. -/
def allWell : CaptureCalls := { acquire := .frame 1 none }

lemma allWell_good : allWell.Good := ⟨rfl, rfl, rfl, rfl, rfl, 1, none, rfl, by decide⟩

/-- Nothing is sent. -/
def noBatch : BatchCalls where
  due := false
  ready := false
  image := { bounds := {}, read := fun _ => none }
  compress := fun _ => none

lemma recovers_iff : s.Recovers ↔ s.Alive := by
  constructor
  · intro h
    by_contra hdead
    obtain ⟨hfirst, hdead'⟩ := tick_of_not_alive hdead allWell noBatch
    obtain ⟨hsecond, -⟩ := tick_of_not_alive hdead' allWell noBatch
    obtain he | he := h allWell allWell noBatch noBatch allWell_good allWell_good
    · rw [hfirst] at he
      contradiction
    · rw [hsecond] at he
      contradiction
  · exact fun h c₁ _ b₁ _ hc₁ _ => Or.inl (tick_of_alive h hc₁ b₁)

/-! ### Runs -/

/-- Neither of the failures that are for good: the source can be started where there is none, and
after a frame that could not be acquired the duplication can be started again. -/
def NoLoss (s : Screen) : Act → Prop
  | .tick c _ => (s.source = none → c.createDevice = true ∧ c.start.ok = true) ∧
      (c.acquire = .failed → c.recover.ok = true)
  | _ => True

/-- A request to stream turns the stream on, with the source there is. -/
lemma alive_setViewport (f : FrameSender) {source : Option DxgiSource} {request : ViewportReq}
    (h : request.starts = true) (hdup : ∀ d, source = some d → d.duplication = true) :
    Alive { frames := f.setViewport request, source } := by
  have hv := ViewportReq.valid_of_starts h
  unfold Alive
  rw [FrameSender.setViewport_of_starts _ _ h]
  split_ifs
  · exact ⟨rfl, hv, hdup⟩
  · exact ⟨rfl, hv, hdup⟩

/-- **One step.** Where the stream is alive, it stays so exactly if neither failure happens. -/
theorem step_alive_iff (h : s.Alive) (a : Act) : (s.step a).Alive ↔ s.NoLoss a := by
  cases a with
  | setViewport request starts =>
    exact iff_of_true (alive_setViewport s.frames starts h.2.2) trivial
  | setPen down x y => exact iff_of_true h trivial
  | setBudgetTiles tiles => exact iff_of_true h trivial
  | tick c b =>
    obtain ⟨hs, hv, hdup⟩ := h
    rw [step, NoLoss]
    obtain ⟨hnone, hfail, hoff, -⟩ | ⟨d, hd, hon, hv', hsrc, -⟩ := tick_cases hs hv c b
    · refine iff_of_false (fun halive => ?_) (fun hno => ?_)
      · exact absurd (hoff.symm.trans halive.1) (by decide)
      · obtain ⟨hdev, hstart⟩ := hno.1 hnone
        rw [hdev, hstart] at hfail
        contradiction
    · have hd' : d.duplication = true := by
        obtain hd | ⟨-, -, hd⟩ := hd
        · exact hdup d hd
        · exact hd
      have hstart : s.source = none → c.createDevice = true ∧ c.start.ok = true := fun hnone => by
        obtain hd | ⟨-, hok, -⟩ := hd
        · rw [hnone] at hd
          contradiction
        · exact Bool.and_eq_true_iff.mp hok
      rw [and_iff_right hstart, ← DxgiSource.next_duplication hd' c]
      constructor
      · exact fun halive => halive.2.2 _ hsrc
      · intro hkeep
        refine ⟨hon, hv', fun e he => ?_⟩
        rw [hsrc] at he
        rw [← Option.some.inj he]
        exact hkeep

lemma init_alive {request : ViewportReq} (h : request.starts = true) : (init request).Alive :=
  alive_setViewport {} h fun d hd => absurd hd (by simp)

/-- **A capture failure that passes.** While a request to stream is in force, two ticks in which
everything succeeds take a capture from every state of the run exactly if in every tick of it the
source could be started where there was none, and the duplication could be started again where a
frame could not be acquired. -/
theorem capture_recovers_iff {request : ViewportReq} (hr : request.starts = true)
    (acts : List Act) : (∀ n, (run request (acts.take n)).Recovers) ↔
      ∀ n a, acts[n]? = some a → (run request (acts.take n)).NoLoss a := by
  have halong := holds_along_iff (fun s a (h : Alive s) => step_alive_iff h a) (init_alive hr) acts
  unfold run
  rw [← halong]
  exact forall_congr' fun n => recovers_iff

/-- The whole of a small desktop. -/
def wholeDesktop : ViewportReq :=
  { w := 16, h := 16, outW := 16, outH := 16, tile := 8, fps := 30, format := .etc2Rgb8 }

/-- A desktop that stands still, then a mode change that the duplication survives. -/
def modeChange : List Act :=
  [.tick allWell noBatch, .tick { acquire := .timeout } noBatch,
    .tick { acquire := .failed } noBatch]

theorem capture_recovers_modeChange : wholeDesktop.starts = true ∧
    ((run wholeDesktop modeChange).tick allWell noBatch).2 = true ∧
    ∀ n, (run wholeDesktop (modeChange.take n)).Recovers := by
  refine ⟨by decide, by decide, (capture_recovers_iff (by decide) modeChange).mpr ?_⟩
  intro n a ha
  obtain _ | _ | _ | n := n
  · obtain rfl : Act.tick allWell noBatch = a := Option.some.inj ha
    exact ⟨fun _ => ⟨rfl, rfl⟩, fun h => by contradiction⟩
  · obtain rfl : Act.tick { acquire := .timeout } noBatch = a := Option.some.inj ha
    exact ⟨fun _ => ⟨rfl, rfl⟩, fun h => by contradiction⟩
  · obtain rfl : Act.tick { acquire := .failed } noBatch = a := Option.some.inj ha
    exact ⟨fun _ => ⟨rfl, rfl⟩, fun _ => rfl⟩
  · simp [modeChange] at ha

/-- The session is locked: the frame cannot be acquired and the output cannot be duplicated again.
When it is unlocked nothing is captured any more. -/
theorem locked_session_ends_capture :
    let s := run wholeDesktop [.tick allWell noBatch,
      .tick { acquire := .failed, recover := { duplicateOutput := false } } noBatch]
    (s.tick allWell noBatch).2 = false ∧
      ((s.tick allWell noBatch).1.tick allWell noBatch).2 = false ∧ ¬ s.Recovers := by
  intro s
  have hfirst : (s.tick allWell noBatch).2 = false := by decide
  have hsecond : ((s.tick allWell noBatch).1.tick allWell noBatch).2 = false := by decide
  refine ⟨hfirst, hsecond, fun h => ?_⟩
  obtain he | he := h allWell allWell noBatch noBatch allWell_good allWell_good
  · rw [hfirst] at he
    contradiction
  · rw [hsecond] at he
    contradiction

end Screen

end Digitiz
