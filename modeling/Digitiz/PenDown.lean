import Digitiz.MessageCodecs
import Digitiz.SenderSteps
import Digitiz.SentBatches
import Digitiz.TouchLanguage

/-!
Whether the pen is on the glass, as the host sees it.

The host goes by the last message: a press or a move means that the pen is on the glass, a release
or a cancel that it is not. A stroke always ends with one of the latter. A slide ends with nothing
unless it was a tap, and then the host goes on believing in a pen that has left, and paints the
square it last saw it on with every batch.
-/

namespace Digitiz

open Pointer (Absolute Relative)

/-- What a pointer message says about the pen. -/
def Pointer.onGlass (m : Pointer) : Bool := m.action ≠ .up ∧ m.action ≠ .cancel

/-- The host's flag after a payload has arrived; one that cannot be read changes nothing. -/
def onPointer (penDown : Bool) (payload : List UInt8) : Bool :=
  match Pointer.decode payload with
  | none => penDown
  | some p => p.onGlass

/-- The guest's router, the payloads on their way and the host's flag. -/
structure PenLink (R : Type) where
  touch : Touch R
  wire : List (List UInt8)
  penDown : Bool

namespace PenLink

variable {R : Type} [Field R]

inductive Act (R : Type)
  | call (c : TouchCall R)
  | deliver

def init (view : ViewTransform R) : PenLink R := ⟨.init view, [], false⟩

variable [LinearOrder R] [FloatOps R]

def step (s : PenLink R) : Act R → Option (PenLink R)
  | .call c => (s.touch.step c).map fun t =>
    { s with touch := t, wire := s.wire ++ (Touch.since s.touch t).map Pointer.payload }
  | .deliver =>
    match s.wire with
    | [] => none
    | p :: rest => some { s with wire := rest, penDown := onPointer s.penDown p }

/-- The call ends a slide that has moved the cursor, and not as a tap. -/
def endsSlide (r : TouchRouter R) : TouchCall R → Bool
  | .handle e _ =>
    let p := e.pointerPos e.pointerIndex
    match e.maskedAction with
    | .up => r.slideActive && !r.endsAsTap p e.tUs && (r.slideStartedSent || !r.slideStill p)
    | .pointerDown | .cancel => r.slideActive && r.slideStartedSent
    | .down | .move | .pointerUp | .other => false
  | .setMode mode => r.mode ≠ mode && r.slideActive && r.slideStartedSent
  | .cancelStroke | .cancelUiCapture | .setStylusOnly _ | .setMinIntervalUs _
  | .setMinDistancePx _ | .setDensity _ | .setView _ => false

/-- No slide that has moved the cursor ends otherwise than as a tap. -/
def SlidesTap (s : PenLink R) : Act R → Prop
  | .call c => endsSlide s.touch.router c = false
  | .deliver => True

/-! ### The flag -/

lemma onPointer_payload (b : Bool) (m : Pointer) : onPointer b m.payload = m.onGlass := by
  have hd : Pointer.decode m.payload = some m := Pointer.strict.lossless m trivial
  unfold onPointer
  rw [hd]

/-- Only the last message counts. -/
lemma foldl_onPointer (ms : List Pointer) (b : Bool) :
    (ms.map Pointer.payload).foldl onPointer b = (ms.getLast?.map Pointer.onGlass).getD b := by
  induction ms generalizing b with
  | nil => rfl
  | cons m ms ih =>
    rw [List.map_cons, List.foldl_cons, ih, onPointer_payload]
    cases ms <;> rfl

/-- Where the host will see the pen once it has heard everything, given what the router holds. -/
def penOn : Hold → Bool
  | .stroke => true
  | .slide moved => moved
  | .free | .widget | .pending => false

/-- What the host makes of the words of a step. -/
def heard (b : Bool) (out : List Pointer) : Bool := (out.getLast?.map Pointer.onGlass).getD b

@[simp] lemma heard_nil (b : Bool) : heard b [] = b := rfl

lemma heard_last (b : Bool) (ms : List Pointer) {a : PointerAction} {m : Pointer}
    (hm : m.action = a) : heard b (ms ++ [m]) = decide (a ≠ .up ∧ a ≠ .cancel) := by
  simp [heard, Pointer.onGlass, hm]

/-- A step that is not about a slide leaves the host with what the router holds. -/
lemma heard_of_reply {h h' : Hold} {out : List Pointer} (hr : Reply h out h')
    (hs : h.sliding = false) : heard (penOn h) out = penOn h' := by
  cases hr with
  | keep | capture | land | slideBegin | letGo | drop => rfl
  | press hd => exact heard_last _ [] hd.2
  | pressMove hd hm => exact heard_last _ [_] hm.2
  | tap hd hu => exact heard_last _ [_] hu.2
  | move hm => exact heard_last _ [] hm.2
  | up hu => exact heard_last _ [] hu.2
  | cancel hc => exact heard_last _ [] hc.2
  | abandon | slideMove | slideClick | slideOff => simp at hs

/-- A slide that goes on leaves the host with whether it has moved. -/
lemma heard_of_slide {b : Bool} {h' : Hold} {out : List Pointer} (hr : Reply (.slide b) out h')
    (hs : h'.sliding = true) : heard b out = penOn h' := by
  cases hr with
  | keep => rfl
  | slideMove b hm => exact heard_last _ [] hm.2
  | abandon | slideClick | slideOff => simp at hs

/-- The end of a slide as a tap, or before it has moved, leaves the host without a pen. -/
lemma heard_of_slideEnd {r : TouchRouter R} {b : Bool} (p : Point R) (t : UInt64)
    (hok : r.endsAsTap p t = false → b = false ∧ r.slideStill p = true) :
    ∃ out, (r.slideEnd p t).sent = r.sent ++ out ∧ heard b out = false := by
  obtain ⟨htap, hs⟩ | ⟨-, d, u, -, hu, hs⟩ := TouchRouter.slideEnd_sent r p t
  · obtain ⟨hb, hstill⟩ := hok htap
    obtain ⟨-, hsent, -⟩ | ⟨hmoved, -⟩ := TouchRouter.slideMove_sent r p t
    · exact ⟨[], by rw [hs, hsent, List.append_nil], hb⟩
    · rw [hstill] at hmoved
      contradiction
  · obtain ⟨-, hsent, -⟩ | ⟨-, -, m, -, hsent⟩ := TouchRouter.slideMove_sent r p t
    · exact ⟨[d, u], by rw [hs, hsent], heard_last _ [d] hu.2⟩
    · exact ⟨[m, d, u], by rw [hs, hsent, List.append_assoc]; rfl, heard_last _ [m, d] hu.2⟩

/-- An event in the course of a slide. -/
lemma handle_slide {r : TouchRouter R} {b : Bool} (hin : r.In (.slide b)) {e : MotionEvent R}
    {ans : Answers R} (hdown : e.maskedAction ≠ .down) (hok : endsSlide r (.handle e ans) = false) :
    ∃ h' out, (r.handle e ans).In h' ∧ (r.handle e ans).sent = r.sent ++ out ∧
      heard b out = penOn h' ∧ (e.maskedAction = .up ∨ e.maskedAction = .cancel → h' = .free) := by
  have hmoved : r.slideStartedSent = b := hin.moved rfl
  have hslide : r.slideActive = true := hin.sliding
  unfold TouchRouter.handle
  cases ha : e.maskedAction with
  | down => exact absurd ha hdown
  | move =>
    obtain ⟨h', ⟨hin', out, hs, hrep⟩, -, hsl⟩ := TouchRouter.onMove_goes hin e ans
    exact ⟨h', out, hin', hs, heard_of_slide hrep hsl, by simp⟩
  | pointerUp =>
    obtain ⟨hin', out, hs, hrep⟩ := TouchRouter.onPointerUp_goes hin e
    exact ⟨_, out, hin', hs, heard_of_slide hrep rfl, by simp⟩
  | other => exact ⟨_, [], hin, (List.append_nil _).symm, rfl, by simp⟩
  | pointerDown =>
    simp only [endsSlide, ha, hslide, hmoved, Bool.true_and] at hok
    refine ⟨.free, [], (TouchRouter.onPointerDown_goes hin e).1, ?_, hok, fun _ => rfl⟩
    rw [TouchRouter.onPointerDown_silent hin.drawing, List.append_nil]
  | cancel =>
    simp only [endsSlide, ha, hslide, hmoved, Bool.true_and] at hok
    refine ⟨.free, [], (TouchRouter.onCancel_goes hin e ans).1, ?_, hok, fun _ => rfl⟩
    rw [TouchRouter.onCancel_silent hin.drawing, List.append_nil]
  | up =>
    simp only [endsSlide, ha, hslide, hmoved, Bool.true_and] at hok
    obtain ⟨out, hs, hheard⟩ := heard_of_slideEnd (r := r) (b := b) (e.pointerPos e.pointerIndex)
      e.tUs (by simpa using hok)
    refine ⟨.free, out, (TouchRouter.onUp_goes hin e ans).1, ?_, hheard, fun _ => rfl⟩
    rw [TouchRouter.onUp_slide hin]
    exact hs

/-- **One call, as the host hears it.** Unless it ends a slide that has moved, the host is left with
what the router holds. -/
theorem step_heard {s t : Touch R} {h : Hold} {c : TouchCall R} (hs : s.step c = some t)
    (hh : s.Holds h) (hok : endsSlide s.router c = false) : ∃ h' out, t.Holds h' ∧
      t.router.sent = s.router.sent ++ out ∧ heard (penOn h) out = penOn h' := by
  by_cases hsl : h.sliding = false
  · obtain ⟨h', hh', ⟨out, hout, hrep⟩, -⟩ := Touch.step_goes hs hh
    exact ⟨h', out, hh', hout, heard_of_reply hrep hsl⟩
  obtain ⟨b, rfl⟩ : ∃ b, h = .slide b := by
    cases h with
    | slide b => exact ⟨b, rfl⟩
    | free | widget | pending | stroke => exact absurd rfl hsl
  have htouch : s.touching = true := by
    by_contra hn
    exact absurd (hh.2 (by simpa using hn)) (by simp)
  obtain ⟨touching, hg, rfl⟩ := Option.map_eq_some_iff.mp hs
  -- a call that says nothing and lets the slide go on
  have hkeep {r' : TouchRouter R} (hin : r'.In (.slide b)) (hsent : r'.sent = s.router.sent)
      (hb : touching = true) : ∃ h' out, Touch.Holds ⟨r', touching⟩ h' ∧
        r'.sent = s.router.sent ++ out ∧ heard b out = penOn h' :=
    ⟨.slide b, [], ⟨hin, fun h => absurd (hb.symm.trans h) (by simp)⟩, by simpa using hsent, rfl⟩
  cases c with
  | handle e ans =>
    have hg : e.maskedAction.glass s.touching = some touching := hg
    rw [htouch] at hg
    obtain ⟨h', out, hin', hsent, hheard, hfree⟩ := handle_slide hh.1
      (fun hd => by simp [hd, MotionAction.glass] at hg) hok
    refine ⟨h', out, ⟨hin', ?_⟩, hsent, hheard⟩
    rintro rfl
    apply hfree
    cases ha : e.maskedAction <;> simp [ha, MotionAction.glass] at hg ⊢
  | setMode mode =>
    by_cases hm : s.router.mode = mode
    · have he : s.router.setMode mode = s.router := if_pos hm
      have hin : (s.router.setMode mode).In (.slide b) := by rw [he]; exact hh.1
      exact hkeep hin (congrArg TouchRouter.sent he)
        (Option.some.inj (hg.symm.trans (congrArg some htouch)))
    · have hgo := TouchRouter.setMode_goes hh.1 mode
      rw [if_neg hm] at hgo
      refine ⟨.free, [], ⟨hgo.1, fun _ => rfl⟩, ?_, ?_⟩
      · exact (TouchRouter.setMode_silent hh.1.drawing mode).trans (List.append_nil _).symm
      · have hb : s.router.slideStartedSent = b := hh.1.moved rfl
        show b = false
        simpa [endsSlide, hm, show s.router.slideActive = true from hh.1.sliding, hb] using hok
  | cancelStroke =>
    have hgo := TouchRouter.cancelStroke_goes hh.1
    have hsent : s.router.cancelStroke.sent = s.router.sent := by
      rw [TouchRouter.cancelStroke_of_not_drawing hh.1.drawing]
    exact hkeep hgo.1 hsent (Option.some.inj (hg.symm.trans (congrArg some htouch)))
  | cancelUiCapture =>
    have hgo := TouchRouter.cancelUiCapture_goes hh.1
    exact hkeep hgo.1 rfl (Option.some.inj (hg.symm.trans (congrArg some htouch)))
  | setStylusOnly | setMinIntervalUs | setMinDistancePx | setDensity | setView =>
    exact hkeep (hh.1.keep rfl rfl rfl rfl rfl rfl) rfl
      (Option.some.inj (hg.symm.trans (congrArg some htouch)))

/-- What the host will make of everything on the wire is what the router holds. -/
def Agrees (s : PenLink R) : Prop :=
  ∃ h, s.touch.Holds h ∧ s.wire.foldl onPointer s.penDown = penOn h

lemma step_agrees {s t : PenLink R} {a : Act R} (hs : s.step a = some t) (hok : s.SlidesTap a)
    (h : s.Agrees) : t.Agrees := by
  obtain ⟨h, hh, hpen⟩ := h
  cases a with
  | call c =>
    obtain ⟨u, hu, rfl⟩ := Option.map_eq_some_iff.mp hs
    obtain ⟨h', out, hh', hsent, hheard⟩ := step_heard hu hh hok
    have hsince : Touch.since s.touch u = out := by simp [Touch.since, hsent]
    refine ⟨h', hh', ?_⟩
    rw [List.foldl_append, hpen, hsince, foldl_onPointer]
    exact hheard
  | deliver =>
    cases hw : s.wire with
    | nil => simp [step, hw] at hs
    | cons p rest =>
      obtain rfl : t = { s with wire := rest, penDown := onPointer s.penDown p } := by
        simpa [step, hw] using hs.symm
      exact ⟨h, hh, by rw [← hpen, hw, List.foldl_cons]⟩

end PenLink

/-! ### Batches -/

namespace FrameSender

/-- A tick of the host: the pen as the flag and the pipeline have it, what changed on the desktop,
and a batch if there is reason for one and the last is out. -/
def tick (f : FrameSender) (penDown enabled : Bool) (x y : ℤ) (update : Option FrameUpdate)
    (source : FrameSource) (compress : List UInt8 → Option (List UInt8)) :
    FrameSender × Option Batch :=
  let f := if penDown && enabled then f.setPen true x y else f.setPen false 0 0
  if !f.streaming ∨ !f.geometry.valid then (f, none)
  else
    let f := f.capture update
    if !f.scheduler.anythingDirty ∧ f.penTile < 0 then (f, none) else f.sendBatch source compress

/-- Every tile of a batch is owed: it is the number of a tile that has changed. -/
def OwedOnly (f : FrameSender) (update : Option FrameUpdate) (b : Batch) : Prop :=
  ∀ tile ∈ b.info.tiles, ∃ i, (f.capture update).scheduler.isDirty i = true ∧ tile = UInt16.ofNat i

lemma capture_setPen (f : FrameSender) (down : Bool) (x y : ℤ) (update : Option FrameUpdate) :
    (f.setPen down x y).capture update = (f.capture update).setPen down x y := by
  cases update <;> rfl

/-- Without a pen the selection is made of tiles that have changed. -/
lemma select_owed {s : TileScheduler} (hf : s.focus = none) {budget : ℤ} {tile : UInt16}
    (ht : tile ∈ s.select budget) : ∃ i, s.isDirty i = true ∧ tile = UInt16.ofNat i := by
  unfold TileScheduler.select at ht
  rw [hf] at ht
  split_ifs at ht with hsize hnone
  · simp at ht
  · simp at ht
  · obtain ⟨i, hi, rfl⟩ := List.mem_map.mp ht
    have howed : i ∈ s.owed := List.mem_of_mem_take (by simpa using hi)
    exact ⟨i, (s.mem_owed.mp howed).1, rfl⟩

/-- A batch sent without a pen. -/
lemma sendBatch_owed {f : FrameSender} (hpen : f.penDown = false) {source : FrameSource}
    {compress : List UInt8 → Option (List UInt8)} {b : Batch}
    (hb : (f.sendBatch source compress).2 = some b) :
    ∀ tile ∈ b.info.tiles, ∃ i, f.scheduler.isDirty i = true ∧ tile = UInt16.ofNat i := by
  have hfocus : f.focusPen.scheduler.focus = none := by
    simp [focusPen, penTile, hpen, TileScheduler.setFocus]
  obtain hnone | ⟨sent, payload, c, henc, -, hsome⟩ := prepareBatch_cases source compress (f := f)
  · rw [sendBatch, hnone] at hb
    contradiction
  · rw [sendBatch, hsome] at hb
    obtain rfl := Option.some.inj hb
    intro tile ht
    exact select_owed hfocus ((encodeSelection_sublist henc).subset ht)

/-- **Without a pen only what changed is sent.** -/
theorem tick_owedOnly (f : FrameSender) (enabled : Bool) (x y : ℤ) (update : Option FrameUpdate)
    (source : FrameSource) (compress : List UInt8 → Option (List UInt8)) {b : Batch}
    (hb : (f.tick false enabled x y update source compress).2 = some b) : f.OwedOnly update b := by
  unfold tick at hb
  rw [Bool.false_and, if_neg Bool.false_ne_true] at hb
  dsimp only at hb
  split_ifs at hb
  · rw [capture_setPen] at hb
    exact sendBatch_owed (f := (f.capture update).setPen false 0 0) rfl hb

end FrameSender

namespace PenLink

variable {R : Type} [Field R] [LinearOrder R] [FloatOps R]

/-- **The host knows when the pen has left.** In every run in which no slide that has moved the
cursor ends otherwise than as a tap: with every finger up and every message delivered the host sees
no pen, and its tick sends only what has changed. -/
theorem pen_leaves {view : ViewTransform R} {acts : List (Act R)} {s : PenLink R}
    (hr : Run step SlidesTap (init view) acts s) (hup : s.touch.touching = false)
    (hwire : s.wire = []) : s.penDown = false ∧
      ∀ (f : FrameSender) (enabled : Bool) (x y : ℤ) (update : Option FrameSender.FrameUpdate)
        (source : FrameSource) (compress : List UInt8 → Option (List UInt8)) (b : Batch),
        (f.tick s.penDown enabled x y update source compress).2 = some b → f.OwedOnly update b := by
  obtain ⟨h, hh, hpen⟩ := hr.invariant Agrees (fun _ _ _ h hok hs => step_agrees hs hok h)
    ⟨.free, ⟨TouchRouter.init_in view, fun _ => rfl⟩, rfl⟩
  obtain rfl := hh.2 hup
  have hdown : s.penDown = false := by rw [hwire] at hpen; exact hpen
  refine ⟨hdown, fun f enabled x y update source compress b hb => ?_⟩
  rw [hdown] at hb
  exact f.tick_owedOnly enabled x y update source compress hb

instance (s : PenLink R) (a : Act R) : Decidable (s.SlidesTap a) :=
  match a with
  | .call c => inferInstanceAs (Decidable (endsSlide s.touch.router c = false))
  | .deliver => inferInstanceAs (Decidable True)

open Touch (fingers)

/-- A line is drawn and the cursor is clicked in slide mode, and the host hears of it. -/
def drawAndClick : List (Act ℚ) :=
  [.call (fingers 0 0 [(0, 0)]), .call (fingers 2 9 [(40, 0)]), .deliver, .deliver,
    .call (fingers 1 20 [(50, 0)]), .deliver, .call (.setMode .slide),
    .call (fingers 0 90 [(7, 7)]), .call (fingers 2 95 [(9, 7)]), .call (fingers 1 99 [(9, 7)]),
    .deliver, .deliver, .deliver]

theorem pen_leaves_draw_and_click :
    let s := Run.final step SlidesTap (init .init) drawAndClick
    (s.touch.router.sent.length = 6 ∧ s.touch.touching = false ∧ s.wire = []) ∧
      s.penDown = false := by
  intro s
  have hrun : Run step SlidesTap (init .init) drawAndClick s := Run.to_final (by decide +kernel)
  exact ⟨by decide +kernel, (pen_leaves hrun (by decide +kernel) (by decide +kernel)).1⟩

/-- The cursor is slid across the desktop for a second, and the finger lifts. -/
def slideAway : List (Act ℚ) :=
  [.call (.setMode .slide), .call (fingers 0 0 [(0, 0)]), .call (fingers 2 500 [(200, 0)]),
    .call (fingers 1 1000 [(200, 0)]), .deliver]

/-- A stream of a single tile, and nothing of it owed. -/
def stillTile : FrameSender :=
  let f := ({} : FrameSender).setViewport
    { x := 200, y := 0, w := 4, h := 4, outW := 4, outH := 4, fps := 30, format := .etc2Rgb8,
      tile := 4 }
  { f with scheduler := f.scheduler.markSent [0] }

/-- The finger is up and everything was delivered, and yet the host sees a pen and sends the tile
under it again, which has not changed. -/
theorem slide_leaves_pen :
    let s := Run.final step (fun _ _ => True) (init (.init : ViewTransform ℚ)) slideAway
    Run step (fun _ _ => True) (init .init) slideAway s ∧ s.touch.touching = false ∧ s.wire = [] ∧
      s.penDown = true ∧
      ∃ b, (stillTile.tick s.penDown true 200 0 none (FrameSender.plainSource ⟨0, 0, 800, 600⟩)
        some).2 = some b ∧ ¬stillTile.OwedOnly none b := by
  intro s
  have hpen : s.penDown = true := by decide +kernel
  refine ⟨Run.to_final (by decide +kernel), by decide +kernel, by decide +kernel, hpen, ?_⟩
  rw [hpen]
  have hsent : (stillTile.tick true true 200 0 none (FrameSender.plainSource ⟨0, 0, 800, 600⟩)
      some).2.map (fun b => b.info.tiles) = some [0] := by decide +kernel
  obtain ⟨b, hb, htiles⟩ := Option.map_eq_some_iff.mp hsent
  refine ⟨b, hb, fun howed => ?_⟩
  obtain ⟨i, hi, -⟩ := howed 0 (by rw [htiles]; exact List.mem_singleton_self 0)
  have hclean : stillTile.scheduler.anythingDirty = false := by decide +kernel
  exact absurd (stillTile.scheduler.anythingDirty_iff.mpr ⟨i, hi⟩) (by rw [hclean]; simp)

end PenLink

end Digitiz
