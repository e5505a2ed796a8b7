import Digitiz.ButtonCalls

/-!
Where the pipeline takes the pointer to be.

Besides the button it holds, a pipeline keeps the window of its smoother and a tracked position
for relative messages. What is asked of the injector changes neither. An absolute message feeds
the smoother, a relative one moves the tracked position, and neither does the other's part.
-/

namespace Digitiz

/-- The part of a pipeline that says where the pointer is. -/
@[ext] structure Track (R : Type) where
  smoother : SplineSmoother R
  relX : R
  relY : R
  relSeeded : Bool

namespace PointerPipeline

variable {R σ : Type}

def track (p : PointerPipeline R σ) : Track R := ⟨p.smoother, p.relX, p.relY, p.relSeeded⟩

/-- The message is carried out as a relative one. -/
def tracks (p : PointerPipeline R σ) (m : Pointer) : Bool :=
  p.enabled ∧ m.flags &&& kPointerRelative ≠ 0

/-- Where an absolute message is carried out, if it is. -/
def lands (env : Surroundings) (p : PointerPipeline R σ) (m : Pointer) : Option (ℤ × ℤ) :=
  if p.enabled ∧ m.flags &&& kPointerRelative = 0 then
    (place env m).filter fun c =>
      !((m.action = .down ∨ m.action = .move ∨ m.action = .hover) ∧ !onScreen env c.1 c.2)
  else none

section frame

@[simp] lemma count_track (p : PointerPipeline R σ) (f : PipelineStats → PipelineStats) :
    (p.count f).track = p.track := rfl

@[simp] lemma countInjected_track (p : PointerPipeline R σ) (ok : Bool) :
    (p.countInjected ok).track = p.track := by
  unfold countInjected
  split <;> rfl

variable (I : IInputInjector σ)

@[simp] lemma injectMove_track (p : PointerPipeline R σ) (x y : ℤ) :
    (p.injectMove I x y).track = p.track := by
  unfold injectMove
  rw [countInjected_track]
  rfl

@[simp] lemma injectButton_track (p : PointerPipeline R σ) (b : MouseButton) (down : Bool)
    (x y : ℤ) : (p.injectButton I b down x y).track = p.track := by
  unfold injectButton
  rw [countInjected_track]
  rfl

@[simp] lemma closeStroke_track (p : PointerPipeline R σ) (x y : ℤ) :
    (p.closeStroke I x y).track = p.track := injectButton_track I p p.held false x y

@[simp] lemma openStroke_track (p : PointerPipeline R σ) (b : MouseButton) (x y : ℤ) :
    (p.openStroke I b x y).track = p.track := by
  unfold openStroke
  refine (injectButton_track I _ b true x y).trans ?_
  split
  · rw [injectButton_track, count_track]
  · rfl

@[simp] lemma emitAll_track [FloatOps R] (p : PointerPipeline R σ) (qs : List (Point R)) :
    (p.emitAll I qs).track = p.track := by
  induction qs generalizing p with
  | nil => rfl
  | cons q r ih =>
    refine (ih (p.emitSmoothed I q)).trans ?_
    unfold emitSmoothed
    rw [injectMove_track, count_track]

lemma releaseStroke_track (p : PointerPipeline R σ) :
    (p.releaseStroke I).track = { p.track with smoother := p.smoother.reset } := by
  unfold releaseStroke
  dsimp only
  split_ifs
  · rfl
  · exact closeStroke_track I _ _ _

lemma setEnabled_track (p : PointerPipeline R σ) (on : Bool) : (p.setEnabled I on).track =
    if p.enabled = true ∧ on = false then { p.track with smoother := p.smoother.reset }
    else p.track := by
  unfold setEnabled
  split_ifs with hsame hoff hen hen
  · simp_all
  · rfl
  · exact releaseStroke_track I p
  · simp_all
  · simp_all
  · rfl

lemma handleKey_track (p : PointerPipeline R σ) (k : Key) : (p.handleKey I k).track = p.track := by
  unfold handleKey
  dsimp only
  split_ifs <;> rfl

lemma endSession_track (p : PointerPipeline R σ) : (p.endSession I).track =
    { p.track with smoother := p.smoother.reset, relSeeded := false } :=
  releaseStroke_track I { p with relSeeded := false }

lemma relativeAt_track (p : PointerPipeline R σ) (m : Pointer) (x y : ℤ) :
    (p.relativeAt I m x y).track = p.track := by
  unfold relativeAt
  split_ifs <;> simp

end frame

variable [Field R] [LinearOrder R] [FloatOps R] (I : IInputInjector σ)

omit [LinearOrder R] in
/-- A relative message leaves the smoother alone. -/
lemma trackRelative_smoother (env : Surroundings) (p : PointerPipeline R σ) (m : Pointer) :
    (p.trackRelative I env m).smoother = p.smoother := by
  have hseed : (p.seedRelative I m).smoother = p.smoother := by
    unfold seedRelative
    split
    · split <;> rfl
    · rfl
  have hadv (q : PointerPipeline R σ) (dx dy : R) :
      (advanceRelative env q dx dy).smoother = q.smoother := by
    unfold advanceRelative
    split
    · rfl
    · dsimp only
      split_ifs <;> rfl
  exact (hadv _ _ _).trans hseed

omit [LinearOrder R] in
lemma handleRelative_track (env : Surroundings) (p : PointerPipeline R σ) (m : Pointer) :
    (p.handleRelative I env m).track = (p.trackRelative I env m).track :=
  relativeAt_track I _ m _ _

/-- The smoother after an absolute message that is carried out. -/
def smootherAt (p : PointerPipeline R σ) (m : Pointer) (x y : ℤ) : SplineSmoother R :=
  if m.action = .down then p.smoother.begin (x : R) (y : R)
  else if m.action = .move ∨ m.action = .hover then
    if p.smoother.enabled then (p.smoother.add (x : R) (y : R)).2 else p.smoother
  else if m.action = .up then
    if !p.down then p.smoother
    else if p.smoother.enabled then (p.smoother.add (x : R) (y : R)).2.finish.2 else p.smoother
  else if m.action = .cancel then p.smoother.reset
  else p.smoother

lemma drainCurve_track (p : PointerPipeline R σ) (x y : ℤ) : (p.drainCurve I x y).track =
    { p.track with smoother :=
        if p.smoother.enabled then (p.smoother.add (x : R) (y : R)).2.finish.2
        else p.smoother } := by
  unfold drainCurve
  split_ifs
  · exact emitAll_track I _ _
  · rfl

lemma handleAt_track (p : PointerPipeline R σ) (m : Pointer) (x y : ℤ) :
    (p.handleAt I m x y).track = { p.track with smoother := p.smootherAt m x y } := by
  unfold handleAt smootherAt
  generalize hq : { p with lastX := x, lastY := y } = q
  have ht : p.track = q.track := by rw [← hq]; rfl
  have hs : p.smoother = q.smoother := congrArg Track.smoother ht
  have hd : p.down = q.down := by rw [← hq]
  rw [ht, hs, hd]
  dsimp only
  split_ifs with hdown hmove hon hup hno hb hon hon hc hd
  · show ({ (q.openStroke I m.button x y).track with smoother :=
      (q.openStroke I m.button x y).track.smoother.begin (x : R) (y : R) } : Track R) = _
    rw [openStroke_track]
    rfl
  · exact emitAll_track I _ _
  · exact injectMove_track I _ _ _
  · rfl
  · rw [closeStroke_track, drainCurve_track]
    exact congrArg (fun s => ({ q.track with smoother := s } : Track R)) (if_pos hon)
  · rw [closeStroke_track, drainCurve_track]
    exact congrArg (fun s => ({ q.track with smoother := s } : Track R)) (if_neg hon)
  · rw [closeStroke_track, drainCurve_track]
    exact congrArg (fun s => ({ q.track with smoother := s } : Track R)) (if_pos hon)
  · rw [closeStroke_track, drainCurve_track]
    exact congrArg (fun s => ({ q.track with smoother := s } : Track R)) (if_neg hon)
  · exact closeStroke_track I _ _ _
  · rfl
  · rfl

/-- **What becomes of a message**: it is dropped, or carried out as a relative one, or carried out
where it lands. Before that only counters change. -/
lemma handlePointer_cases (env : Surroundings) (p : PointerPipeline R σ) (m : Pointer) :
    ∃ q : PointerPipeline R σ, q.stroke = p.stroke ∧ q.track = p.track ∧
      q.stats.smoothedPoints = p.stats.smoothedPoints ∧
      ((p.tracks m = false ∧ lands env p m = none ∧ p.handlePointer I env m = q) ∨
      (p.tracks m = true ∧ lands env p m = none ∧
        p.handlePointer I env m = q.handleRelative I env m) ∨
      (p.tracks m = false ∧ ∃ x y, lands env p m = some (x, y) ∧
        p.handlePointer I env m = q.handleAt I m x y)) := by
  unfold handlePointer
  generalize hq : (p.count fun s => { s with received := s.received + 1 }) = q
  have hs : q.stroke = p.stroke := by rw [← hq, count_stroke]
  have ht : q.track = p.track := by rw [← hq, count_track]
  have hc : q.stats.smoothedPoints = p.stats.smoothedPoints := by rw [← hq]; rfl
  have he : q.enabled = p.enabled := congrArg Stroke.enabled hs
  dsimp only
  cases hp : p.enabled with
  | false =>
    rw [if_pos (by simp [he, hp])]
    exact ⟨q.count fun s => { s with droppedDisabled := s.droppedDisabled + 1 }, hs, ht, hc,
      .inl ⟨by simp [tracks, hp], by simp [lands, hp], rfl⟩⟩
  | true =>
    rw [if_neg (by simp [he, hp])]
    by_cases hrel : m.flags &&& kPointerRelative = 0
    · have htr : p.tracks m = false := by simp [tracks, hrel]
      rw [if_neg (not_not.mpr hrel)]
      cases hpl : place env m with
      | none =>
        exact ⟨q.count fun s => { s with droppedNoWindow := s.droppedNoWindow + 1 }, hs, ht, hc,
          .inl ⟨htr, by simp [lands, hpl], rfl⟩⟩
      | some c =>
        obtain ⟨x, y⟩ := c
        dsimp only
        split_ifs with hscreen
        · refine ⟨q.count fun s => { s with droppedOffScreen := s.droppedOffScreen + 1 }, hs, ht,
            hc, .inl ⟨htr, ?_, rfl⟩⟩
          rw [lands, if_pos ⟨hp, hrel⟩, hpl]
          exact Option.filter_some_neg (by rw [decide_eq_true hscreen]; rfl)
        · refine ⟨q, hs, ht, hc, .inr (.inr ⟨htr, x, y, ?_, rfl⟩)⟩
          rw [lands, if_pos ⟨hp, hrel⟩, hpl]
          exact Option.filter_some_pos (by rw [decide_eq_false hscreen]; rfl)
    · rw [if_pos hrel]
      refine ⟨q.count fun s => { s with relativeEvents := s.relativeEvents + 1 }, hs, ht, hc,
        .inr (.inl ⟨?_, by simp [lands, hrel], rfl⟩)⟩
      simp [tracks, hp, hrel]

/-- An injector that takes everything. -/
def willing : IInputInjector Unit where
  moveTo _ _ s := (true, s)
  button _ _ _ _ s := (true, s)
  key _ s := (true, s)
  releaseAll s := s
  cursorPos _ := some (0, 0)

end PointerPipeline

end Digitiz
