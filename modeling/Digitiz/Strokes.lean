import Digitiz.PointerPipeline

/-!
The strokes behind the pipeline.

Most of what the pipeline keeps decides where the pointer goes; very little of it decides what is
held. That part is a machine of its own, which moves, presses a button or releases the one it
holds, and every message does a short word of these.
-/

namespace Digitiz

/-- The part of a pipeline that says which button is held, and what the injector has been asked. -/
structure Stroke (σ : Type) where
  injector : σ
  calls : List Call
  enabled : Bool
  down : Bool
  held : MouseButton

namespace Stroke

variable {σ : Type} (I : IInputInjector σ)

inductive Act
  | move (x y : ℤ)
  | press (b : MouseButton) (x y : ℤ)
  /-- Releases the button that is held. -/
  | release (x y : ℤ)

def button (s : Stroke σ) (b : MouseButton) (down : Bool) (x y : ℤ) : Stroke σ :=
  { s with
    injector := (I.button b down x y s.injector).2
    calls := s.calls ++ [Call.button b down x y] }

def act (s : Stroke σ) : Act → Stroke σ
  | .move x y =>
    { s with injector := (I.moveTo x y s.injector).2, calls := s.calls ++ [Call.moveTo x y] }
  | .press b x y => { s.button I b true x y with down := true, held := b }
  | .release x y => { s.button I s.held false x y with down := false }

def run (s : Stroke σ) (as : List Act) : Stroke σ := as.foldl (act I) s

@[simp] lemma run_nil (s : Stroke σ) : s.run I [] = s := rfl

@[simp] lemma run_cons (s : Stroke σ) (a : Act) (as : List Act) :
    s.run I (a :: as) = (s.act I a).run I as := rfl

lemma run_append (s : Stroke σ) (as bs : List Act) :
    s.run I (as ++ bs) = (s.run I as).run I bs := List.foldl_append

/-- The moves through a list of points. -/
def moves (at_ : List (ℤ × ℤ)) : List Act := at_.map fun c => .move c.1 c.2

lemma run_moves (s : Stroke σ) (at_ : List (ℤ × ℤ)) :
    s.run I (moves at_) = { s with
      injector := at_.foldl (fun i c => (I.moveTo c.1 c.2 i).2) s.injector
      calls := s.calls ++ at_.map fun c => Call.moveTo c.1 c.2 } := by
  induction at_ generalizing s with
  | nil => simp [moves]
  | cons c r ih =>
    have h : moves (c :: r) = .move c.1 c.2 :: moves r := rfl
    rw [h, run_cons, ih]
    simp [act]

end Stroke

namespace PointerPipeline

open Stroke

variable {R σ : Type}

def stroke (p : PointerPipeline R σ) : Stroke σ := ⟨p.injector, p.calls, p.enabled, p.down, p.held⟩

@[simp] lemma stroke_injector (p : PointerPipeline R σ) : p.stroke.injector = p.injector := rfl
@[simp] lemma stroke_calls (p : PointerPipeline R σ) : p.stroke.calls = p.calls := rfl
@[simp] lemma stroke_enabled (p : PointerPipeline R σ) : p.stroke.enabled = p.enabled := rfl
@[simp] lemma stroke_down (p : PointerPipeline R σ) : p.stroke.down = p.down := rfl
@[simp] lemma stroke_held (p : PointerPipeline R σ) : p.stroke.held = p.held := rfl

@[simp] lemma count_stroke (p : PointerPipeline R σ) (f : PipelineStats → PipelineStats) :
    (p.count f).stroke = p.stroke := rfl

@[simp] lemma countInjected_stroke (p : PointerPipeline R σ) (ok : Bool) :
    (p.countInjected ok).stroke = p.stroke := by
  unfold countInjected
  split <;> rfl

variable (I : IInputInjector σ)

lemma injectMove_stroke (p : PointerPipeline R σ) (x y : ℤ) :
    (p.injectMove I x y).stroke = p.stroke.act I (.move x y) := by
  unfold injectMove
  simp only [countInjected_stroke]
  rfl

lemma injectButton_stroke (p : PointerPipeline R σ) (b : MouseButton) (down : Bool) (x y : ℤ) :
    (p.injectButton I b down x y).stroke = p.stroke.button I b down x y := by
  unfold injectButton
  simp only [countInjected_stroke]
  rfl

lemma closeStroke_stroke (p : PointerPipeline R σ) (x y : ℤ) :
    (p.closeStroke I x y).stroke = p.stroke.act I (.release x y) := by
  change ({ (p.injectButton I p.held false x y).stroke with down := false } : Stroke σ) = _
  rw [injectButton_stroke]
  rfl

lemma releaseStroke_stroke (p : PointerPipeline R σ) :
    (p.releaseStroke I).stroke
      = if p.down then p.stroke.act I (.release p.lastX p.lastY) else p.stroke := by
  unfold releaseStroke
  dsimp only
  by_cases hd : p.down = true
  · rw [if_neg (by simp [hd]), if_pos hd]
    exact closeStroke_stroke I _ _ _
  · rw [if_pos (by simpa using hd), if_neg hd]
    rfl

lemma emitAll_stroke [FloatOps R] (p : PointerPipeline R σ) (qs : List (Point R)) :
    (p.emitAll I qs).stroke
      = p.stroke.run I (moves (qs.map fun q => (FloatOps.lround q.x, FloatOps.lround q.y))) := by
  induction qs generalizing p with
  | nil => rfl
  | cons q r ih =>
    have h : (p.emitSmoothed I q).stroke
        = p.stroke.act I (.move (FloatOps.lround q.x) (FloatOps.lround q.y)) := by
      unfold emitSmoothed
      rw [injectMove_stroke]
      rfl
    have hc : p.emitAll I (q :: r) = (p.emitSmoothed I q).emitAll I r := rfl
    rw [hc, ih, h]
    rfl

lemma seedRelative_stroke [Field R] (p : PointerPipeline R σ) (m : Pointer) :
    (p.seedRelative I m).stroke = p.stroke := by
  unfold seedRelative
  split
  · split <;> rfl
  · rfl

lemma advanceRelative_stroke [Field R] [FloatOps R] (env : Surroundings)
    (p : PointerPipeline R σ) (dx dy : R) : (advanceRelative env p dx dy).stroke = p.stroke := by
  unfold advanceRelative
  split
  · rfl
  · dsimp only
    split_ifs <;> rfl

/-! ### What one message does -/

/-- The words a message with action `a` can do while the button is held or not. -/
inductive Word (a : PointerAction) (down : Bool) : List Act → Prop
  | opens (b : MouseButton) (x y : ℤ) : a = .down → down = false → Word a down [.press b x y]
  | reopens (b : MouseButton) (x y : ℤ) :
      a = .down → down = true → Word a down [.release x y, .press b x y]
  | closes (at_ : List (ℤ × ℤ)) (x y : ℤ) :
      a = .up ∨ a = .cancel → down = true → Word a down (moves at_ ++ [.release x y])
  | draws (at_ : List (ℤ × ℤ)) :
      ¬((a = .up ∨ a = .cancel) ∧ down = true) → Word a down (moves at_)

/-- From `p` to `q`, a message with action `a` was carried out. -/
def Does (a : PointerAction) (p q : PointerPipeline R σ) : Prop :=
  ∃ as, Word a p.down as ∧ q.stroke = p.stroke.run I as

section does

variable {I} {a : PointerAction} {p p' q : PointerPipeline R σ}

lemma Does.of_stroke_eq (h : Does I a p' q) (hp : p'.stroke = p.stroke) : Does I a p q := by
  obtain ⟨as, hw, hq⟩ := h
  have hd : p'.down = p.down := congrArg Stroke.down hp
  exact ⟨as, hd ▸ hw, hp ▸ hq⟩

/-- Nothing is asked of the injector. -/
lemma Does.idle (ha : ¬((a = .up ∨ a = .cancel) ∧ p.down = true)) (hq : q.stroke = p.stroke) :
    Does I a p q :=
  ⟨moves [], .draws [] ha, hq⟩

end does

/-- A press leaves the button it names held, and closes the stroke that was open. -/
lemma openStroke_does (p : PointerPipeline R σ) (b : MouseButton) (x y : ℤ) :
    Does I .down p (p.openStroke I b x y) := by
  cases hd : p.down with
  | false =>
    refine ⟨_, .opens b x y rfl hd, ?_⟩
    simp only [openStroke, hd, Bool.false_eq_true, if_false]
    change ({ (p.injectButton I b true x y).stroke with down := true, held := b } : Stroke σ) = _
    rw [injectButton_stroke]
    rfl
  | true =>
    refine ⟨_, .reopens b x y rfl hd, ?_⟩
    simp only [openStroke, hd, if_true]
    generalize hq : (p.count _).injectButton I p.held false x y = q
    have hs : q.stroke = p.stroke.button I p.held false x y := by
      rw [← hq, injectButton_stroke, count_stroke]
    change ({ (q.injectButton I b true x y).stroke with down := true, held := b } : Stroke σ) = _
    rw [injectButton_stroke, hs]
    rfl

lemma closeStroke_does {a : PointerAction} (p : PointerPipeline R σ) (x y : ℤ)
    (ha : a = .up ∨ a = .cancel) (hd : p.down = true) : Does I a p (p.closeStroke I x y) :=
  ⟨_, .closes [] x y ha hd, closeStroke_stroke I p x y⟩

lemma injectMove_does {a : PointerAction} (p : PointerPipeline R σ) (x y : ℤ)
    (ha : ¬(a = .up ∨ a = .cancel)) : Does I a p (p.injectMove I x y) :=
  ⟨_, .draws [(x, y)] fun h => ha h.1, injectMove_stroke I p x y⟩

lemma not_closing {a : PointerAction} (h : a = .down ∨ a = .move ∨ a = .hover) :
    ¬(a = .up ∨ a = .cancel) := by
  rcases h with rfl | rfl | rfl <;> decide

lemma relativeAt_does (p : PointerPipeline R σ) (m : Pointer) (x y : ℤ) :
    Does I m.action p (p.relativeAt I m x y) := by
  unfold relativeAt
  split_ifs with hdown hmove hup hd
  · rw [hdown]
    exact openStroke_does I p m.button x y
  · exact injectMove_does I p x y (not_closing (.inr hmove))
  · exact closeStroke_does I p x y hup hd
  · exact .idle (fun h => hd h.2) rfl
  · exact .idle (fun h => hup h.1) rfl

variable [Field R] [FloatOps R]

/-- Where the pointer is tracked to makes no difference to what is held. -/
lemma trackRelative_stroke (env : Surroundings) (p : PointerPipeline R σ) (m : Pointer) :
    (p.trackRelative I env m).stroke = p.stroke := by
  refine (?_ : _ = ((p.seedRelative I m).advanceRelative env
    (m.x.toInt : R) (m.y.toInt : R)).stroke).trans ?_
  · rfl
  · rw [advanceRelative_stroke, seedRelative_stroke]

lemma handleRelative_does (env : Surroundings) (p : PointerPipeline R σ) (m : Pointer) :
    Does I m.action p (p.handleRelative I env m) :=
  (relativeAt_does I _ m _ _).of_stroke_eq (trackRelative_stroke I env p m)

variable [LinearOrder R]

lemma drainCurve_stroke (p : PointerPipeline R σ) (x y : ℤ) :
    ∃ at_, (p.drainCurve I x y).stroke = p.stroke.run I (moves at_) := by
  unfold drainCurve
  split
  · exact ⟨_, emitAll_stroke I _ _⟩
  · exact ⟨[], rfl⟩

/-- The end of an absolute stroke: the rest of the curve, then the release. -/
lemma drainClose_does {a : PointerAction} (p : PointerPipeline R σ) (x y : ℤ)
    (ha : a = .up ∨ a = .cancel) (hd : p.down = true) :
    Does I a p ((p.drainCurve I x y).closeStroke I x y) := by
  obtain ⟨at_, h⟩ := drainCurve_stroke I p x y
  refine ⟨_, .closes at_ x y ha hd, ?_⟩
  rw [closeStroke_stroke, h, run_append]
  rfl

lemma handleAt_does (p : PointerPipeline R σ) (m : Pointer) (x y : ℤ) :
    Does I m.action p (p.handleAt I m x y) := by
  suffices h : Does I m.action { p with lastX := x, lastY := y } (p.handleAt I m x y) from
    h.of_stroke_eq rfl
  unfold handleAt
  generalize { p with lastX := x, lastY := y } = q
  dsimp only
  split_ifs with hdown hmove hs hup hd hb hc hd
  · rw [hdown]
    exact openStroke_does I q m.button x y
  · exact ⟨_, .draws _ fun h => not_closing (.inr hmove) h.1, emitAll_stroke I _ _⟩
  · exact injectMove_does I q x y (not_closing (.inr hmove))
  · exact .idle (fun h => by simp [h.2] at hd) rfl
  · have hq : q.down = true := by simpa using hd
    exact (drainClose_does I (q.count _) x y (.inl hup) hq).of_stroke_eq rfl
  · exact drainClose_does I q x y (.inl hup) (by simpa using hd)
  · have hq : Does I m.action { q with smoother := q.smoother.reset } _ :=
      closeStroke_does I _ x y (.inr hc) hd
    exact hq.of_stroke_eq rfl
  · exact .idle (fun h => hd h.2) rfl
  · exact .idle (fun h => h.1.elim hup hc) rfl

/-- No window can be measured for an absolute message that needs one. -/
def NoWindow (env : Surroundings) (m : Pointer) : Prop :=
  m.flags &&& kPointerRelative = 0 ∧ m.flags &&& kPointerWindowRelative ≠ 0 ∧
    env.windowBounds = none

instance (env : Surroundings) (m : Pointer) : Decidable (NoWindow env m) :=
  inferInstanceAs (Decidable (_ ∧ _ ∧ _))

/-- **What a pointer message does.** It is dropped, or carried out. -/
theorem handlePointer_does (env : Surroundings) (p : PointerPipeline R σ) (m : Pointer) :
    (p.handlePointer I env m).stroke = p.stroke ∧
        (p.enabled = false ∨ NoWindow env m ∨ m.action = .down ∨ m.action = .move ∨
          m.action = .hover) ∨
      p.enabled = true ∧ ¬NoWindow env m ∧ Does I m.action p (p.handlePointer I env m) := by
  unfold handlePointer
  generalize hq : (p.count fun s => { s with received := s.received + 1 }) = q
  have hs : q.stroke = p.stroke := by rw [← hq, count_stroke]
  have he : q.enabled = p.enabled := congrArg Stroke.enabled hs
  dsimp only
  cases hen : q.enabled with
  | false => exact .inl ⟨hs, .inl (he ▸ hen)⟩
  | true =>
    have hp : p.enabled = true := he ▸ hen
    simp only [Bool.not_true, Bool.false_eq_true, if_false]
    split_ifs with hrel
    · exact .inr ⟨hp, fun h => hrel h.1, (handleRelative_does I env _ m).of_stroke_eq hs⟩
    · cases hpl : place env m with
      | none =>
        refine .inl ⟨hs, .inr (.inl ⟨not_not.mp hrel, ?_⟩)⟩
        unfold place at hpl
        split at hpl
        · exact ⟨‹_›, by simpa using hpl⟩
        · contradiction
      | some c =>
        obtain ⟨x, y⟩ := c
        have hw : ¬NoWindow env m := by
          rintro ⟨-, hw, hn⟩
          simp [place, hw, hn] at hpl
        dsimp only
        split_ifs with hscreen
        · exact .inl ⟨hs, .inr (.inr hscreen.1)⟩
        · exact .inr ⟨hp, hw, (handleAt_does I q m x y).of_stroke_eq hs⟩

end PointerPipeline

end Digitiz
