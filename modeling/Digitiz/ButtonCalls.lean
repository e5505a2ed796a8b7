import Digitiz.HeldInput

/-!
The presses and releases a pipeline asks for.

Whatever is sent to it, a pipeline asks its injector for one click after the other: a button down
and the same button up again, and at the end perhaps a button down whose release is still to come.
That button is the one the pipeline remembers.
-/

namespace Digitiz

/-! ### Clicks -/

/-- The button calls among the calls, each with the button and whether it goes down. -/
def buttonCalls (calls : List Call) : List (MouseButton × Bool) :=
  calls.filterMap fun
    | .button b down _ _ => some (b, down)
    | _ => none

/-- Each button down and up again. -/
def clicks (bs : List MouseButton) : List (MouseButton × Bool) :=
  bs.flatMap fun b => [(b, true), (b, false)]

/-- The buttons down after some calls that all succeeded, once for every press not yet undone. -/
def pressed (calls : List (MouseButton × Bool)) : List MouseButton :=
  calls.foldl (fun held (b, down) => if down then b :: held else held.erase b) []

lemma buttonCalls_append (cs ds : List Call) :
    buttonCalls (cs ++ ds) = buttonCalls cs ++ buttonCalls ds := List.filterMap_append

lemma clicks_append (bs cs : List MouseButton) : clicks (bs ++ cs) = clicks bs ++ clicks cs :=
  List.flatMap_append

lemma pressed_clicks_append (bs : List MouseButton) (l : List (MouseButton × Bool)) :
    pressed (clicks bs ++ l) = pressed l := by
  induction bs with
  | nil => rfl
  | cons b bs ih =>
    rw [← ih, clicks, List.flatMap_cons]
    simp [pressed, clicks]

/-- Clicks never hold more than one button. -/
lemma length_pressed_take (bs : List MouseButton) (l : List (MouseButton × Bool))
    (hl : l.length ≤ 1) (k : ℕ) : (pressed ((clicks bs ++ l).take k)).length ≤ 1 := by
  induction bs generalizing k with
  | nil =>
    cases l with
    | nil => cases k <;> exact Nat.zero_le 1
    | cons a l =>
      obtain rfl : l = [] := List.length_eq_zero_iff.mp (by simpa using hl)
      obtain ⟨b, down⟩ := a
      cases k <;> cases down <;> simp [pressed, clicks]
  | cons b bs ih =>
    match k with
    | 0 => exact Nat.zero_le 1
    | 1 => exact le_rfl
    | k + 2 =>
      have h := pressed_clicks_append [b] ((clicks bs ++ l).take k)
      exact (congrArg List.length h).trans_le (ih k)

/-! ### What the strokes leave in order -/

namespace Stroke

variable {σ : Type} {I : IInputInjector σ} {s : Stroke σ}

/-- The press whose release is still to come. -/
def opening (s : Stroke σ) : List (MouseButton × Bool) := if s.down then [(s.held, true)] else []

/-- The buttons were clicked one after the other, and the last one may be down. -/
def InOrder (s : Stroke σ) : Prop := ∃ bs, buttonCalls s.calls = clicks bs ++ s.opening

lemma InOrder.of_calls {t : Stroke σ} {cs : List Call} (h : InOrder s)
    (hc : t.calls = s.calls ++ cs) (hb : buttonCalls cs = []) (hd : t.down = s.down)
    (hh : t.held = s.held) : InOrder t := by
  obtain ⟨bs, hbs⟩ := h
  refine ⟨bs, ?_⟩
  rw [hc, buttonCalls_append, hb, List.append_nil, hbs, opening, opening, hd, hh]

lemma InOrder.moves (h : InOrder s) (at_ : List (ℤ × ℤ)) : InOrder (s.run I (moves at_)) := by
  have hc : (s.run I (Stroke.moves at_)).calls
      = s.calls ++ at_.map fun c => Call.moveTo c.1 c.2 := by rw [run_moves]
  refine h.of_calls hc ?_ ?_ ?_
  · simp [buttonCalls]
  · rw [run_moves]
  · rw [run_moves]

lemma InOrder.press (h : InOrder s) (hd : s.down = false) (b : MouseButton) (x y : ℤ) :
    InOrder (s.act I (.press b x y)) := by
  obtain ⟨bs, hbs⟩ := h
  refine ⟨bs, ?_⟩
  rw [opening, if_neg (by simp [hd]), List.append_nil] at hbs
  rw [act, button, buttonCalls_append, hbs, opening, if_pos rfl]
  rfl

lemma InOrder.release (h : InOrder s) (hd : s.down = true) (x y : ℤ) :
    InOrder (s.act I (.release x y)) := by
  obtain ⟨bs, hbs⟩ := h
  refine ⟨bs ++ [s.held], ?_⟩
  rw [opening, if_pos hd] at hbs
  rw [act, button, buttonCalls_append, hbs, clicks_append, opening, if_neg Bool.false_ne_true,
    List.append_nil, List.append_assoc]
  rfl

end Stroke

namespace PointerPipeline

open Stroke

variable {R σ : Type} {I : IInputInjector σ} {p q : PointerPipeline R σ}

lemma Does.inOrder {a : PointerAction} (hd : Does I a p q) (h : InOrder p.stroke) :
    InOrder q.stroke := by
  obtain ⟨as, hw, hq⟩ := hd
  rw [hq]
  cases hw with
  | opens b x y _ hd => exact h.press hd b x y
  | reopens b x y _ hd => exact (h.release hd x y).press rfl b x y
  | closes at_ x y _ hd =>
    rw [run_append]
    refine (h.moves at_).release ?_ x y
    rw [run_moves]
    exact hd
  | draws at_ => exact h.moves at_

/-- After a stroke is torn down nothing is held. -/
lemma releaseStroke_inOrder (h : InOrder p.stroke) :
    InOrder (p.releaseStroke I).stroke ∧ (p.releaseStroke I).down = false := by
  rw [← stroke_down, releaseStroke_stroke]
  split_ifs with hd
  · exact ⟨h.release hd _ _, rfl⟩
  · exact ⟨h, by simpa using hd⟩

lemma setEnabled_inOrder (h : InOrder p.stroke) (on : Bool) :
    InOrder (p.setEnabled I on).stroke := by
  unfold setEnabled
  split_ifs
  · exact h
  · exact (releaseStroke_inOrder h).1
  · exact h

lemma handleKey_inOrder (h : InOrder p.stroke) (k : Key) : InOrder (p.handleKey I k).stroke := by
  have hk : ∀ i, InOrder (⟨i, p.calls ++ [Call.key k], p.enabled, p.down, p.held⟩ : Stroke σ) :=
    fun i => h.of_calls rfl rfl rfl rfl
  unfold handleKey
  dsimp only
  split_ifs
  · exact h
  · exact hk _
  · exact hk _

lemma endSession_inOrder (h : InOrder p.stroke) :
    InOrder (p.endSession I).stroke ∧ (p.endSession I).down = false := by
  obtain ⟨hr, hd⟩ := releaseStroke_inOrder (I := I) (p := { p with relSeeded := false }) h
  exact ⟨hr.of_calls rfl rfl rfl rfl, hd⟩

/-! ### Whole runs -/

variable [Field R] [LinearOrder R] [FloatOps R]

/-- What can happen to a pipeline over the length of several sessions. -/
inductive Turn (R : Type)
  | event (e : Event R)
  | endSession

/-- One turn, over any injector; where the cursor is found is part of the event. -/
def turn (I : IInputInjector σ) (p : PointerPipeline R σ) : Turn R → PointerPipeline R σ
  | .event (.pointer env cursor m) => p.handlePointer { I with cursorPos := fun _ => cursor } env m
  | .event (.key k) => p.handleKey I k
  | .event (.setEnabled on) => p.setEnabled I on
  | .event (.tune on stepPx alpha) =>
    { p with smoother := ((p.smoother.setEnabled on).setStepPx stepPx).setAlpha alpha }
  | .endSession => p.endSession I

def turns (I : IInputInjector σ) (p : PointerPipeline R σ) (ts : List (Turn R)) :
    PointerPipeline R σ := ts.foldl (turn I) p

lemma turn_inOrder (h : InOrder p.stroke) (t : Turn R) : InOrder (p.turn I t).stroke := by
  cases t with
  | endSession => exact (endSession_inOrder h).1
  | event e =>
    cases e with
    | pointer env cursor m =>
      rcases handlePointer_does { I with cursorPos := fun _ => cursor } env p m with
        ⟨hs, -⟩ | ⟨-, -, hd⟩
      · rw [turn, hs]
        exact h
      · exact hd.inOrder h
    | key k => exact handleKey_inOrder h k
    | setEnabled on => exact setEnabled_inOrder h on
    | tune on stepPx alpha => exact h

lemma turns_inOrder (h : InOrder p.stroke) (ts : List (Turn R)) :
    InOrder (p.turns I ts).stroke := by
  induction ts generalizing p with
  | nil => exact h
  | cons t ts ih => exact ih (turn_inOrder h t)

/-- What is promised of the button calls of a pipeline. -/
structure Disciplined (p : PointerPipeline R σ) : Prop where
  /-- Presses and releases alternate, each release of the button pressed before it. -/
  alternating : ∃ bs, buttonCalls p.calls = clicks bs ++ if p.down then [(p.held, true)] else []
  /-- Never, also between two calls, is more than one button held. -/
  atMostOne : ∀ k, (pressed ((buttonCalls p.calls).take k)).length ≤ 1
  /-- The pipeline knows which. -/
  remembered : pressed (buttonCalls p.calls) = if p.down then [p.held] else []

omit [Field R] [LinearOrder R] [FloatOps R] in
lemma Disciplined.of_inOrder (h : InOrder p.stroke) : Disciplined p := by
  obtain ⟨bs, hbs⟩ := h
  rw [stroke_calls, opening, stroke_down, stroke_held] at hbs
  refine ⟨⟨bs, hbs⟩, fun k => ?_, ?_⟩
  · rw [hbs]
    refine length_pressed_take bs _ ?_ k
    split_ifs
    · exact le_rfl
    · exact Nat.zero_le 1
  · rw [hbs, pressed_clicks_append]
    split_ifs <;> rfl

/-- **Button discipline over whole runs.** Whatever is sent to a pipeline, in whatever order, its
button calls are clicks, at most one button is ever held and the pipeline knows which; and the end
of a session leaves none. -/
theorem turns_disciplined (I : IInputInjector σ) (i : σ) (ts : List (Turn R)) :
    Disciplined ((init i).turns I ts) ∧
      (((init i).turns I ts).endSession I).down = false ∧
      pressed (buttonCalls (((init i).turns I ts).endSession I).calls) = [] := by
  have h0 : InOrder (init (R := R) i).stroke := ⟨[], rfl⟩
  have h := turns_inOrder (I := I) h0 ts
  obtain ⟨he, hd⟩ := endSession_inOrder (I := I) h
  refine ⟨.of_inOrder h, hd, ?_⟩
  rw [(Disciplined.of_inOrder he).remembered, hd]
  rfl

end PointerPipeline

end Digitiz
