import Digitiz.Strokes
import Digitiz.Win32InputInjector

/-!
When a release is honoured.

A message that ends a stroke has to release the button that is held, wherever it says it
happened. It does, except on one path: an offset inside a window is given up before its action is
looked at when no window can be measured.
-/

namespace Digitiz

namespace PointerPipeline

open Stroke

variable {R σ : Type} (I : IInputInjector σ)

/-- Between `p` and `q` the button held was released: after some moves, and as the last thing
asked of the injector. -/
def Released (p q : PointerPipeline R σ) : Prop :=
  q.down = false ∧ ∃ (at_ : List (ℤ × ℤ)) (x y : ℤ),
    q.calls = p.calls ++ (at_.map fun c => Call.moveTo c.1 c.2) ++ [Call.button p.held false x y]

lemma Does.released {a : PointerAction} {p q : PointerPipeline R σ} (h : Does I a p q)
    (ha : a = .up ∨ a = .cancel) (hd : p.down = true) : Released p q := by
  obtain ⟨as, hw, hq⟩ := h
  cases hw with
  | opens b x y _ h => rw [hd] at h; contradiction
  | reopens b x y h => exact absurd ha (not_closing (.inl h))
  | draws at_ h => exact absurd ⟨ha, hd⟩ h
  | closes at_ x y =>
    rw [run_append, run_moves] at hq
    exact ⟨congrArg Stroke.down hq, at_, x, y, congrArg Stroke.calls hq⟩

variable [Field R] [LinearOrder R] [FloatOps R]

/-- **When a release is honoured.** While a button is down, a message that ends the stroke
releases it exactly when it is not an offset inside a window that cannot be measured. -/
theorem handlePointer_releases_iff (env : Surroundings) (p : PointerPipeline R σ) (m : Pointer)
    (he : p.enabled = true) (hd : p.down = true) (ha : m.action = .up ∨ m.action = .cancel) :
    Released p (p.handlePointer I env m) ↔
      ¬(m.flags &&& kPointerRelative = 0 ∧ m.flags &&& kPointerWindowRelative ≠ 0 ∧
        env.windowBounds = none) := by
  rcases handlePointer_does I env p m with ⟨hs, hwhy⟩ | ⟨-, hw, hdoes⟩
  · have hdown : (p.handlePointer I env m).down = true := (congrArg Stroke.down hs).trans hd
    have hno : NoWindow env m := by
      rcases hwhy with h | h | h
      · rw [he] at h; contradiction
      · exact h
      · exact absurd ha (not_closing h)
    refine iff_of_false (fun h => ?_) (not_not.mpr hno)
    rw [h.1] at hdown
    contradiction
  · exact iff_of_true (hdoes.released I ha hd) hw

/-- The pipeline over the Windows injector, with a system that inserts every event, after it was
enabled and a stroke was begun. -/
def midStroke : PointerPipeline ℚ Win32InputInjector :=
  ((init {}).setEnabled (Win32InputInjector.interface (fun _ b => b.length) none) true).handlePointer
    (Win32InputInjector.interface (fun _ b => b.length) none) {} { action := .down, x := 40, y := 30 }

theorem midStroke_releases :
    Released midStroke (midStroke.handlePointer
      (Win32InputInjector.interface (fun _ b => b.length) none) {} { action := .up, x := 41 }) :=
  (handlePointer_releases_iff _ _ _ _ (by decide +kernel) (by decide +kernel) (by decide)).mpr
    (by decide)

/-- A release that is an offset inside a window, at a moment when nothing has the focus. -/
theorem midStroke_stuck :
    midStroke.enabled = true ∧ midStroke.down = true ∧
      ¬∀ (env : Surroundings) (m : Pointer), m.action = .up ∨ m.action = .cancel →
        Released midStroke (midStroke.handlePointer
          (Win32InputInjector.interface (fun _ b => b.length) none) env m) := by
  refine ⟨by decide +kernel, by decide +kernel, fun h => ?_⟩
  have hm := (h {} { action := .up, flags := kPointerWindowRelative } (.inl rfl)).1
  revert hm
  decide +kernel

end PointerPipeline

end Digitiz
