import Digitiz.Messages
import Digitiz.Geometry

/-!
The interface between the pointer pipeline and the operating system's input.

An injector is a state together with the calls of the interface, each of which may fail. The
calls a pipeline makes are recorded as values of their own, so that what was asked of an
injector can be spoken of without knowing which one it was.
-/

namespace Digitiz

structure IInputInjector (σ : Type) where
  moveTo : ℤ → ℤ → σ → Bool × σ
  button : MouseButton → Bool → ℤ → ℤ → σ → Bool × σ
  key : Key → σ → Bool × σ
  /-- Releases anything still held, buttons and keys alike. -/
  releaseAll : σ → σ
  cursorPos : σ → Option (ℤ × ℤ)

/-- A call made on an injector. -/
inductive Call
  | moveTo (x y : ℤ)
  | button (b : MouseButton) (down : Bool) (x y : ℤ)
  | key (k : Key)
  | releaseAll
  deriving DecidableEq, Repr

end Digitiz
