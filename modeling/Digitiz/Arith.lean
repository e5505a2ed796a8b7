import Mathlib.Data.Int.Notation
import Mathlib.Data.List.Basic
import Mathlib.Tactic.Common

/-!
Computations on machine integers.

A computation is carried out over the integers without bound, and keeps beside its result every
value an operation on a 32-bit integer gave on the way. As long as all of these are in range the
machine computes the same; the first that is not is a signed overflow.
-/

namespace Digitiz

/-- A value a 32-bit signed integer can have. -/
def InInt (v : ℤ) : Prop := -2147483648 ≤ v ∧ v ≤ 2147483647

instance (v : ℤ) : Decidable (InInt v) := inferInstanceAs (Decidable (_ ∧ _))

@[ext] structure Arith (α : Type) where
  val : α
  /-- The results of the integer operations, in the order they were carried out. -/
  ints : List ℤ

namespace Arith

variable {α β σ : Type}

instance : Monad Arith where
  pure a := ⟨a, []⟩
  bind c f := ⟨(f c.val).val, c.ints ++ (f c.val).ints⟩

/-- The result of an integer operation. -/
def int (v : ℤ) : Arith ℤ := ⟨v, [v]⟩

/-- No operation overflows. -/
def Fits (c : Arith α) : Prop := ∀ v ∈ c.ints, InInt v

instance (c : Arith α) : Decidable c.Fits := inferInstanceAs (Decidable (∀ v ∈ c.ints, InInt v))

@[simp] lemma val_pure (a : α) : (pure a : Arith α).val = a := rfl

@[simp] lemma val_int (v : ℤ) : (int v).val = v := rfl

@[simp] lemma val_bind (c : Arith α) (f : α → Arith β) : (c >>= f).val = (f c.val).val := rfl

lemma val_ite (c : Prop) [Decidable c] (a b : Arith α) :
    (if c then a else b).val = if c then a.val else b.val := apply_ite val c a b

lemma bind_assoc (c : Arith α) (f : α → Arith β) (k : β → Arith σ) :
    c >>= f >>= k = c >>= fun a => f a >>= k :=
  Arith.ext rfl (List.append_assoc c.ints (f c.val).ints (k (f c.val).val).ints)

@[simp] lemma fits_pure (a : α) : (pure a : Arith α).Fits := fun _ h => absurd h List.not_mem_nil

@[simp] lemma fits_int (v : ℤ) : (int v).Fits ↔ InInt v := List.forall_mem_singleton

@[simp] lemma fits_bind (c : Arith α) (f : α → Arith β) :
    (c >>= f).Fits ↔ c.Fits ∧ (f c.val).Fits := List.forall_mem_append

lemma fits_ite_iff {c : Prop} [Decidable c] {a b : Arith α} :
    (if c then a else b).Fits ↔ (c → a.Fits) ∧ (¬c → b.Fits) := by
  by_cases h : c <;> simp [h]

lemma fits_ite {c : Prop} [Decidable c] {a b : Arith α} (ha : c → a.Fits) (hb : ¬c → b.Fits) :
    (if c then a else b).Fits := fits_ite_iff.mpr ⟨ha, hb⟩

/-! ### Loops -/

/-- A loop whose rounds do not depend on each other. -/
def each (l : List α) (f : α → Arith β) : Arith (List β) :=
  ⟨l.map fun a => (f a).val, l.flatMap fun a => (f a).ints⟩

@[simp] lemma val_each (l : List α) (f : α → Arith β) :
    (each l f).val = l.map fun a => (f a).val := rfl

lemma fits_each (l : List α) (f : α → Arith β) :
    (each l f).Fits ↔ ∀ a ∈ l, (f a).Fits := List.forall_mem_flatMap

/-- A loop that carries a state from round to round. -/
def sweep (f : σ → α → Arith σ) : List α → σ → Arith σ
  | [], s => pure s
  | a :: r, s => f s a >>= sweep f r

lemma val_sweep (f : σ → α → Arith σ) (l : List α) (s : σ) :
    (sweep f l s).val = l.foldl (fun s a => (f s a).val) s := by
  induction l generalizing s with
  | nil => rfl
  | cons a r ih => exact ih (f s a).val

lemma fits_sweep_nil (f : σ → α → Arith σ) (s : σ) : (sweep f [] s).Fits := fits_pure s

lemma fits_sweep_cons (f : σ → α → Arith σ) (a : α) (r : List α) (s : σ) :
    (sweep f (a :: r) s).Fits ↔ (f s a).Fits ∧ (sweep f r (f s a).val).Fits := fits_bind _ _

/-- The rule for a loop: what each round keeps is enough for the next. -/
lemma fits_sweep_of {f : σ → α → Arith σ} {l : List α} {P : σ → Prop}
    (hstep : ∀ s, P s → ∀ a ∈ l, (f s a).Fits ∧ P (f s a).val) {s : σ} (hs : P s) :
    (sweep f l s).Fits ∧ P (sweep f l s).val := by
  induction l generalizing s with
  | nil => exact ⟨fits_sweep_nil f s, hs⟩
  | cons a r ih =>
    obtain ⟨hfits, hnext⟩ := hstep s hs a List.mem_cons_self
    obtain ⟨hrest, hend⟩ :=
      ih (fun s hs b hb => hstep s hs b (List.mem_cons_of_mem _ hb)) hnext
    exact ⟨(fits_sweep_cons f a r s).mpr ⟨hfits, hrest⟩, hend⟩

lemma sweep_append (f : σ → α → Arith σ) (l l' : List α) (s : σ) :
    sweep f (l ++ l') s = sweep f l s >>= sweep f l' := by
  induction l generalizing s with
  | nil => rfl
  | cons a r ih =>
    show f s a >>= sweep f (r ++ l') = f s a >>= sweep f r >>= sweep f l'
    rw [bind_assoc]
    exact congrArg (f s a >>= ·) (funext ih)

/-- A loop in a loop is one loop. -/
lemma sweep_flatMap (f : σ → α → Arith σ) (k : β → List α) (l : List β) (s : σ) :
    sweep (fun s b => sweep f (k b) s) l s = sweep f (l.flatMap k) s := by
  induction l generalizing s with
  | nil => rfl
  | cons b r ih =>
    rw [List.flatMap_cons, sweep_append]
    exact congrArg (sweep f (k b) s >>= ·) (funext ih)

lemma sweep_map (f : σ → α → Arith σ) (k : β → α) (l : List β) (s : σ) :
    sweep (fun s b => f s (k b)) l s = sweep f (l.map k) s := by
  induction l generalizing s with
  | nil => rfl
  | cons b r ih => exact congrArg (f s (k b) >>= ·) (funext ih)

/-- Rounds that are passed over do nothing. -/
lemma sweep_filter (f : σ → α → Arith σ) (skip : α → Prop) [DecidablePred skip] (l : List α)
    (s : σ) : sweep (fun s a => if skip a then pure s else f s a) l s =
      sweep f (l.filter fun a => ¬skip a) s := by
  induction l generalizing s with
  | nil => rfl
  | cons a r ih =>
    by_cases h : skip a
    · rw [List.filter_cons_of_neg (by simp [h])]
      refine Eq.trans ?_ (ih s)
      show (if skip a then pure s else f s a) >>= _ = _
      rw [if_pos h]
      rfl
    · rw [List.filter_cons_of_pos (by simp [h])]
      show (if skip a then pure s else f s a) >>= _ = _
      rw [if_neg h]
      exact congrArg (f s a >>= ·) (funext ih)

end Arith

end Digitiz
