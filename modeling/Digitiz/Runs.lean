import Mathlib.Data.List.Basic
import Mathlib.Tactic.Common

/-!
Runs of a system that takes one step at a time.

A step function says what a step does and whether it can be taken at all. A run is a list of
steps, each of them possible where it is taken and each leaving a state of which a side condition
holds; with the trivial condition these are all the runs there are.
-/

namespace Digitiz

variable {S A : Type*}

/-- The run `as` from `s` to `t`, with `ok` holding at every step before it is taken. -/
inductive Run (step : S → A → Option S) (ok : S → A → Prop) : S → List A → S → Prop
  | nil (s : S) : Run step ok s [] s
  | cons {s t u : S} {a : A} {as : List A} (h : ok s a) (hs : step s a = some t)
      (hr : Run step ok t as u) : Run step ok s (a :: as) u

namespace Run

variable {step : S → A → Option S} {ok ok' : S → A → Prop} {s t u : S} {a : A} {as bs : List A}

lemma one (h : ok s a) (hs : step s a = some t) : Run step ok s [a] t := .cons h hs (.nil t)

lemma append (h : Run step ok s as t) (h' : Run step ok t bs u) : Run step ok s (as ++ bs) u := by
  induction h with
  | nil => exact h'
  | cons h hs _ ih => exact .cons h hs (ih h')

/-- **The invariant rule.** What every permitted step keeps, every run keeps. -/
theorem invariant (I : S → Prop)
    (hI : ∀ s a t, I s → ok s a → step s a = some t → I t)
    (h : Run step ok s as t) (h0 : I s) : I t := by
  induction h with
  | nil => exact h0
  | cons h hs _ ih => exact ih (hI _ _ _ h0 h hs)

lemma mono (hok : ∀ s a, ok s a → ok' s a) (h : Run step ok s as t) : Run step ok' s as t := by
  induction h with
  | nil => exact .nil _
  | cons h hs _ ih => exact .cons (hok _ _ h) hs ih

/-- The steps of a run are among those it is made of. -/
lemma mem (h : Run step ok s as t) : Run step (fun s a => ok s a ∧ a ∈ as) s as t := by
  induction h with
  | nil => exact .nil _
  | cons h hs _ ih =>
    exact .cons ⟨h, List.mem_cons_self⟩ hs
      (ih.mono fun _ _ ⟨hok, hmem⟩ => ⟨hok, List.mem_cons_of_mem _ hmem⟩)

/-- A run cut at a step: the state the step was taken from and the one it led to. -/
lemma split (h : Run step ok s (as ++ a :: bs) u) :
    ∃ t t', Run step ok s as t ∧ ok t a ∧ step t a = some t' ∧ Run step ok t' bs u := by
  induction as generalizing s with
  | nil =>
    cases h with
    | cons h hs hr => exact ⟨s, _, .nil s, h, hs, hr⟩
  | cons b r ih =>
    cases h with
    | cons h hs hr =>
      obtain ⟨t, t', ht, hok, hst, hr'⟩ := ih hr
      exact ⟨t, t', .cons h hs ht, hok, hst, hr'⟩

/-- The steps one after the other, as long as they can be taken and the condition holds. -/
def exec (step : S → A → Option S) (ok : S → A → Prop) [∀ s a, Decidable (ok s a)] (s : S)
    (as : List A) : Option S :=
  as.foldlM (fun s a => if ok s a then step s a else none) s

/-- What can be executed is a run. -/
theorem of_exec [∀ s a, Decidable (ok s a)] (h : exec step ok s as = some t) :
    Run step ok s as t := by
  induction as generalizing s with
  | nil =>
    obtain rfl := Option.some.inj h
    exact .nil _
  | cons a r ih =>
    rw [exec, List.foldlM_cons] at h
    split_ifs at h with hok
    · cases hs : step s a with
      | none => rw [hs] at h; contradiction
      | some s' =>
        rw [hs] at h
        exact .cons hok hs (ih h)
    · contradiction

/-- Where the steps lead, if they can all be taken. -/
def final (step : S → A → Option S) (ok : S → A → Prop) [∀ s a, Decidable (ok s a)] (s : S)
    (as : List A) : S := (exec step ok s as).getD s

lemma to_final [∀ s a, Decidable (ok s a)] (h : (exec step ok s as).isSome = true) :
    Run step ok s as (final step ok s as) := by
  obtain ⟨t, ht⟩ := Option.isSome_iff_exists.mp h
  rw [final, ht]
  exact of_exec ht

end Run

/-- **The exactness rule.** Where a step keeps a property exactly under a condition, the property
holds all along exactly when every step meets the condition. -/
theorem holds_along_iff {step : S → A → S} {P : S → Prop} {C : S → A → Prop}
    (h : ∀ s a, P s → (P (step s a) ↔ C s a)) {s : S} (hs : P s) (as : List A) :
    (∀ n, P ((as.take n).foldl step s)) ↔
      ∀ n a, as[n]? = some a → C ((as.take n).foldl step s) a := by
  induction as generalizing s with
  | nil => simpa using hs
  | cons a r ih =>
    constructor
    · intro hall n b hb
      have hstep : P (step s a) := by simpa using hall 1
      cases n with
      | zero =>
        obtain rfl : a = b := by simpa using hb
        exact (h s a hs).mp hstep
      | succ n =>
        refine (ih hstep).mp (fun k => ?_) n b (by simpa using hb)
        simpa using hall (k + 1)
    · intro hall n
      cases n with
      | zero => simpa using hs
      | succ n =>
        have hstep : P (step s a) := (h s a hs).mpr (by simpa using hall 0 a rfl)
        rw [List.take_succ_cons, List.foldl_cons]
        refine (ih hstep).mpr (fun k b hb => ?_) n
        simpa using hall (k + 1) b (by simpa using hb)

end Digitiz
