import Mathlib.Computability.Language
import Mathlib.Tactic.Common

/-!
Words made of phrases.

A phrase opens, goes on for as long as it likes and closes; a word of phrases is any number of
them one after the other. What has been said so far of such a word is either made of whole phrases
or ends in an open one, and a letter at a time leads from the one to the other.
-/

namespace Digitiz

open scoped Computability

variable {α : Type*}

/-- What is in the iteration of a language stays there when a word of the language follows. -/
lemma append_mem_kstar {l : Language α} {u v : List α} (hu : u ∈ l∗) (hv : v ∈ l) : u ++ v ∈ l∗ :=
  (kstar_mul_le_kstar : l∗ * l ≤ l∗) (Language.append_mem_mul hu hv)

/-- Any number of phrases: each opens, goes on and closes. -/
def phrases (o m c : Language α) : Language α := (o * m∗ * c)∗

/-- Any number of phrases and one that is still open. -/
def openPhrases (o m c : Language α) : Language α := phrases o m c * (o * m∗)

variable {o m c : Language α} {u v : List α}

lemma nil_mem_phrases : [] ∈ phrases o m c := Language.nil_mem_kstar _

lemma append_open (hu : u ∈ phrases o m c) (hv : v ∈ o) : u ++ v ∈ openPhrases o m c := by
  have h : v ++ [] ∈ o * m∗ := Language.append_mem_mul hv (Language.nil_mem_kstar m)
  rw [List.append_nil] at h
  exact Language.append_mem_mul hu h

lemma append_inner (hu : u ∈ openPhrases o m c) (hv : v ∈ m) : u ++ v ∈ openPhrases o m c := by
  obtain ⟨p, hp, q, hq, rfl⟩ := Language.mem_mul.mp hu
  obtain ⟨a, ha, b, hb, rfl⟩ := Language.mem_mul.mp hq
  rw [List.append_assoc, List.append_assoc]
  exact Language.append_mem_mul hp (Language.append_mem_mul ha (append_mem_kstar hb hv))

lemma append_close (hu : u ∈ openPhrases o m c) (hv : v ∈ c) : u ++ v ∈ phrases o m c := by
  obtain ⟨p, hp, q, hq, rfl⟩ := Language.mem_mul.mp hu
  rw [List.append_assoc]
  exact append_mem_kstar hp (Language.append_mem_mul hq hv)

end Digitiz
