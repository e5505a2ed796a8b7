import Mathlib.Algebra.BigOperators.Group.List.Basic
import Mathlib.Algebra.Ring.Nat
import Mathlib.Tactic.Common

/-!
Reading a stream that arrives in pieces.

A scanner looks at the symbols in front of it and either waits for more of them, drops one
symbol, or takes a whole item off the front. The one law asked of it is that a verdict other
than waiting does not change when more symbols arrive behind. From that law alone a reader
that keeps what it could not use yet, and looks again when more has come, reads the same items
however the stream was cut.
-/

namespace Digitiz.Scan

/-- What a scanner makes of the symbols in front of it. -/
inductive Verdict (β : Type*)
  | wait
  | skip
  | emit (b : β)

/-- A scanner whose verdict, once it is not to wait, is final. -/
structure Scanner (α β : Type*) where
  look : List α → Verdict β
  size : β → ℕ
  size_pos : ∀ b, 0 < size b
  skip_ne : ∀ {u}, look u = .skip → u ≠ []
  emit_le : ∀ {u b}, look u = .emit b → size b ≤ u.length
  stable : ∀ {u} v, look u ≠ .wait → look (u ++ v) = look u

/-- The items read, the number of symbols dropped, and the symbols still waiting. -/
@[ext] structure Parsed (α β : Type*) where
  items : List β
  skipped : ℕ
  rest : List α

/-- Reading on from where another reading stopped. -/
def Parsed.andThen {α β : Type*} (p q : Parsed α β) : Parsed α β :=
  ⟨p.items ++ q.items, p.skipped + q.skipped, q.rest⟩

variable {α β : Type*} (S : Scanner α β)

/-- Reads as far as the symbols at hand allow. -/
def parse (u : List α) : Parsed α β :=
  match _h : S.look u with
  | .wait => ⟨[], 0, u⟩
  | .skip => let p := parse (u.drop 1); { p with skipped := p.skipped + 1 }
  | .emit b => let p := parse (u.drop (S.size b)); { p with items := b :: p.items }
termination_by u.length
decreasing_by
  · have := List.length_pos_iff.mpr (S.skip_ne _h)
    simp only [List.length_drop]; omega
  · have := S.emit_le _h
    have := S.size_pos b
    simp only [List.length_drop]; omega

lemma parse_wait {u : List α} (h : S.look u = .wait) : parse S u = ⟨[], 0, u⟩ := by
  rw [parse]; split <;> simp_all

lemma parse_skip {u : List α} (h : S.look u = .skip) :
    parse S u = (⟨[], 1, []⟩ : Parsed α β).andThen (parse S (u.drop 1)) := by
  rw [parse]
  split <;> simp_all [Parsed.andThen, Nat.add_comm]

lemma parse_emit {u : List α} {b : β} (h : S.look u = .emit b) :
    parse S u = (⟨[b], 0, []⟩ : Parsed α β).andThen (parse S (u.drop (S.size b))) := by
  rw [parse]
  split <;> simp_all [Parsed.andThen]

lemma andThen_assoc (p q r : Parsed α β) :
    (p.andThen q).andThen r = p.andThen (q.andThen r) := by
  simp [Parsed.andThen, Nat.add_assoc]

/-- The induction a reading gives: waiting, one symbol dropped, or one item taken. -/
lemma parse_induction {P : List α → Prop} (wait : ∀ u, S.look u = .wait → P u)
    (skip : ∀ u, S.look u = .skip → P (u.drop 1) → P u)
    (emit : ∀ u b, S.look u = .emit b → P (u.drop (S.size b)) → P u) (u : List α) : P u := by
  fun_induction parse S u with
  | case1 u h => exact wait u h
  | case2 u h _ ih => exact skip u h ih
  | case3 u b h _ ih => exact emit u b h ih

/-- **Cutting the stream changes nothing.** Reading a stream is reading its first part, then
reading what was left of it followed by the second. -/
theorem parse_append (u v : List α) :
    parse S (u ++ v) = (parse S u).andThen (parse S ((parse S u).rest ++ v)) := by
  induction u using parse_induction S with
  | wait u h => rw [parse_wait S h]; simp [Parsed.andThen]
  | skip u h ih =>
    have hlen := List.length_pos_iff.mpr (S.skip_ne h)
    have h' := S.stable v (by simp [h]) |>.trans h
    rw [parse_skip S h', parse_skip S h, List.drop_append_of_le_length (by omega), ih,
      andThen_assoc]
    rfl
  | emit u b h ih =>
    have h' := S.stable v (by simp [h]) |>.trans h
    rw [parse_emit S h', parse_emit S h, List.drop_append_of_le_length (S.emit_le h), ih,
      andThen_assoc]
    rfl

/-- A reading stops only where the scanner asks for more. -/
lemma look_rest (u : List α) : S.look (parse S u).rest = .wait := by
  induction u using parse_induction S with
  | wait u h => rw [parse_wait S h]; exact h
  | skip u h ih => rw [parse_skip S h]; exact ih
  | emit u b h ih => rw [parse_emit S h]; exact ih

/-- **Every symbol is accounted for**: taken in an item, dropped, or still waiting. -/
theorem parse_balance (u : List α) :
    u.length = ((parse S u).items.map S.size).sum + (parse S u).skipped
      + (parse S u).rest.length := by
  induction u using parse_induction S with
  | wait u h => rw [parse_wait S h]; simp
  | skip u h ih =>
    have hlen := List.length_pos_iff.mpr (S.skip_ne h)
    rw [parse_skip S h]
    simp only [List.length_drop] at ih
    simp only [Parsed.andThen, List.nil_append]; omega
  | emit u b h ih =>
    have hlen := S.emit_le h
    rw [parse_emit S h]
    simp only [List.length_drop] at ih
    simp only [Parsed.andThen, List.map_append, List.map_cons, List.map_nil, List.sum_append,
      List.sum_cons, List.sum_nil]; omega

/-- Items written back to back are read back, and nothing is dropped on the way. -/
theorem parse_flatMap {enc : β → List α} {bs : List β}
    (henc : ∀ b ∈ bs, ∀ v, S.look (enc b ++ v) = .emit b ∧ S.size b = (enc b).length)
    (v : List α) :
    parse S (bs.flatMap enc ++ v) = (⟨bs, 0, []⟩ : Parsed α β).andThen (parse S v) := by
  induction bs with
  | nil => simp [Parsed.andThen]
  | cons b bs ih =>
    obtain ⟨hlook, hsize⟩ := henc b (by simp) (bs.flatMap enc ++ v)
    rw [List.flatMap_cons, List.append_assoc, parse_emit S hlook, hsize, List.drop_left,
      ih fun c hc => henc c (by simp [hc])]
    simp [Parsed.andThen]

/-- The beginning of an item is waited on. -/
lemma look_prefix {u v : List α} {b : β} (h : S.look (u ++ v) = .emit b)
    (hsize : u.length < S.size b) : S.look u = .wait := by
  by_contra hw
  have hu : S.look u = .emit b := (S.stable v hw).symm.trans h
  have hle := S.emit_le hu
  omega

/-- Items written back to back, the last of them cut short: they are read, and the part of the
last is kept. -/
lemma parse_cut {enc : β → List α} {bs : List β}
    (henc : ∀ b ∈ bs, ∀ v, S.look (enc b ++ v) = .emit b ∧ S.size b = (enc b).length)
    {u : List α} (hu : S.look u = .wait) : parse S (bs.flatMap enc ++ u) = ⟨bs, 0, u⟩ := by
  rw [parse_flatMap S henc, parse_wait S hu]
  simp [Parsed.andThen]

end Digitiz.Scan
