import Digitiz.ExactOps
import Digitiz.TouchRouter
import Mathlib.Algebra.BigOperators.Group.List.Basic
import Mathlib.Algebra.Order.Ring.Nat
import Mathlib.Tactic.FieldSimp
import Mathlib.Tactic.Linarith

/-!
The motion of a slide.

A finger that slides moves the cursor by whole pixels. What does not make a whole pixel is carried
to the next move, so nothing is lost, whichever way the finger turns. A touch that was brief and
stayed where it was is a click besides.
-/

namespace Digitiz.TouchRouter

open MotionEvent Wire

variable {R : Type}

/-! ### Whole pixels -/

section whole

variable [Field R] [LinearOrder R] [FloatOps R] [IsStrictOrderedRing R] (hceil : ExactCeil R)
  (q : R)
include hceil

lemma ceil_bounds : q ≤ FloatOps.ceil q ∧ (FloatOps.ceil q : R) < q + 1 := by
  refine ⟨(hceil q _).mp le_rfl, ?_⟩
  have hless := mt (hceil q (FloatOps.ceil q - 1)).mpr (by omega)
  rw [not_le, Int.cast_sub, Int.cast_one] at hless
  linarith

/-- The whole part is never further from zero than the number, and less than one away from it. -/
lemma trunc_bounds : |q - (trunc q : R)| < 1 ∧ |(trunc q : R)| ≤ |q| := by
  unfold trunc
  split_ifs with hneg
  · obtain ⟨hle, hlt⟩ := ceil_bounds hceil q
    have hzero : (FloatOps.ceil q : R) ≤ 0 := by
      exact_mod_cast (hceil q 0).mpr (by exact_mod_cast hneg.le)
    refine ⟨abs_lt.mpr ⟨by linarith, by linarith⟩, ?_⟩
    rw [abs_of_nonpos hneg.le, abs_of_nonpos hzero]
    linarith
  · obtain ⟨hle, hlt⟩ := ceil_bounds hceil (-q)
    have hpos := not_lt.mp hneg
    have hzero : (FloatOps.ceil (-q) : R) ≤ 0 := by
      exact_mod_cast (hceil (-q) 0).mpr (by push_cast; linarith)
    rw [Int.cast_neg]
    refine ⟨abs_lt.mpr ⟨by linarith, by linarith⟩, ?_⟩
    rw [abs_of_nonneg hpos, abs_of_nonneg (neg_nonneg.mpr hzero)]
    linarith

/-- It is zero as long as there is no whole pixel. -/
lemma trunc_eq_zero_iff : trunc q = 0 ↔ |q| < 1 := by
  obtain ⟨hnear, hle⟩ := trunc_bounds hceil q
  constructor
  · intro h
    rwa [h, Int.cast_zero, sub_zero] at hnear
  · intro h
    have hlt := hle.trans_lt h
    rw [← Int.cast_abs] at hlt
    have : |trunc q| < 1 := by exact_mod_cast hlt
    exact Int.abs_lt_one_iff.mp this

end whole

/-! ### What has been sent -/

/-- The messages since `r₀`. -/
def since (r₀ r : TouchRouter R) : List Pointer := r.sent.drop r₀.sent.length

/-- All their deltas together. -/
def deltas (f : Pointer → Int32) (ms : List Pointer) : ℤ := (ms.map fun m => (f m).toInt).sum

lemma deltas_concat (f : Pointer → Int32) (ms : List Pointer) (m : Pointer) :
    deltas f (ms ++ [m]) = deltas f ms + (f m).toInt := by
  simp [deltas]

/-- Exactly the first of them starts the gesture, and the router knows whether it was sent. -/
structure Marked (r₀ r : TouchRouter R) : Prop where
  grown : r₀.sent <+: r.sent
  started : r.slideStartedSent = true ↔ since r₀ r ≠ []
  first_only : ∀ i m, (since r₀ r)[i]? = some m → (m.flags &&& kPointerGestureStart ≠ 0 ↔ i = 0)

variable {r₀ r s : TouchRouter R}

lemma Marked.congr (h : Marked r₀ r) (hsent : s.sent = r.sent)
    (hstarted : s.slideStartedSent = r.slideStartedSent) : Marked r₀ s := by
  have hsince : since r₀ s = since r₀ r := congrArg (List.drop r₀.sent.length) hsent
  exact ⟨hsent ▸ h.grown, by rw [hstarted, hsince]; exact h.started, by
    rw [hsince]; exact h.first_only⟩

/-- A message with a delta. -/
lemma since_emitRelative (h : r₀.sent <+: r.sent) (action : PointerAction) (dx dy : Int32)
    (tUs : UInt64) : ∃ m : Pointer, m.action = action ∧ m.x = dx ∧ m.y = dy ∧
      m.flags = (if !r.slideStartedSent then kPointerRelative ||| kPointerGestureStart
        else kPointerRelative) ∧
      since r₀ (r.emitRelative action dx dy tUs) = since r₀ r ++ [m] :=
  ⟨_, rfl, rfl, rfl, rfl, List.drop_append_of_le_length h.length_le⟩

lemma Marked.emitRelative (h : Marked r₀ r) (action : PointerAction) (dx dy : Int32)
    (tUs : UInt64) : Marked r₀ (r.emitRelative action dx dy tUs) := by
  obtain ⟨m, -, -, -, hflags, hsince⟩ := since_emitRelative h.grown action dx dy tUs
  refine ⟨h.grown.trans (List.prefix_append _ _), ?_, fun i m' hm' => ?_⟩
  · rw [hsince]
    exact iff_of_true rfl (List.append_ne_nil_of_right_ne_nil _ (List.cons_ne_nil _ _))
  · rw [hsince] at hm'
    obtain hlt | hge := Nat.lt_or_ge i (since r₀ r).length
    · rw [List.getElem?_append_left hlt] at hm'
      exact h.first_only i m' hm'
    · rw [List.getElem?_append_right hge] at hm'
      obtain ⟨hi, rfl⟩ : i = (since r₀ r).length ∧ m = m' := by
        obtain ⟨hlt, hget⟩ := List.getElem?_eq_some_iff.mp hm'
        rw [List.length_singleton] at hlt
        have hi : i = (since r₀ r).length := by omega
        subst hi
        simpa using hget
      rw [hflags, hi, List.length_eq_zero_iff]
      cases hst : r.slideStartedSent with
      | true => exact iff_of_false (by decide) (h.started.mp hst)
      | false =>
        refine iff_of_true (by decide) ?_
        by_contra hne
        rw [h.started.mpr hne] at hst
        exact absurd hst nofun

/-! ### What has not been sent -/

variable [Field R] [LinearOrder R] {start p : Point R}

/-- The scale a slide uses. -/
def slideScale (r : TouchRouter R) : R := if r.view.scale > 0 then r.view.scale else 1

/-- Every delta sent and what is left over make up the way of the finger, in pixels of the PC, and
what is left over is less than one of them. -/
structure Balanced (r₀ : TouchRouter R) (start p : Point R) (r : TouchRouter R) : Prop where
  sum_x : (deltas Pointer.x (since r₀ r) : R) + r.slideRemainder.x = (p.x - start.x) / r₀.slideScale
  sum_y : (deltas Pointer.y (since r₀ r) : R) + r.slideRemainder.y = (p.y - start.y) / r₀.slideScale
  below_x : |r.slideRemainder.x| < 1
  below_y : |r.slideRemainder.y| < 1

/-- The way of the finger that has not been sent. -/
def owed (r₀ : TouchRouter R) (start p : Point R) (r : TouchRouter R) : Point R :=
  ⟨(p.x - start.x) / r₀.slideScale - (deltas Pointer.x (since r₀ r) : R),
    (p.y - start.y) / r₀.slideScale - (deltas Pointer.y (since r₀ r) : R)⟩

/-- A whole pixel has accumulated. -/
def Whole (q : Point R) : Prop := 1 ≤ |q.x| ∨ 1 ≤ |q.y|

/-- A move of the finger that asks for less than the pixels a delta can hold. -/
def Fits (r₀ : TouchRouter R) (p q : Point R) : Prop :=
  |(q.x - p.x) / r₀.slideScale| ≤ ((2 ^ 31 - 1 : ℕ) : R) ∧
    |(q.y - p.y) / r₀.slideScale| ≤ ((2 ^ 31 - 1 : ℕ) : R)

/-- What holds all along a slide, with the finger at `p`. -/
structure Sliding (r₀ : TouchRouter R) (start p : Point R) (r : TouchRouter R) : Prop where
  marked : Marked r₀ r
  balanced : Balanced r₀ start p r
  last : r.slideLast = p
  scale : r.slideScale = r₀.slideScale

/-! ### Steps -/

lemma slideWanted_eq (h : Sliding r₀ start p r) (q : Point R) :
    r.slideWanted q = owed r₀ start q r := by
  have hwanted : r.slideWanted q = ⟨(q.x - p.x) / r₀.slideScale + r.slideRemainder.x,
      (q.y - p.y) / r₀.slideScale + r.slideRemainder.y⟩ := by
    rw [← h.scale, ← h.last]
    rfl
  rw [hwanted, owed, Point.mk.injEq]
  constructor
  · linear_combination h.balanced.sum_x
  · linear_combination h.balanced.sum_y

section exact

variable [FloatOps R] [IsStrictOrderedRing R] (hceil : ExactCeil R)
include hceil

/-- The pixels a move asks for are no more than a delta can hold. -/
lemma toInt_trunc {a b c : R} (hab : a = b + c) (hb : |b| ≤ ((2 ^ 31 - 1 : ℕ) : R))
    (hc : |c| < 1) : (Int32.ofInt (trunc a)).toInt = trunc a := by
  have hsum := abs_add_le b c
  rw [← hab] at hsum
  have hle := (trunc_bounds hceil a).2
  have hcast : ((2 ^ 31 - 1 : ℕ) : R) + 1 = ((2 ^ 31 : ℤ) : R) := by push_cast; ring
  have hlt : |(trunc a : R)| < ((2 ^ 31 : ℤ) : R) := by linarith
  rw [← Int.cast_abs, Int.cast_lt, abs_lt] at hlt
  exact Int32.toInt_ofInt_of_le (by omega) (by omega)

lemma whole_iff (q : Point R) : Whole q ↔ ¬ (trunc q.x = 0 ∧ trunc q.y = 0) := by
  rw [trunc_eq_zero_iff hceil, trunc_eq_zero_iff hceil, Whole, not_and_or, not_lt, not_lt]

/-- **One move.** It sends what makes whole pixels, if anything does, and keeps the rest. -/
theorem Sliding.slideMove (h : Sliding r₀ start p r) {q : Point R} (hfit : Fits r₀ p q)
    (tUs : UInt64) : Sliding r₀ start q (r.slideMove q tUs) ∧
      (Whole (owed r₀ start q r) → ∃ m : Pointer, m.action = .move ∧
        since r₀ (r.slideMove q tUs) = since r₀ r ++ [m]) ∧
      (¬ Whole (owed r₀ start q r) → since r₀ (r.slideMove q tUs) = since r₀ r) := by
  have hwanted := slideWanted_eq h q
  set w := owed r₀ start q r with hw
  let carried : TouchRouter R := { r with
    slideLast := q, slideTravel := r.slideTravel + norm (q - r.slideLast)
    slideRemainder := ⟨w.x - (trunc w.x : R), w.y - (trunc w.y : R)⟩ }
  have hmove : r.slideMove q tUs = if trunc w.x = 0 ∧ trunc w.y = 0 then carried
      else carried.emitRelative .move (Int32.ofInt (trunc w.x)) (Int32.ofInt (trunc w.y)) tUs := by
    rw [TouchRouter.slideMove]
    simp only [hwanted]
    rfl
  have hcarried : Marked r₀ carried := h.marked.congr rfl rfl
  have hsince : since r₀ carried = since r₀ r := rfl
  have hbelow : |carried.slideRemainder.x| < 1 ∧ |carried.slideRemainder.y| < 1 :=
    ⟨(trunc_bounds hceil w.x).1, (trunc_bounds hceil w.y).1⟩
  have hx : w.x = (q.x - start.x) / r₀.slideScale - (deltas Pointer.x (since r₀ r) : R) := rfl
  have hy : w.y = (q.y - start.y) / r₀.slideScale - (deltas Pointer.y (since r₀ r) : R) := rfl
  have hiff := whole_iff hceil w
  by_cases hwhole : Whole w
  · rw [hmove, if_neg (hiff.mp hwhole)]
    obtain ⟨m, haction, hmx, hmy, -, hsent⟩ := since_emitRelative hcarried.grown .move
      (Int32.ofInt (trunc w.x)) (Int32.ofInt (trunc w.y)) tUs
    have hwx : w.x = (q.x - p.x) / r₀.slideScale + r.slideRemainder.x := by
      linear_combination hx - h.balanced.sum_x
    have hwy : w.y = (q.y - p.y) / r₀.slideScale + r.slideRemainder.y := by
      linear_combination hy - h.balanced.sum_y
    rw [hsince] at hsent
    refine ⟨⟨hcarried.emitRelative _ _ _ _, ⟨?_, ?_, hbelow.1, hbelow.2⟩, rfl, h.scale⟩,
      fun _ => ⟨m, haction, hsent⟩, fun hno => absurd hwhole hno⟩
    · rw [hsent, deltas_concat, hmx, toInt_trunc hceil hwx hfit.1 h.balanced.below_x, Int.cast_add]
      change _ + (w.x - (trunc w.x : R)) = _
      linear_combination hx
    · rw [hsent, deltas_concat, hmy, toInt_trunc hceil hwy hfit.2 h.balanced.below_y, Int.cast_add]
      change _ + (w.y - (trunc w.y : R)) = _
      linear_combination hy
  · have hzero := not_not.mp (mt hiff.mpr hwhole)
    rw [hmove, if_pos hzero]
    refine ⟨⟨hcarried, ⟨?_, ?_, hbelow.1, hbelow.2⟩, rfl, h.scale⟩,
      fun hyes => absurd hyes hwhole, fun _ => hsince⟩
    · change _ + (w.x - (trunc w.x : R)) = _
      rw [hzero.1, Int.cast_zero, hsince]
      linear_combination hx
    · change _ + (w.y - (trunc w.y : R)) = _
      rw [hzero.2, Int.cast_zero, hsince]
      linear_combination hy

end exact

/-! ### Slides -/

/-- A slide as far as these moves of the finger. -/
def slid [FloatOps R] (r : TouchRouter R) (start : Point R) (tUs : UInt64)
    (moves : List (Point R × UInt64)) : TouchRouter R :=
  moves.foldl (fun r m => r.slideMove m.1 m.2) (r.slideBegin start tUs)

/-- Where the finger is after the moves. -/
def finger (p : Point R) (moves : List (Point R × UInt64)) : Point R :=
  moves.foldl (fun _ m => m.1) p

/-- Every one of the moves fits into a delta. -/
def Fitting (r₀ : TouchRouter R) : Point R → List (Point R × UInt64) → Prop
  | _, [] => True
  | p, m :: moves => Fits r₀ p m.1 ∧ Fitting r₀ m.1 moves

lemma slideBegin_sliding (r₀ : TouchRouter R) (start : Point R) (tUs : UInt64)
    [IsStrictOrderedRing R] : Sliding r₀ start start (r₀.slideBegin start tUs) := by
  have hsince : since r₀ (r₀.slideBegin start tUs) = [] := List.drop_length
  have hzero : |((0 : Point R).x)| < 1 ∧ |((0 : Point R).y)| < 1 := by
    change |(0 : R)| < 1 ∧ |(0 : R)| < 1
    simp
  refine ⟨⟨List.prefix_rfl, ?_, ?_⟩, ⟨?_, ?_, hzero.1, hzero.2⟩, rfl, rfl⟩
  · rw [hsince]
    exact iff_of_false nofun (not_not.mpr rfl)
  · rw [hsince]
    exact fun i m hm => absurd hm nofun
  · rw [hsince, sub_self, zero_div]
    exact (congrArg (· + (0 : R)) Int.cast_zero).trans (add_zero 0)
  · rw [hsince, sub_self, zero_div]
    exact (congrArg (· + (0 : R)) Int.cast_zero).trans (add_zero 0)

/-- The finger is off the surface. -/
def lifted (r : TouchRouter R) : TouchRouter R := { r with slideActive := false }

lemma slideEnd_eq [FloatOps R] (r : TouchRouter R) (q : Point R) (tUs : UInt64) :
    r.slideEnd q tUs = if (r.slideMove q tUs).isTap tUs then
        ((r.slideMove q tUs).lifted.emitRelative .down 0 0 tUs).emitRelative .up 0 0 tUs
      else (r.slideMove q tUs).lifted := by
  rw [slideEnd]
  cases (r.slideMove q tUs).isTap tUs <;> rfl

lemma Sliding.lifted (h : Sliding r₀ start p r) : Sliding r₀ start p r.lifted :=
  ⟨h.marked.congr rfl rfl, ⟨h.balanced.sum_x, h.balanced.sum_y, h.balanced.below_x,
    h.balanced.below_y⟩, h.last, h.scale⟩

/-- A message without a delta leaves the balance as it is. -/
lemma Sliding.emitRelative_zero (h : Sliding r₀ start p r) (action : PointerAction)
    (tUs : UInt64) : Sliding r₀ start p (r.emitRelative action 0 0 tUs) ∧
      ∃ m : Pointer, m.action = action ∧ m.x = 0 ∧ m.y = 0 ∧
        since r₀ (r.emitRelative action 0 0 tUs) = since r₀ r ++ [m] := by
  obtain ⟨m, haction, hx, hy, -, hsince⟩ := since_emitRelative h.marked.grown action 0 0 tUs
  refine ⟨⟨h.marked.emitRelative _ _ _ _, ⟨?_, ?_, h.balanced.below_x, h.balanced.below_y⟩,
    h.last, h.scale⟩, m, haction, hx, hy, hsince⟩
  · rw [hsince, deltas_concat, hx, Int32.toInt_zero, add_zero]
    exact h.balanced.sum_x
  · rw [hsince, deltas_concat, hy, Int32.toInt_zero, add_zero]
    exact h.balanced.sum_y

section exact

variable [FloatOps R] [IsStrictOrderedRing R] (hceil : ExactCeil R)
include hceil

/-- The whole of a slide, by induction on its moves. -/
lemma slid_sliding (r₀ : TouchRouter R) (start : Point R) (tUs : UInt64)
    (moves : List (Point R × UInt64)) (hfit : Fitting r₀ start moves) :
    Sliding r₀ start (finger start moves) (r₀.slid start tUs moves) := by
  have hrun : ∀ (ms : List (Point R × UInt64)) (p : Point R) (r : TouchRouter R),
      Sliding r₀ start p r → Fitting r₀ p ms →
      Sliding r₀ start (finger p ms) (ms.foldl (fun r m => r.slideMove m.1 m.2) r) := by
    intro ms
    induction ms with
    | nil => exact fun p r h _ => h
    | cons m ms ih =>
      intro p r h hfit
      exact ih m.1 _ (h.slideMove hceil hfit.1 m.2).1 hfit.2
  exact hrun moves start _ (slideBegin_sliding r₀ start tUs) hfit

lemma Sliding.slideEnd (h : Sliding r₀ start p r) {q : Point R} (hfit : Fits r₀ p q)
    (tUs : UInt64) : Sliding r₀ start q (r.slideEnd q tUs) ∧
      if (r.slideMove q tUs).isTap tUs then
        ∃ press release : Pointer, press.action = .down ∧ press.x = 0 ∧ press.y = 0 ∧
          release.action = .up ∧ release.x = 0 ∧ release.y = 0 ∧
          since r₀ (r.slideEnd q tUs) = since r₀ (r.slideMove q tUs) ++ [press, release]
      else since r₀ (r.slideEnd q tUs) = since r₀ (r.slideMove q tUs) := by
  have hmoved := (h.slideMove hceil hfit tUs).1
  rw [slideEnd_eq]
  split_ifs with htap
  · obtain ⟨hpressed, press, hdown, hpx, hpy, hpress⟩ := hmoved.lifted.emitRelative_zero .down tUs
    obtain ⟨hreleased, release, hup, hrx, hry, hrelease⟩ := hpressed.emitRelative_zero .up tUs
    refine ⟨hreleased, press, release, hdown, hpx, hpy, hup, hrx, hry, ?_⟩
    rw [hrelease, hpress, List.append_assoc]
    rfl
  · exact ⟨hmoved.lifted, rfl⟩

/-- **A slide loses no motion.** After every move the deltas sent and what is left over make up the
way of the finger, and less than a pixel is left over in each direction; a move sends a message
exactly when a whole pixel has accumulated; the end does what a move does, and for a tap it sends
a press and a release after it; and exactly the first message starts the gesture. -/
theorem slide_loses_no_motion (r₀ : TouchRouter R) (start : Point R) (t₀ : UInt64)
    (moves : List (Point R × UInt64)) (hfit : Fitting r₀ start moves) :
    Sliding r₀ start (finger start moves) (r₀.slid start t₀ moves) ∧
      ∀ (q : Point R) (tUs : UInt64), Fits r₀ (finger start moves) q →
        (Sliding r₀ start q ((r₀.slid start t₀ moves).slideMove q tUs) ∧
          (Whole (owed r₀ start q (r₀.slid start t₀ moves)) →
            ∃ m : Pointer, m.action = .move ∧ since r₀ ((r₀.slid start t₀ moves).slideMove q tUs) =
              since r₀ (r₀.slid start t₀ moves) ++ [m]) ∧
          (¬ Whole (owed r₀ start q (r₀.slid start t₀ moves)) →
            since r₀ ((r₀.slid start t₀ moves).slideMove q tUs) =
              since r₀ (r₀.slid start t₀ moves))) ∧
        Sliding r₀ start q ((r₀.slid start t₀ moves).slideEnd q tUs) ∧
          if ((r₀.slid start t₀ moves).slideMove q tUs).isTap tUs then
            ∃ press release : Pointer, press.action = .down ∧ press.x = 0 ∧ press.y = 0 ∧
              release.action = .up ∧ release.x = 0 ∧ release.y = 0 ∧
              since r₀ ((r₀.slid start t₀ moves).slideEnd q tUs) =
                since r₀ ((r₀.slid start t₀ moves).slideMove q tUs) ++ [press, release]
          else since r₀ ((r₀.slid start t₀ moves).slideEnd q tUs) =
            since r₀ ((r₀.slid start t₀ moves).slideMove q tUs) := by
  have h := slid_sliding hceil r₀ start t₀ moves hfit
  exact ⟨h, fun q tUs hq => ⟨h.slideMove hceil hq tUs, h.slideEnd hceil hq tUs⟩⟩

end exact

/-- A router that has just been made, over the desktop as it is. -/
abbrev fresh : TouchRouter ℚ := TouchRouter.init ViewTransform.init

/-- Half a pixel to the right and a third up, then as much again. -/
theorem slide_loses_no_motion_halves :
    Sliding fresh 0 ⟨1, -2 / 3⟩
      (fresh.slid 0 0 [(⟨1 / 2, -1 / 3⟩, 8000), (⟨1, -2 / 3⟩, 16000)]) :=
  (slide_loses_no_motion exactCeil_rat fresh 0 0 [(⟨1 / 2, -1 / 3⟩, 8000), (⟨1, -2 / 3⟩, 16000)]
    ⟨⟨by decide +kernel, by decide +kernel⟩, ⟨by decide +kernel, by decide +kernel⟩, trivial⟩).1

/-- **A tap and a leap.** A finger that is put down and lifted where it was has sent two messages
though nothing accumulated, and a move of 2³¹ pixels is more than a delta can hold. -/
theorem tap_and_leap :
    ¬ Whole (owed fresh 0 0 (fresh.slid 0 0 [])) ∧
      (since fresh ((fresh.slid 0 0 []).slideEnd 0 1000)).length = 2 ∧
      ¬ Balanced fresh 0 ⟨2 ^ 31, 0⟩ ((fresh.slid 0 0 []).slideMove ⟨2 ^ 31, 0⟩ 1000) := by
  refine ⟨?_, by decide +kernel, fun h => ?_⟩
  · rw [Whole]
    decide +kernel
  · have := h.sum_x
    revert this
    decide +kernel

end Digitiz.TouchRouter
