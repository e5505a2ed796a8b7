import Mathlib.Algebra.Order.Field.Basic
import Mathlib.Tactic.FieldSimp
import Mathlib.Tactic.Linarith
import Mathlib.Tactic.Ring
import Digitiz.ExactOps

/-!
The path the smoother draws.

A stroke from `s₀` through `s₁, …, sₖ` comes out as one segment for each pair of neighbours, and
what is drawn when is a matter of the window only: with the first sample doubled and the last one
added once more, every four samples in a row give one segment. A segment between different
samples ends on the second of them, whatever the curve does on the way; one between equal samples
is empty.
-/

namespace Digitiz

namespace SplineSmoother

variable {R : Type}

/-- The smoother with these four samples in its window. -/
def withWindow (s : SplineSmoother R) (p0 p1 p2 p3 : Point R) : SplineSmoother R :=
  { s with window := [p0, p1, p2, p3], window_le := le_rfl }

variable [Field R] [LinearOrder R] [FloatOps R]

/-- The segment between the middle two of four samples. -/
def segment (s : SplineSmoother R) (p0 p1 p2 p3 : Point R) : List (Point R) :=
  (s.withWindow p0 p1 p2 p3).emitSegment

/-- The segments of a path, its first sample doubled and its last one added once more. -/
def segments (s : SplineSmoother R) : List (Point R) → List (List (Point R))
  | p0 :: p1 :: p2 :: p3 :: r => s.segment p0 p1 p2 p3 :: segments s (p1 :: p2 :: p3 :: r)
  | _ => []

/-- One sample after the other: what is drawn, and the smoother after it. -/
def adds (s : SplineSmoother R) : List (Point R) → List (Point R) × SplineSmoother R
  | [] => ([], s)
  | p :: r =>
    let (out, s') := s.add p.x p.y
    let (rest, s'') := adds s' r
    (out ++ rest, s'')

/-- A whole stroke. -/
def stroke (s : SplineSmoother R) (p : Point R) (l : List (Point R)) :
    List (Point R) × SplineSmoother R :=
  let (out, s') := (s.begin p.x p.y).adds l
  let (rest, s'') := s'.finish
  (out ++ rest, s'')

/-! ### The window, one sample after the other -/

variable {s : SplineSmoother R}

omit [Field R] [LinearOrder R] [FloatOps R] in
lemma window_push (p : Point R) : (s.push p).window =
    if s.window.length < 4 then s.window ++ [p] else s.window.tail ++ [p] := by
  unfold push
  split_ifs <;> rfl

/-- The window after a sample. -/
lemma window_add (hon : s.enabled = true) (x y : R) : (s.add x y).2.window =
    if s.window.length = 0 then [⟨x, y⟩, ⟨x, y⟩]
    else if s.window.length < 4 then s.window ++ [⟨x, y⟩] else s.window.tail ++ [⟨x, y⟩] := by
  rw [add, if_neg (by simp [hon])]
  split_ifs with hempty hfull
  · rfl
  · exact (window_push _).trans (if_pos hfull)
  · exact (window_push _).trans (if_neg hfull)

/-- Nothing is left after the end of a stroke. -/
lemma window_finish : s.finish.2.window = [] := by
  unfold finish
  split_ifs
  · rfl
  · rfl

lemma adds_nil : s.adds [] = ([], s) := rfl

lemma adds_cons (p : Point R) (r : List (Point R)) : s.adds (p :: r) =
    ((s.add p.x p.y).1 ++ ((s.add p.x p.y).2.adds r).1, ((s.add p.x p.y).2.adds r).2) := rfl

lemma stroke_def (p : Point R) (l : List (Point R)) : s.stroke p l =
    (((s.begin p.x p.y).adds l).1 ++ ((s.begin p.x p.y).adds l).2.finish.1,
      ((s.begin p.x p.y).adds l).2.finish.2) := rfl

lemma segments_cons (p0 p1 p2 p3 : Point R) (r : List (Point R)) :
    s.segments (p0 :: p1 :: p2 :: p3 :: r) =
      s.segment p0 p1 p2 p3 :: s.segments (p1 :: p2 :: p3 :: r) := rfl

/-- One segment for each four samples in a row. -/
lemma length_segments (l : List (Point R)) : (s.segments l).length = l.length - 3 := by
  fun_induction segments s l with
  | case1 p0 p1 p2 p3 r ih =>
    rw [List.length_cons, ih]
    simp
  | case2 l h =>
    match l, h with
    | [], _ | [_], _ | [_, _], _ | [_, _, _], _ => rfl
    | p0 :: p1 :: p2 :: p3 :: r, h => exact absurd rfl (h p0 p1 p2 p3 r)

/-- The segments of a beginning of a path are the beginning of its segments. -/
lemma segments_take (l : List (Point R)) (n : ℕ) :
    s.segments (l.take (n + 3)) = (s.segments l).take n := by
  induction n generalizing l with
  | zero =>
    refine List.eq_nil_of_length_eq_zero ?_
    rw [length_segments, List.length_take]
    omega
  | succ n ih =>
    match l with
    | [] | [_] | [_, _] | [_, _, _] => rfl
    | p0 :: p1 :: p2 :: p3 :: r =>
      exact congrArg (s.segment p0 p1 p2 p3 :: ·) (ih (p1 :: p2 :: p3 :: r))

section enabled

variable (hon : s.enabled = true)
include hon

lemma add_full (a b c d p : Point R) : (s.withWindow a b c d).add p.x p.y =
    (s.segment b c d p, s.withWindow b c d p) := by
  simp [add, push, withWindow, segment, hon]

lemma finish_full (a b c d : Point R) :
    (s.withWindow a b c d).finish = (s.segment b c d d, s.reset) := by
  have hfill : (s.withWindow a b c d).fill = ([], s.withWindow a b c d) := by
    rw [fill]
    exact dif_neg (by simp [withWindow])
  have hopen : ¬(!(s.withWindow a b c d).enabled ∨ (s.withWindow a b c d).window.length = 0) := by
    simp [withWindow, hon]
  rw [finish, if_neg hopen, hfill]
  rfl

/-- Once the window is full, each sample draws a segment. -/
lemma adds_full (a b c d : Point R) (l : List (Point R)) :
    ((s.withWindow a b c d).adds l).1 = (s.segments (b :: c :: d :: l)).flatten := by
  induction l generalizing a b c d with
  | nil => rfl
  | cons p r ih =>
    rw [adds_cons, add_full hon]
    dsimp only
    rw [ih, segments_cons, List.flatten_cons]

/-- And the end of the stroke draws the last one. -/
lemma drained_full (a b c d : Point R) (l : List (Point R)) :
    ((s.withWindow a b c d).adds l).1 ++ ((s.withWindow a b c d).adds l).2.finish.1 =
        (s.segments (b :: c :: d :: l ++ [l.getLastD d])).flatten ∧
      ((s.withWindow a b c d).adds l).2.finish.2 = s.reset := by
  induction l generalizing a b c d with
  | nil =>
    rw [adds_nil, finish_full hon]
    exact ⟨by simp [segments], rfl⟩
  | cons p r ih =>
    obtain ⟨hout, hend⟩ := ih b c d p
    rw [adds_cons, add_full hon]
    dsimp only
    rw [List.append_assoc, hout, List.getLastD_cons]
    exact ⟨rfl, hend⟩

/-- The first two samples only fill the window. -/
lemma adds_begin (p : Point R) (l : List (Point R)) :
    ((s.begin p.x p.y).adds l).1 = (s.segments (p :: p :: l)).flatten := by
  match l with
  | [] => rfl
  | [a] => simp [adds, add, begin, push, segments, hon]
  | a :: b :: r =>
    have hfull := adds_full hon p p a b r
    have hopen : (s.begin p.x p.y).adds (a :: b :: r) =
        (s.segment p p a b ++ ((s.withWindow p p a b).adds r).1,
          ((s.withWindow p p a b).adds r).2) := by
      simp [adds, add, begin, push, withWindow, segment, hon]
    rw [hopen, segments_cons, List.flatten_cons, hfull]

end enabled

/-! ### One segment -/

/-- A sample: a pixel of the desktop. -/
def pixel (q : ℤ × ℤ) : Point R := ⟨q.1, q.2⟩

section exact

variable [IsStrictOrderedRing R] (hroot : ExactRoot R)
include hroot

lemma distance_self (x y : R) : distance x y x y = 0 := by
  have h := hroot.mul_self 0 le_rfl
  unfold distance
  simpa using h

/-- Different pixels are at least one apart. -/
lemma one_le_distance {a b : ℤ × ℤ} (hab : a ≠ b) :
    1 ≤ distance (pixel a : Point R).x (pixel a : Point R).y (pixel b).x (pixel b).y := by
  set q : ℤ := (b.1 - a.1) * (b.1 - a.1) + (b.2 - a.2) * (b.2 - a.2) with hq
  have hpos : 1 ≤ q := by
    rcases ne_or_eq (b.1 - a.1) 0 with h | h
    · have := mul_self_pos.mpr h
      have := mul_self_nonneg (b.2 - a.2)
      omega
    · have h2 : b.2 - a.2 ≠ 0 := fun h2 => hab (Prod.ext (by omega) (by omega))
      have := mul_self_pos.mpr h2
      have := mul_self_nonneg (b.1 - a.1)
      omega
  have hcast : distance (pixel a : Point R).x (pixel a : Point R).y (pixel b).x (pixel b).y =
      FloatOps.sqrt (q : R) := by
    rw [hq]
    push_cast
    rfl
  have hqR : (1 : R) ≤ (q : R) := by exact_mod_cast hpos
  have h0 := hroot.nonneg (q : R) (zero_le_one.trans hqR)
  have hsq := hroot.mul_self (q : R) (zero_le_one.trans hqR)
  rw [hcast]
  by_contra hlt
  have := mul_lt_mul'' (not_le.mp hlt) (not_le.mp hlt) h0 h0
  rw [hsq, one_mul] at this
  exact absurd hqR (not_le.mpr this)

/-- A finger that did not move draws nothing. -/
lemma segment_self (s : SplineSmoother R) (a b c : Point R) : s.segment a b b c = [] := by
  unfold segment withWindow emitSegment
  dsimp only
  rw [distance_self hroot]
  exact if_pos (by positivity)

omit hroot in
lemma getLast?_map_range {α : Type} (f : ℕ → α) {n : ℕ} (hn : 1 ≤ n) :
    ((List.range n).map f).getLast? = some (f (n - 1)) := by
  obtain ⟨k, rfl⟩ := Nat.exists_eq_add_of_le' hn
  rw [List.range_succ, List.map_append, List.map_singleton, List.getLast?_concat]
  rfl

omit hroot in
/-- The number of points a span is divided into. -/
lemma steps_bounds (c : ℤ) : 1 ≤ (max 1 (min c kMaxSubdivisions)).toNat ∧
    (max 1 (min c kMaxSubdivisions)).toNat ≤ 64 := by
  unfold kMaxSubdivisions
  omega

omit hroot [FloatOps R] in
/-- One step of the interpolation gives on the far knot the far value, -/
lemma mix_far {u v : R} (h : u < v) (a b : R) :
    (v - v) / (v - u) * a + (v - u) / (v - u) * b = b := by
  rw [sub_self, zero_div, zero_mul, zero_add, div_self (sub_pos.mpr h).ne', one_mul]

omit hroot [FloatOps R] in
/-- on the near knot the near value, -/
lemma mix_near {u v : R} (h : u < v) (a b : R) :
    (v - u) / (v - u) * a + (u - u) / (v - u) * b = a := by
  rw [sub_self, zero_div, zero_mul, add_zero, div_self (sub_pos.mpr h).ne', one_mul]

omit hroot [FloatOps R] in
/-- and of two equal values that value. -/
lemma mix_same {u v : R} (h : u < v) (t a : R) :
    (v - t) / (v - u) * a + (t - u) / (v - u) * a = a := by
  rw [← add_mul, ← add_div, sub_add_sub_cancel, div_self (sub_pos.mpr h).ne', one_mul]

omit hroot in
/-- A segment between samples that are apart ends on the second. -/
lemma segment_apart (s : SplineSmoother R) (p0 p1 p2 p3 : Point R)
    (hapart : 1 / 1000000000 < distance p1.x p1.y p2.x p2.y) :
    (1 ≤ (s.segment p0 p1 p2 p3).length ∧ (s.segment p0 p1 p2 p3).length ≤ 64) ∧
      (s.segment p0 p1 p2 p3).getLast? = some p2 := by
  unfold segment withWindow emitSegment
  dsimp only
  rw [if_neg (not_le.mpr hapart)]
  set span := distance p1.x p1.y p2.x p2.y
  obtain ⟨hpos, hle⟩ := steps_bounds (FloatOps.ceil (span / s.stepPx))
  set n := (max 1 (min (FloatOps.ceil (span / s.stepPx)) kMaxSubdivisions)).toNat
  have hratio : ((n - 1 + 1 : ℕ) : R) / (n : R) = 1 := by
    rw [Nat.sub_add_cancel hpos, div_self (Nat.cast_ne_zero.mpr (by omega))]
  split_ifs with hline
  · rw [List.length_map, List.length_range, getLast?_map_range _ hpos, hratio]
    exact ⟨⟨hpos, hle⟩, by simp⟩
  · rw [List.length_map, List.length_range, getLast?_map_range _ hpos, hratio]
    refine ⟨⟨hpos, hle⟩, congrArg some ?_⟩
    set t1 := 0 + FloatOps.pow (distance p0.x p0.y p1.x p1.y) s.alpha
    set t2 := t1 + FloatOps.pow span s.alpha
    set t3 := t2 + FloatOps.pow (distance p2.x p2.y p3.x p3.y) s.alpha
    -- the last point is at the third knot, and the knots are apart
    have htiny : (0 : R) < 1 / 1000000000 := by positivity
    obtain ⟨-, h12, h23⟩ : ¬t1 - 0 ≤ 1 / 1000000000 ∧ ¬t2 - t1 ≤ 1 / 1000000000 ∧
        ¬t3 - t2 ≤ 1 / 1000000000 := by simpa only [not_or] using hline
    have h12 : t1 < t2 := by linarith [not_le.mp h12]
    have h23 : t2 < t3 := by linarith [not_le.mp h23]
    have hend : t1 + (t2 - t1) * 1 = t2 := by ring
    simp only [hend, mix_far h12, mix_near h23, mix_same (h12.trans h23)]

/-- What a segment between two pixels comes to. -/
structure Reaches (seg : List (Point R)) (a b : ℤ × ℤ) : Prop where
  empty : a = b → seg = []
  ends : a ≠ b → (1 ≤ seg.length ∧ seg.length ≤ 64) ∧ seg.getLast? = some (pixel b)

lemma reaches_segment (s : SplineSmoother R) (p0 p3 : Point R) (a b : ℤ × ℤ) :
    Reaches (s.segment p0 (pixel a) (pixel b) p3) a b := by
  refine ⟨fun hab => hab ▸ segment_self hroot s _ _ _, fun hab => segment_apart s _ _ _ _ ?_⟩
  calc (1 : R) / 1000000000 < 1 := by norm_num
    _ ≤ _ := one_le_distance hroot hab

/-- The segments of a path of pixels join its samples, one after the other. -/
lemma reaches_segments (s : SplineSmoother R) (p : Point R) (a : ℤ × ℤ) (l : List (ℤ × ℤ))
    (last : Point R) :
    List.Forall₂ (fun seg (q : (ℤ × ℤ) × ℤ × ℤ) => Reaches seg q.1 q.2)
      (s.segments (p :: pixel a :: l.map pixel ++ [last])) ((a :: l).zip l) := by
  induction l generalizing p a with
  | nil => exact .nil
  | cons b r ih =>
    cases r with
    | nil => exact .cons (reaches_segment hroot s _ _ _ _) .nil
    | cons c r => exact .cons (reaches_segment hroot s _ _ _ _) (ih (pixel a) b)

omit [LinearOrder R] [FloatOps R] [IsStrictOrderedRing R] hroot in
/-- Segments that join samples draw nothing if those are all one, and otherwise end on the last. -/
lemma getLast?_segments {segs : List (List (Point R))} {a : ℤ × ℤ} {l : List (ℤ × ℤ)}
    (h : List.Forall₂ (fun seg (q : (ℤ × ℤ) × ℤ × ℤ) => Reaches seg q.1 q.2) segs
      ((a :: l).zip l)) :
    ((∀ b ∈ l, b = a) ∧ segs.flatten = []) ∨
      segs.flatten.getLast? = some (pixel (l.getLastD a)) := by
  induction l generalizing a segs with
  | nil =>
    cases h
    exact .inl ⟨fun b hb => absurd hb List.not_mem_nil, rfl⟩
  | cons b r ih =>
    obtain ⟨seg, rest, hseg, hrest, rfl⟩ := List.forall₂_cons_right_iff.mp h
    rw [List.flatten_cons, List.getLast?_append, List.getLastD_cons]
    rcases ih hrest with ⟨hall, hnone⟩ | hlast
    · have hend : r.getLastD b = b := by
        cases hr : r.getLast? with
        | none => simp [List.getLastD_eq_getLast?, hr]
        | some c => simpa [List.getLastD_eq_getLast?, hr] using hall c (List.mem_of_getLast? hr)
      rw [hnone, hend]
      by_cases hab : a = b
      · refine .inl ⟨fun c hc => ?_, by rw [hseg.empty hab]; rfl⟩
        rcases List.mem_cons.mp hc with rfl | hc
        · exact hab.symm
        · exact (hall c hc).trans hab.symm
      · exact .inr (by simpa using (hseg.ends hab).2)
    · exact .inr (by rw [hlast]; rfl)

/-- A whole stroke draws the segments of its path, and then the smoother is idle. -/
lemma stroke_eq {s : SplineSmoother R} (hon : s.enabled = true) (p : Point R)
    (l : List (Point R)) :
    (s.stroke p l).1 = (s.segments (p :: p :: l ++ [l.getLastD p])).flatten ∧
      (s.stroke p l).2.window = [] := by
  match l with
  | [] =>
    have hend : (s.begin p.x p.y).finish = (s.segment p p p p ++ s.segment p p p p, s.reset) := by
      simp [finish, fill, begin, push, withWindow, segment, reset, hon]
    rw [stroke_def, adds_nil, hend, segment_self hroot]
    exact ⟨rfl, rfl⟩
  | [a] =>
    have hend : ((s.begin p.x p.y).add a.x a.y).2.finish =
        (s.segment p p a a ++ s.segment p a a a, s.reset) := by
      simp [add, finish, fill, begin, push, withWindow, segment, reset, hon]
    have hadd : ((s.begin p.x p.y).add a.x a.y).1 = [] := by
      simp [add, begin, push, hon]
    rw [stroke_def, adds_cons, adds_nil, hend, hadd, segment_self hroot]
    exact ⟨by simp [segments], rfl⟩
  | a :: b :: r =>
    have hopen : (s.begin p.x p.y).adds (a :: b :: r) =
        (s.segment p p a b ++ ((s.withWindow p p a b).adds r).1,
          ((s.withWindow p p a b).adds r).2) := by
      simp [adds, add, begin, push, withWindow, segment, hon]
    obtain ⟨hout, hend⟩ := drained_full hon p p a b r
    rw [stroke_def, hopen]
    dsimp only
    rw [List.append_assoc, hout, hend, List.getLastD_cons, List.getLastD_cons]
    exact ⟨rfl, rfl⟩

end exact

/-! ### Divisions -/

/-- A division that is not made by zero. -/
def divided (a b : R) : Option R := if b = 0 then none else some (a / b)

/-- `emitSegment` with its divisions looked at; nothing if one is by zero. -/
def emitSegmentChecked (s : SplineSmoother R) : Option (List (Point R)) :=
  match s.window with
  | [p0, p1, p2, p3] =>
    let tiny : R := 1 / (1000000000 : ℕ)
    let span := distance p1.x p1.y p2.x p2.y
    if span ≤ tiny then some []
    else do
      let t0 : R := 0
      let t1 := t0 + FloatOps.pow (distance p0.x p0.y p1.x p1.y) s.alpha
      let t2 := t1 + FloatOps.pow span s.alpha
      let t3 := t2 + FloatOps.pow (distance p2.x p2.y p3.x p3.y) s.alpha
      let chord ← divided span s.stepPx
      let steps := (max 1 (min (FloatOps.ceil chord) kMaxSubdivisions)).toNat
      if t1 - t0 ≤ tiny ∨ t2 - t1 ≤ tiny ∨ t3 - t2 ≤ tiny then
        (List.range steps).mapM fun i => do
          let ratio ← divided ((i + 1 : ℕ) : R) (steps : R)
          return ⟨p1.x + (p2.x - p1.x) * ratio, p1.y + (p2.y - p1.y) * ratio⟩
      else
        (List.range steps).mapM fun i => do
          let ratio ← divided ((i + 1 : ℕ) : R) (steps : R)
          let t := t1 + (t2 - t1) * ratio
          let mix (u v a b : R) : Option R := do
            let wa ← divided (v - t) (v - u)
            let wb ← divided (t - u) (v - u)
            return wa * a + wb * b
          let axis (f : Point R → R) : Option R := do
            let a1 ← mix t0 t1 (f p0) (f p1)
            let a2 ← mix t1 t2 (f p1) (f p2)
            let a3 ← mix t2 t3 (f p2) (f p3)
            let b1 ← mix t0 t2 a1 a2
            let b2 ← mix t1 t3 a2 a3
            mix t1 t2 b1 b2
          let x ← axis Point.x
          let y ← axis Point.y
          return ⟨x, y⟩
  | _ => some []

omit [FloatOps R] in
lemma divided_of_ne {a b : R} (h : b ≠ 0) : divided a b = some (a / b) := if_neg h

lemma mapM_eq_map {α β : Type} {f : α → Option β} {g : α → β} (l : List α)
    (h : ∀ a ∈ l, f a = some (g a)) : l.mapM f = some (l.map g) := by
  induction l with
  | nil => rfl
  | cons a l ih =>
    rw [List.mapM_cons, h a List.mem_cons_self, ih fun b hb => h b (List.mem_cons_of_mem _ hb)]
    rfl

/-- No division of a segment is by zero. -/
lemma emitSegmentChecked_eq [IsStrictOrderedRing R] {s : SplineSmoother R} (hpx : 0 < s.stepPx) :
    s.emitSegmentChecked = some s.emitSegment := by
  obtain ⟨on, px, alpha, w, hw⟩ := s
  match w, hw with
  | [], _ | [_], _ | [_, _], _ | [_, _, _], _ => rfl
  | [p0, p1, p2, p3], hw =>
    unfold emitSegmentChecked emitSegment
    dsimp only at hpx ⊢
    rw [Nat.cast_ofNat, divided_of_ne hpx.ne', Option.bind_eq_bind, Option.bind_some]
    set span := distance p1.x p1.y p2.x p2.y
    set n := (max 1 (min (FloatOps.ceil (span / px)) kMaxSubdivisions)).toNat
    have hn : (n : R) ≠ 0 := by
      have := (steps_bounds (FloatOps.ceil (span / px))).1
      exact Nat.cast_ne_zero.mpr (by omega)
    set t1 := 0 + FloatOps.pow (distance p0.x p0.y p1.x p1.y) alpha
    set t2 := t1 + FloatOps.pow span alpha
    set t3 := t2 + FloatOps.pow (distance p2.x p2.y p3.x p3.y) alpha
    split_ifs with hstill hline
    · rfl
    · refine mapM_eq_map _ fun i _ => ?_
      rw [divided_of_ne hn]
      rfl
    · refine mapM_eq_map _ fun i _ => ?_
      -- the knots are apart, so any two of them are
      have htiny : (0 : R) < 1 / 1000000000 := by positivity
      obtain ⟨h01, h12, h23⟩ : ¬t1 - 0 ≤ 1 / 1000000000 ∧ ¬t2 - t1 ≤ 1 / 1000000000 ∧
          ¬t3 - t2 ≤ 1 / 1000000000 := by simpa only [not_or] using hline
      have h01 : 0 < t1 - 0 := by linarith [not_le.mp h01]
      have h12 : 0 < t2 - t1 := by linarith [not_le.mp h12]
      have h23 : 0 < t3 - t2 := by linarith [not_le.mp h23]
      have h02 : 0 < t2 - 0 := by linarith
      have h13 : 0 < t3 - t1 := by linarith
      simp only [divided_of_ne hn, divided_of_ne h01.ne', divided_of_ne h12.ne',
        divided_of_ne h23.ne', divided_of_ne h02.ne', divided_of_ne h13.ne',
        Option.bind_eq_bind, Option.bind_some]
      rfl

/-! ### A whole stroke -/

/-- **The smoothed path visits every sample.** Between two neighbours there is one segment, empty
if they are one pixel and otherwise of one to sixty-four points and ending on the second. A
segment is drawn as soon as the sample after it is there, the last one at the end of the stroke. -/
theorem stroke_visits [IsStrictOrderedRing R] (hroot : ExactRoot R) {s : SplineSmoother R}
    (hon : s.enabled = true) (hpx : 0 < s.stepPx) (s0 : ℤ × ℤ) (l : List (ℤ × ℤ)) :
    let begun := s.begin (s0.1 : R) (s0.2 : R)
    let path := s.stroke (pixel s0) (l.map pixel)
    (∃ segs : List (List (Point R)), path.1 = segs.flatten ∧
      List.Forall₂ (fun seg (q : (ℤ × ℤ) × ℤ × ℤ) => Reaches seg q.1 q.2) segs ((s0 :: l).zip l) ∧
      ∀ j ≤ l.length, (begun.adds ((l.take j).map pixel)).1 = (segs.take (j - 1)).flatten) ∧
    (∀ j a b, (s0 :: l)[j]? = some a → (s0 :: l)[j + 1]? = some b → a ≠ b → j + 2 ≤ l.length →
      (begun.adds ((l.take (j + 2)).map pixel)).1.getLast? = some (pixel b)) ∧
    ((∃ q ∈ (s0 :: l).zip l, q.1 ≠ q.2) →
      path.1.getLast? = some (pixel (l.getLastD s0))) ∧
    path.2.window = [] ∧
    ∀ t : SplineSmoother R, t.stepPx = s.stepPx → t.emitSegmentChecked = some t.emitSegment := by
  intro begun path
  obtain ⟨hpath, hidle⟩ := stroke_eq hroot hon (pixel s0) (l.map pixel)
  have hjoin := reaches_segments hroot s (pixel s0) s0 l ((l.map pixel).getLastD (pixel s0))
  have hdrawn := adds_begin hon (pixel s0)
  refine ⟨⟨_, hpath, hjoin, fun j hj => ?_⟩, fun j a b ha hb hab hj => ?_, fun hdiff => ?_, hidle,
    fun t ht => emitSegmentChecked_eq (ht ▸ hpx)⟩
  · -- what is drawn by then is the segments of the samples that are there
    refine (hdrawn _).trans ?_
    cases j with
    | zero => rfl
    | succ j =>
      rw [← segments_take, List.map_take, Nat.add_sub_cancel, List.cons_append, List.cons_append]
      simp only [List.take_succ_cons]
      rw [List.take_append_of_le_length (by rwa [List.length_map])]
  · have hsucc : l.take (j + 2) = l.take (j + 1) ++ [l[j + 1]] :=
      (List.take_append_getElem (by omega)).symm
    have hb' : l[j]? = some b := by simpa using hb
    have hjoin' := reaches_segments hroot s (pixel s0) s0 (l.take (j + 1)) (pixel l[j + 1])
    refine (congrArg List.getLast? (hdrawn _)).trans ?_
    rw [hsucc, List.map_append]
    rcases getLast?_segments hjoin' with ⟨hall, -⟩ | hend
    · -- the two samples are not both the first one
      have hmem : ∀ {i c}, i < j + 1 → l[i]? = some c → c = s0 := fun hi hc =>
        hall _ (List.mem_of_getElem? ((List.getElem?_take_of_lt hi).trans hc))
      have hb0 : b = s0 := hmem (by omega) hb'
      have ha0 : a = s0 := by
        cases j with
        | zero => simpa using ha.symm
        | succ j =>
          exact hmem (i := j) (by omega) (by simpa using ha)
      exact absurd (ha0.trans hb0.symm) hab
    · have hlast : (l.take (j + 1)).getLastD s0 = b := by
        rw [List.getLastD_eq_getLast?, List.getLast?_take, if_neg (by omega)]
        simp [hb']
      rw [← hlast]
      exact hend
  · rcases getLast?_segments hjoin with ⟨hall, -⟩ | hend
    · obtain ⟨q, hq, hne⟩ := hdiff
      obtain ⟨h1, h2⟩ := List.of_mem_zip (a := q.1) (b := q.2) hq
      refine absurd ?_ hne
      rw [hall _ h2]
      rcases List.mem_cons.mp h1 with h | h
      · exact h
      · exact hall _ h
    · exact (congrArg List.getLast? hpath).trans hend

/-- A finger that rests and then turns a corner, over the real numbers. -/
theorem stroke_visits_corner :
    let s : SplineSmoother ℝ := SplineSmoother.init.setEnabled true
    let path := s.stroke (pixel (0, 0)) ([(0, 0), (30, 40), (30, 0)].map pixel)
    path.1.getLast? = some (pixel (30, 0)) ∧ path.2.window = [] := by
  intro s path
  have hpx : (0 : ℝ) < s.stepPx := show (0 : ℝ) < 3 by norm_num
  have h := stroke_visits exactRoot_real (s := s) rfl hpx (0, 0) [(0, 0), (30, 40), (30, 0)]
  refine ⟨h.2.2.1 ⟨((0, 0), (30, 40)), by simp, ?_⟩, h.2.2.2.1⟩
  exact fun he => absurd (congrArg Prod.fst he) (by norm_num)

end SplineSmoother

end Digitiz
