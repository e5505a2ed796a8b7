import Digitiz.PointerTrack
import Digitiz.Runs
import Digitiz.SplinePath

/-!
Whether the cursor stays on the screens.

Every absolute sample is tested when it arrives, and a relative one only moves the tracked position
where it lands. But the points the smoother makes of the samples are injected as they come: where
the screens are not convex, the curve between two samples may leave them, and the point a stroke is
lifted at is drawn to before it is let go. Those two are the only ways off the screens.
-/

namespace Digitiz

variable {R σ : Type} (test : ℤ → ℤ → Bool)

/-- The call takes the pointer to no point that is not on a screen. A release takes it nowhere. -/
def Call.OnScreen : Call → Prop
  | .moveTo x y => test x y = true
  | .button _ down x y => down = true → test x y = true
  | _ => True

section points

variable [FloatOps R]

/-- All the points are rounded to points on a screen. -/
def Lands (qs : List (Point R)) : Prop :=
  ∀ q ∈ qs, test (FloatOps.lround q.x) (FloatOps.lround q.y) = true

lemma lands_append {qs qs' : List (Point R)} :
    Lands test (qs ++ qs') ↔ Lands test qs ∧ Lands test qs' := List.forall_mem_append

end points

namespace SplineSmoother

variable [Field R] [LinearOrder R] [FloatOps R]

/-- The points the smoother puts between the last samples and these, the samples themselves left
out. -/
def between (s : SplineSmoother R) (next : List (Point R)) : List (Point R) :=
  (s.segments (s.window.drop (s.window.length - 3) ++ next)).flatMap List.dropLast

/-! ### What a sample draws -/

variable {s : SplineSmoother R} (hon : s.enabled = true)
include hon

/-- The first sample is drawn as it is. -/
lemma add_empty (hw : s.window = []) (q : Point R) :
    (s.add q.x q.y).1 = [q] ∧ (s.add q.x q.y).2 = s.begin q.x q.y := by
  simp [add, hon, hw]

/-- A later one draws what has become a segment. -/
lemma add_points (hw : s.window ≠ []) (q : Point R) : (s.add q.x q.y).1 =
    (s.segments (s.window.drop (s.window.length - 3) ++ [q])).flatten := by
  obtain ⟨on, px, alpha, w, hle⟩ := s
  match w, hle with
  | [], _ => exact absurd rfl hw
  | [_], _ | [_, _], _ | [_, _, _], _ | [_, _, _, _], _ =>
    simp_all [add, push, segments, segment, withWindow]

/-- And the end of the stroke draws the rest. -/
lemma drain_points [IsStrictOrderedRing R] (hroot : ExactRoot R) (hw : s.window ≠ [])
    (q : Point R) : (s.add q.x q.y).1 ++ (s.add q.x q.y).2.finish.1 =
      (s.segments (s.window.drop (s.window.length - 3) ++ [q, q])).flatten := by
  have hself (on : Bool) (px alpha : R) (a b c : Point R) (h : [a, b, b, c].length ≤ 4) :
      (⟨on, px, alpha, [a, b, b, c], h⟩ : SplineSmoother R).emitSegment = [] :=
    segment_self hroot ⟨on, px, alpha, [], Nat.zero_le _⟩ a b c
  obtain ⟨on, px, alpha, w, hle⟩ := s
  match w, hle with
  | [], _ => exact absurd rfl hw
  | [_], _ | [_, _], _ | [_, _, _], _ | [_, _, _, _], _ =>
    simp_all [add, push, finish, fill, segments, segment, withWindow]

end SplineSmoother

/-! ### Points between samples -/

section joined

open SplineSmoother

variable {test} [Field R] [FloatOps R] {segs : List (List (Point R))} {a : ℤ × ℤ}
  {l : List (ℤ × ℤ)}

/-- A point that is a pixel is where the pixel is. -/
lemma lands_pixel (hround : ExactRound R) (c : ℤ × ℤ) :
    Lands test [(pixel c : Point R)] ↔ test c.1 c.2 = true := by
  simp [Lands, pixel, hround c.1, hround c.2]

omit [Field R] in
lemma Lands.interior (h : Lands test segs.flatten) : Lands test (segs.flatMap List.dropLast) := by
  intro q hq
  obtain ⟨seg, hseg, hq⟩ := List.mem_flatMap.mp hq
  exact h q (List.mem_flatten.mpr ⟨seg, hseg, List.mem_of_mem_dropLast hq⟩)

/-- Between samples that are on a screen, only the points in between have to be looked at. -/
lemma lands_flatten_iff (hround : ExactRound R)
    (h : List.Forall₂ (fun seg (q : (ℤ × ℤ) × ℤ × ℤ) => Reaches seg q.1 q.2) segs
      ((a :: l).zip l)) (hl : ∀ b ∈ l, test b.1 b.2 = true) :
    Lands test segs.flatten ↔ Lands test (segs.flatMap List.dropLast) := by
  induction l generalizing a segs with
  | nil =>
    cases h
    exact Iff.rfl
  | cons b r ih =>
    obtain ⟨seg, rest, hseg, hrest, rfl⟩ := List.forall₂_cons_right_iff.mp h
    rw [List.flatten_cons, List.flatMap_cons, lands_append, lands_append,
      ih hrest fun c hc => hl c (List.mem_cons_of_mem _ hc)]
    refine and_congr_left fun _ => ?_
    by_cases hab : a = b
    · rw [hseg.empty hab]
      rfl
    · have hend := List.dropLast_append_getLast? (pixel b) (hseg.ends hab).2
      conv_lhs => rw [← hend]
      rw [lands_append, lands_pixel hround]
      exact and_iff_left (hl b List.mem_cons_self)

/-- Where the last of them need not be, it has to be looked at as well. -/
lemma lands_flatten_concat_iff (hround : ExactRound R) {c : ℤ × ℤ}
    (h : List.Forall₂ (fun seg (q : (ℤ × ℤ) × ℤ × ℤ) => Reaches seg q.1 q.2) segs
      ((a :: (l ++ [c])).zip (l ++ [c]))) (ha : test a.1 a.2 = true)
    (hl : ∀ b ∈ l, test b.1 b.2 = true) :
    Lands test segs.flatten ↔ test c.1 c.2 = true ∧ Lands test (segs.flatMap List.dropLast) := by
  constructor
  · intro hall
    refine ⟨?_, hall.interior⟩
    rcases getLast?_segments h with ⟨hsame, -⟩ | hlast
    · rw [hsame c (by simp)]
      exact ha
    · refine (lands_pixel hround c).mp fun q hq => hall q ?_
      rw [List.mem_singleton.mp hq]
      refine List.mem_of_getLast? (hlast.trans (congrArg some ?_))
      rw [List.getLastD_concat]
  · rintro ⟨hc, hin⟩
    refine (lands_flatten_iff hround h fun b hb => ?_).mpr hin
    rcases List.mem_append.mp hb with hb | hb
    · exact hl b hb
    · rw [List.mem_singleton.mp hb]
      exact hc

end joined

namespace PointerPipeline

open SplineSmoother (pixel)

/-- No call so far took the pointer off the screens. -/
def OnScreens (p : PointerPipeline R σ) : Prop := ∀ c ∈ p.calls, c.OnScreen test

variable {test}

/-! ### What is asked of the injector -/

section calls

variable (I : IInputInjector σ) {p q : PointerPipeline R σ} {x y : ℤ}

lemma onScreens_congr (h : q.stroke = p.stroke) : q.OnScreens test ↔ p.OnScreens test := by
  rw [OnScreens, OnScreens, ← stroke_calls, h, stroke_calls]

lemma onScreens_of_calls {c : Call} (h : q.calls = p.calls ++ [c]) :
    q.OnScreens test ↔ p.OnScreens test ∧ c.OnScreen test := by
  rw [OnScreens, h, List.forall_mem_append, List.forall_mem_singleton]
  rfl

lemma onScreens_injectMove :
    (p.injectMove I x y).OnScreens test ↔ p.OnScreens test ∧ test x y = true :=
  onScreens_of_calls (congrArg Stroke.calls (injectMove_stroke I p x y))

lemma onScreens_injectButton {b : MouseButton} {down : Bool} :
    (p.injectButton I b down x y).OnScreens test ↔
      p.OnScreens test ∧ (down = true → test x y = true) :=
  onScreens_of_calls (congrArg Stroke.calls (injectButton_stroke I p b down x y))

/-- A release is a release wherever it is. -/
lemma onScreens_closeStroke : (p.closeStroke I x y).OnScreens test ↔ p.OnScreens test :=
  (onScreens_injectButton I).trans (and_iff_left fun h => absurd h Bool.false_ne_true)

lemma onScreens_openStroke {b : MouseButton} :
    (p.openStroke I b x y).OnScreens test ↔ p.OnScreens test ∧ test x y = true := by
  unfold openStroke
  refine (onScreens_injectButton I).trans (and_congr ?_ ⟨fun h => h rfl, fun h _ => h⟩)
  split
  · exact (onScreens_injectButton I).trans (and_iff_left fun h => absurd h Bool.false_ne_true)
  · exact Iff.rfl

lemma onScreens_emitAll [FloatOps R] {qs : List (Point R)} :
    (p.emitAll I qs).OnScreens test ↔ p.OnScreens test ∧ Lands test qs := by
  rw [OnScreens, ← stroke_calls, emitAll_stroke, Stroke.run_moves]
  simp only [stroke_calls, List.forall_mem_append, List.map_map, List.forall_mem_map]
  rfl

lemma onScreens_releaseStroke : (p.releaseStroke I).OnScreens test ↔ p.OnScreens test := by
  unfold releaseStroke
  dsimp only
  split_ifs
  · exact Iff.rfl
  · exact onScreens_closeStroke I

lemma onScreens_setEnabled {on : Bool} :
    (p.setEnabled I on).OnScreens test ↔ p.OnScreens test := by
  unfold setEnabled
  split_ifs
  · exact Iff.rfl
  · exact onScreens_releaseStroke I
  · exact Iff.rfl

lemma onScreens_handleKey {k : Key} : (p.handleKey I k).OnScreens test ↔ p.OnScreens test := by
  unfold handleKey
  dsimp only
  split_ifs
  · exact Iff.rfl
  · exact (onScreens_of_calls (p := p) (c := .key k) rfl).trans (and_iff_left trivial)
  · exact (onScreens_of_calls (p := p) (c := .key k) rfl).trans (and_iff_left trivial)

lemma onScreens_endSession : (p.endSession I).OnScreens test ↔ p.OnScreens test := by
  refine (onScreens_of_calls (p := { p with relSeeded := false }.releaseStroke I) rfl).trans ?_
  exact (and_iff_left trivial).trans (onScreens_releaseStroke I)

lemma onScreens_relativeAt {p : PointerPipeline R σ} {m : Pointer} {x y : ℤ}
    (h : test x y = true) : (p.relativeAt I m x y).OnScreens test ↔ p.OnScreens test := by
  unfold relativeAt
  split_ifs
  · exact (onScreens_openStroke I).trans (and_iff_left h)
  · exact (onScreens_injectMove I).trans (and_iff_left h)
  · exact onScreens_closeStroke I
  · exact Iff.rfl
  · exact Iff.rfl

end calls

/-! ### What one message does -/

variable [Field R] [LinearOrder R] [FloatOps R] (I : IInputInjector σ)

variable (test) in
/-- All the points an absolute message takes the pointer to are on a screen. -/
def StaysAt (p : PointerPipeline R σ) (m : Pointer) (x y : ℤ) : Prop :=
  if m.action = .down then test x y = true
  else if m.action = .move ∨ m.action = .hover then
    if p.smoother.enabled then Lands test (p.smoother.add (x : R) (y : R)).1
    else test x y = true
  else if m.action = .up then
    if !p.down then True
    else if p.smoother.enabled then
      Lands test ((p.smoother.add (x : R) (y : R)).1 ++
        (p.smoother.add (x : R) (y : R)).2.finish.1)
    else True
  else True

/-- The end of a stroke draws the rest of its curve, and then only lets go. -/
lemma onScreens_drainClose {p : PointerPipeline R σ} {x y : ℤ} :
    ((p.drainCurve I x y).closeStroke I x y).OnScreens test ↔ p.OnScreens test ∧
      if p.smoother.enabled then Lands test ((p.smoother.add (x : R) (y : R)).1 ++
        (p.smoother.add (x : R) (y : R)).2.finish.1) else True := by
  refine (onScreens_closeStroke I).trans ?_
  unfold drainCurve
  split_ifs
  · exact onScreens_emitAll I
  · exact (and_iff_left trivial).symm

lemma onScreens_handleAt {p : PointerPipeline R σ} {m : Pointer} {x y : ℤ} :
    (p.handleAt I m x y).OnScreens test ↔ p.OnScreens test ∧ p.StaysAt test m x y := by
  unfold handleAt StaysAt
  generalize hq : { p with lastX := x, lastY := y } = q
  have hcalls : q.OnScreens test ↔ p.OnScreens test := by rw [← hq]; exact Iff.rfl
  have hs : p.smoother = q.smoother := by rw [← hq]
  have hd : p.down = q.down := by rw [← hq]
  rw [hs, hd, ← hcalls]
  dsimp only
  by_cases hdown : m.action = .down
  · rw [if_pos hdown, if_pos hdown]
    exact onScreens_openStroke I
  rw [if_neg hdown, if_neg hdown]
  by_cases hmove : m.action = .move ∨ m.action = .hover
  · rw [if_pos hmove, if_pos hmove]
    split_ifs
    · exact onScreens_emitAll I
    · exact onScreens_injectMove I
  rw [if_neg hmove, if_neg hmove]
  by_cases hup : m.action = .up
  · rw [if_pos hup, if_pos hup]
    by_cases hopen : (!q.down) = true
    · rw [if_pos hopen, if_pos hopen]
      exact (and_iff_left trivial).symm
    · rw [if_neg hopen, if_neg hopen]
      by_cases hheld : m.button ≠ q.held
      · rw [if_pos hheld]
        exact onScreens_drainClose I (p := q.count _)
      · rw [if_neg hheld]
        exact onScreens_drainClose I
  rw [if_neg hup, if_neg hup]
  refine Iff.trans ?_ (and_iff_left trivial).symm
  split_ifs
  · exact onScreens_closeStroke I
  · exact Iff.rfl
  · exact Iff.rfl

/-! ### What is kept -/

variable (test) in
/-- The window holds pixels on a screen. -/
def WindowOn (s : SplineSmoother R) : Prop :=
  ∃ ws : List (ℤ × ℤ), s.window = ws.map pixel ∧ ws.length ≠ 1 ∧ ∀ c ∈ ws, test c.1 c.2 = true

variable (test) in
/-- So is the tracked position. -/
structure Aimed (t : Track R) : Prop where
  window : WindowOn test t.smoother
  tracked : t.relSeeded = true → test (FloatOps.lround t.relX) (FloatOps.lround t.relY) = true

section window

variable {s : SplineSmoother R} {x y : ℤ}

omit [LinearOrder R] [FloatOps R] in
lemma windowOn_begin (h : test x y = true) : WindowOn test (s.begin (x : R) (y : R)) :=
  ⟨[(x, y), (x, y)], rfl, by simp, by simpa using h⟩

omit [LinearOrder R] [FloatOps R] in
lemma windowOn_empty (hs : s.window = []) : WindowOn test s :=
  ⟨[], hs, by simp, fun c hc => absurd hc List.not_mem_nil⟩

lemma windowOn_add (hon : s.enabled = true) (h : test x y = true) (hs : WindowOn test s) :
    WindowOn test (s.add (x : R) (y : R)).2 := by
  obtain ⟨ws, hw, hlen, hall⟩ := hs
  have hadd : ∀ v : List (ℤ × ℤ), (∀ c ∈ v, c ∈ ws) →
      ∀ c ∈ v ++ [(x, y)], test c.1 c.2 = true := by
    intro v hv c hc
    rcases List.mem_append.mp hc with hc | hc
    · exact hall c (hv c hc)
    · rw [List.mem_singleton.mp hc]
      exact h
  rw [WindowOn, SplineSmoother.window_add hon, hw, List.length_map]
  split_ifs with hempty hfull
  · exact windowOn_begin (s := s) h
  · refine ⟨ws ++ [(x, y)], by simp [pixel], ?_, hadd ws fun c hc => hc⟩
    rw [List.length_append, List.length_singleton]
    omega
  · refine ⟨ws.tail ++ [(x, y)], by simp [pixel], ?_, hadd _ fun c => List.mem_of_mem_tail⟩
    rw [List.length_append, List.length_singleton, List.length_tail]
    omega

end window

omit [LinearOrder R] in
lemma aimed_empty {t : Track R} (h : Aimed test t) (s : SplineSmoother R) (hs : s.window = []) :
    Aimed test { t with smoother := s } := ⟨windowOn_empty hs, h.tracked⟩

/-! ### Relative messages -/

variable (test) in
/-- The screens are known, and the cursor is found on one. -/
def seen (window : Option Recti) : Surroundings := ⟨some test, window⟩

omit [LinearOrder R] in
/-- A tracked position stays on the screens. -/
lemma advanceRelative_lands {p : PointerPipeline R σ} {window : Option Recti} {dx dy : R}
    (h : test (FloatOps.lround p.relX) (FloatOps.lround p.relY) = true) :
    test (FloatOps.lround (advanceRelative (seen test window) p dx dy).relX)
      (FloatOps.lround (advanceRelative (seen test window) p dx dy).relY) = true := by
  unfold advanceRelative seen
  dsimp only
  split_ifs with hboth hx hy
  · exact hboth
  · exact hx
  · exact hy
  · exact h

omit [LinearOrder R] in
lemma trackRelative_lands (hround : ExactRound R) {p : PointerPipeline R σ}
    (window : Option Recti) {cursor : ℤ × ℤ} (hc : test cursor.1 cursor.2 = true) (m : Pointer)
    (h : p.relSeeded = true → test (FloatOps.lround p.relX) (FloatOps.lround p.relY) = true) :
    let q := p.trackRelative { I with cursorPos := fun _ => some cursor } (seen test window) m
    q.relSeeded = true ∧ test (FloatOps.lround q.relX) (FloatOps.lround q.relY) = true ∧
      test q.lastX q.lastY = true := by
  intro q
  set seeded := p.seedRelative { I with cursorPos := fun _ => some cursor } m with hs
  have hseed : seeded.relSeeded = true ∧
      test (FloatOps.lround seeded.relX) (FloatOps.lround seeded.relY) = true := by
    rw [hs]
    unfold seedRelative
    split_ifs with hstart
    · exact ⟨rfl, by rw [← hc]; exact congrArg₂ test (hround _) (hround _)⟩
    · have hseeded : p.relSeeded = true := by simpa using (not_or.mp hstart).2
      exact ⟨hseeded, h hseeded⟩
  have hlands := @advanceRelative_lands _ _ _ _ _ _ window (m.x.toInt : R) (m.y.toInt : R) hseed.2
  refine ⟨?_, hlands, hlands⟩
  refine Eq.trans ?_ hseed.1
  show (advanceRelative (seen test window) seeded _ _).relSeeded = _
  unfold advanceRelative
  split
  · rfl
  · dsimp only
    split_ifs <;> rfl

/-! ### Runs -/

variable (R test) in
/-- What can happen to a pipeline that knows the screens, with the cursor always on one. -/
inductive Seen
  | pointer (window : Option Recti) (cursor : ℤ × ℤ) (on : test cursor.1 cursor.2 = true)
    (m : Pointer)
  | key (k : Key)
  | setEnabled (on : Bool)
  | tune (on : Bool) (stepPx alpha : R)
  | endSession

def Seen.turn : Seen R test → Turn R
  | .pointer window cursor _ m => .event (.pointer (seen test window) (some cursor) m)
  | .key k => .event (.key k)
  | .setEnabled on => .event (.setEnabled on)
  | .tune on stepPx alpha => .event (.tune on stepPx alpha)
  | .endSession => .endSession

/-- The curve a message completes stays on the screens between the samples, and if it ends the
stroke, so does its own sample. -/
def Keeps (p : PointerPipeline R σ) : Seen R test → Prop
  | .pointer window _ _ m => ∀ x y, lands (seen test window) p m = some (x, y) →
      p.smoother.enabled = true →
      (m.action = .move ∨ m.action = .hover →
        Lands test (p.smoother.between [pixel (x, y)])) ∧
      (m.action = .up → p.down = true → test x y = true ∧
        Lands test (p.smoother.between [pixel (x, y), pixel (x, y)]))
  | _ => True

omit [Field R] [LinearOrder R] [FloatOps R] in
/-- A sample that is carried out is on a screen, unless it ends a stroke. -/
lemma on_of_lands {p : PointerPipeline R σ} {window : Option Recti} {m : Pointer} {x y : ℤ}
    (h : lands (seen test window) p m = some (x, y))
    (ha : m.action = .down ∨ m.action = .move ∨ m.action = .hover) : test x y = true := by
  unfold lands at h
  split_ifs at h
  obtain ⟨-, hon⟩ := Option.filter_eq_some_iff.mp h
  simpa [ha, onScreen, seen] using hon

section run

variable [IsStrictOrderedRing R] (hroot : ExactRoot R) (hround : ExactRound R)
include hround

section smoother

variable {s : SplineSmoother R} (hon : s.enabled = true) (hs : WindowOn test s) {c : ℤ × ℤ}
include hs

omit [FloatOps R] [LinearOrder R] [IsStrictOrderedRing R] hround in
/-- The last samples, as far as they matter for the next segment. -/
lemma exists_recent (hne : s.window ≠ []) : ∃ (a b : ℤ × ℤ) (l : List (ℤ × ℤ)),
    s.window.drop (s.window.length - 3) = pixel a :: pixel b :: l.map pixel ∧
      test b.1 b.2 = true ∧ ∀ d ∈ l, test d.1 d.2 = true := by
  obtain ⟨ws, hw, hlen, hall⟩ := hs
  have hpos : ws ≠ [] := by
    rintro rfl
    exact hne hw
  have hdrop : 2 ≤ (ws.drop (ws.length - 3)).length := by
    have := List.length_pos_iff.mpr hpos
    rw [List.length_drop]
    omega
  have hmem : ∀ d ∈ ws.drop (ws.length - 3), test d.1 d.2 = true := fun d hd =>
    hall d (List.mem_of_mem_drop hd)
  rw [hw, List.length_map, ← List.map_drop]
  match hr : ws.drop (ws.length - 3), hdrop, hmem with
  | a :: b :: l, _, hmem =>
    exact ⟨a, b, l, rfl, hmem b (by simp), fun d hd => hmem d (by simp [hd])⟩

include hroot hon

/-- A sample on a screen: only what lies between has to be looked at. -/
lemma lands_add_iff (hc : test c.1 c.2 = true) :
    Lands test (s.add (c.1 : R) (c.2 : R)).1 ↔ Lands test (s.between [pixel c]) := by
  by_cases hne : s.window = []
  · have hadd := (SplineSmoother.add_empty hon hne (pixel c)).1
    have hnone : s.between [pixel c] = [] := by
      rw [SplineSmoother.between, hne]
      rfl
    rw [hnone]
    refine iff_of_true ?_ fun q hq => absurd hq List.not_mem_nil
    exact hadd ▸ (lands_pixel hround c).mpr hc
  · obtain ⟨a, b, l, hw, hb, hl⟩ := exists_recent hs hne
    have hadd := SplineSmoother.add_points hon hne (pixel c)
    have hjoin := SplineSmoother.reaches_segments hroot s (pixel a) b l (pixel c)
    rw [SplineSmoother.between, hw]
    rw [hw] at hadd
    exact hadd ▸ lands_flatten_iff hround hjoin hl

/-- The sample that ends a stroke has to be looked at as well. -/
lemma lands_drain_iff : Lands test ((s.add (c.1 : R) (c.2 : R)).1 ++
    (s.add (c.1 : R) (c.2 : R)).2.finish.1) ↔
      test c.1 c.2 = true ∧ Lands test (s.between [pixel c, pixel c]) := by
  by_cases hne : s.window = []
  · obtain ⟨hadd, hbegin⟩ := SplineSmoother.add_empty hon hne (pixel c)
    have hnone : s.between [pixel c, pixel c] = [] := by
      rw [SplineSmoother.between, hne]
      rfl
    have hend : ((s.add (c.1 : R) (c.2 : R)).2.finish).1 = [] :=
      (congrArg (fun t => (SplineSmoother.finish t).1) hbegin).trans
        (SplineSmoother.stroke_eq hroot hon (pixel c) []).1
    rw [hnone, hend, List.append_nil]
    refine Iff.trans ?_ (and_iff_left fun q hq => absurd hq List.not_mem_nil).symm
    exact hadd ▸ lands_pixel hround c
  · obtain ⟨a, b, l, hw, hb, hl⟩ := exists_recent hs hne
    have hdrain := SplineSmoother.drain_points hon hroot hne (pixel c)
    have hjoin := SplineSmoother.reaches_segments hroot s (pixel a) b (l ++ [c]) (pixel c)
    rw [List.map_append, List.map_singleton] at hjoin
    rw [SplineSmoother.between, hw]
    rw [hw] at hdrain
    have hlist : (pixel a : Point R) :: pixel b :: (l.map pixel ++ [pixel c]) ++ [pixel c] =
        pixel a :: pixel b :: l.map pixel ++ [pixel c, pixel c] := by simp
    rw [hlist] at hjoin
    exact hdrain ▸ lands_flatten_concat_iff hround hjoin hb hl

end smoother

include hroot

lemma staysAt_iff {p : PointerPipeline R σ} (ha : WindowOn test p.smoother)
    {window : Option Recti} {m : Pointer} {x y : ℤ}
    (h : lands (seen test window) p m = some (x, y)) :
    p.StaysAt test m x y ↔ (p.smoother.enabled = true →
      (m.action = .move ∨ m.action = .hover →
        Lands test (p.smoother.between [pixel (x, y)])) ∧
      (m.action = .up → p.down = true → test x y = true ∧
        Lands test (p.smoother.between [pixel (x, y), pixel (x, y)]))) := by
  have hon := on_of_lands h
  unfold StaysAt
  split_ifs with hdown hmove hen hup hno hen
  · have h1 : ¬(m.action = .move ∨ m.action = .hover) := by rw [hdown]; decide
    have h2 : m.action ≠ .up := by rw [hdown]; decide
    exact iff_of_true (hon (.inl hdown)) fun _ => ⟨fun h => absurd h h1, fun h => absurd h h2⟩
  · have h2 : m.action ≠ .up := by rcases hmove with h | h <;> rw [h] <;> decide
    refine (lands_add_iff hroot hround hen ha (c := (x, y)) (hon (.inr hmove))).trans ?_
    exact ⟨fun h _ => ⟨fun _ => h, fun h => absurd h h2⟩, fun h => (h hen).1 hmove⟩
  · exact iff_of_true (hon (.inr hmove)) fun h => absurd h hen
  · have hd : p.down = false := by simpa using hno
    exact iff_of_true trivial fun _ => ⟨fun h => absurd h hmove, fun _ h => by simp [hd] at h⟩
  · have hd : p.down = true := by simpa using hno
    refine (lands_drain_iff hroot hround hen ha (c := (x, y))).trans ?_
    exact ⟨fun h _ => ⟨fun h => absurd h hmove, fun _ _ => h⟩, fun h => (h hen).2 hup hd⟩
  · exact iff_of_true trivial fun h => absurd h hen
  · exact iff_of_true trivial fun _ => ⟨fun h => absurd h hmove, fun h => absurd h hup⟩

omit [IsStrictOrderedRing R] hround hroot in
lemma aimed_handleAt {p : PointerPipeline R σ} (ha : Aimed test p.track) {window : Option Recti}
    {m : Pointer} {x y : ℤ} (h : lands (seen test window) p m = some (x, y)) :
    Aimed test (p.handleAt I m x y).track := by
  rw [handleAt_track]
  refine ⟨?_, ha.tracked⟩
  have hw : WindowOn test p.smoother := ha.window
  show WindowOn test (p.smootherAt m x y)
  unfold smootherAt
  split_ifs with hdown hmove hen hup hno hen hc
  · exact windowOn_begin (on_of_lands h (.inl hdown))
  · exact windowOn_add hen (on_of_lands h (.inr hmove)) hw
  · exact hw
  · exact hw
  · exact windowOn_empty SplineSmoother.window_finish
  · exact hw
  · exact windowOn_empty rfl
  · exact hw

omit [IsStrictOrderedRing R] hroot in
/-- What is kept is kept on the screens. -/
lemma aimed_turn {p : PointerPipeline R σ} (ha : Aimed test p.track) (e : Seen R test) :
    Aimed test (p.turn I e.turn).track := by
  cases e with
  | pointer window cursor hc m =>
    obtain ⟨q, hs, ht, -, ⟨-, -, he⟩ | ⟨-, -, he⟩ | ⟨-, x, y, hl, he⟩⟩ :=
      handlePointer_cases { I with cursorPos := fun _ => some cursor } (seen test window) p m
    · exact (he ▸ ht ▸ ha : Aimed test (p.handlePointer _ _ m).track)
    · have haq : Aimed test q.track := ht ▸ ha
      have hland := trackRelative_lands I hround window hc m haq.tracked
      have hsm := trackRelative_smoother { I with cursorPos := fun _ => some cursor }
        (seen test window) q m
      show Aimed test (p.handlePointer _ _ m).track
      rw [he, handleRelative_track]
      refine ⟨?_, fun _ => hland.2.1⟩
      show WindowOn test (q.trackRelative _ _ m).smoother
      rw [hsm]
      exact haq.window
    · have hen : q.enabled = p.enabled := congrArg Stroke.enabled hs
      show Aimed test (p.handlePointer _ _ m).track
      rw [he]
      exact aimed_handleAt _ (ht ▸ ha) (by rw [← hl, lands, lands, hen])
  | key k => exact (handleKey_track I p k ▸ ha : Aimed test (p.handleKey I k).track)
  | setEnabled on =>
    show Aimed test (p.setEnabled I on).track
    rw [setEnabled_track]
    split_ifs
    · exact aimed_empty ha _ rfl
    · exact ha
  | tune on stepPx alpha => exact ⟨ha.window, ha.tracked⟩
  | endSession =>
    show Aimed test (p.endSession I).track
    rw [endSession_track]
    exact ⟨windowOn_empty rfl, fun h => absurd h Bool.false_ne_true⟩

/-- **One turn.** -/
lemma onScreens_turn_iff {p : PointerPipeline R σ} (ha : Aimed test p.track)
    (h : p.OnScreens test) (e : Seen R test) :
    (p.turn I e.turn).OnScreens test ↔ p.Keeps e := by
  cases e with
  | pointer window cursor hc m =>
    show (p.handlePointer _ _ m).OnScreens test ↔ _
    obtain ⟨q, hs, ht, -, ⟨-, hl, he⟩ | ⟨-, hl, he⟩ | ⟨-, x, y, hl, he⟩⟩ :=
      handlePointer_cases { I with cursorPos := fun _ => some cursor } (seen test window) p m
    · rw [he]
      refine iff_of_true ((onScreens_congr hs).mpr h) fun x y h => ?_
      rw [hl] at h
      contradiction
    · have haq : Aimed test q.track := ht ▸ ha
      have hland := trackRelative_lands I hround window hc m haq.tracked
      have hst : (q.trackRelative { I with cursorPos := fun _ => some cursor } (seen test window)
          m).stroke = p.stroke := (trackRelative_stroke _ _ q m).trans hs
      rw [he]
      refine iff_of_true ?_ fun x y h => ?_
      · exact (onScreens_relativeAt _ hland.2.2).mpr ((onScreens_congr hst).mpr h)
      · rw [hl] at h
        contradiction
    · have hen : q.enabled = p.enabled := congrArg Stroke.enabled hs
      have hsm : q.smoother = p.smoother := congrArg Track.smoother ht
      have hd : q.down = p.down := congrArg Stroke.down hs
      have hlq : lands (seen test window) q m = some (x, y) := by rw [← hl, lands, lands, hen]
      have hstay := staysAt_iff hroot hround (p := q) (hsm ▸ ha.window) hlq
      rw [hsm, hd] at hstay
      rw [he]
      refine (onScreens_handleAt _).trans ((and_iff_right ((onScreens_congr hs).mpr h)).trans ?_)
      refine hstay.trans ⟨fun hk x' y' hl' => ?_, fun hk => hk x y hl⟩
      obtain ⟨rfl, rfl⟩ := Prod.mk.inj (Option.some.inj (hl.symm.trans hl'))
      exact hk
  | key k => exact iff_of_true ((onScreens_handleKey I).mpr h) trivial
  | setEnabled on => exact iff_of_true ((onScreens_setEnabled I).mpr h) trivial
  | tune on stepPx alpha => exact iff_of_true h trivial
  | endSession => exact iff_of_true ((onScreens_endSession I).mpr h) trivial

omit [IsStrictOrderedRing R] hroot in
lemma aimed_turns (i : σ) (es : List (Seen R test)) :
    Aimed test ((init i).turns I (es.map Seen.turn)).track := by
  rw [turns, List.foldl_map]
  have h0 : Aimed test (init (R := R) i).track :=
    ⟨windowOn_empty rfl, fun h => absurd h Bool.false_ne_true⟩
  induction es using List.reverseRecOn with
  | nil => exact h0
  | append_singleton es e ih =>
    rw [List.foldl_append]
    exact aimed_turn I hround ih e

/-- **The cursor stays on the screens exactly as long as every curve does between its samples, and
every stroke that is smoothed is lifted on a screen.** Nothing else takes it off them. -/
theorem turns_onScreens_iff (i : σ) (es : List (Seen R test)) :
    (∀ n, ((init i).turns I ((es.take n).map Seen.turn)).OnScreens test) ↔
      ∀ n e, es[n]? = some e → ((init i).turns I ((es.take n).map Seen.turn)).Keeps e := by
  have hall : ∀ es : List (Seen R test), _ := aimed_turns I hround i
  simp only [turns, List.foldl_map] at hall ⊢
  have hstep (p : PointerPipeline R σ) (e : Seen R test)
      (h : Aimed test p.track ∧ p.OnScreens test) :
      (Aimed test (p.turn I e.turn).track ∧ (p.turn I e.turn).OnScreens test) ↔ p.Keeps e :=
    (and_iff_right (aimed_turn I hround h.1 e)).trans
      (onScreens_turn_iff I hroot hround h.1 h.2 e)
  have hexact := holds_along_iff hstep (s := init i)
    ⟨hall [], fun c hc => absurd hc List.not_mem_nil⟩ es
  exact Iff.trans (forall_congr' fun n => (and_iff_right (hall (es.take n))).symm) hexact

end run

/-! ### Two monitors with a gap between them -/

def gapped (x y : ℤ) : Bool := (0 ≤ x ∧ x < 100 ∨ 200 ≤ x ∧ x < 300) ∧ 0 ≤ y ∧ y < 100

lemma distance_level (a b c : ℝ) (h : a ≤ b) : SplineSmoother.distance a c b c = b - a := by
  have hsq : (b - a) * (b - a) + (c - c) * (c - c) = (b - a) * (b - a) := by ring
  show Real.sqrt ((b - a) * (b - a) + (c - c) * (c - c)) = b - a
  rw [hsq, Real.sqrt_mul_self (by linarith)]

/-- The first curve of a stroke is a straight line, here of two steps. -/
lemma segment_first {s : SplineSmoother ℝ} {d : ℕ} (hd : 0 < d) (hstep : s.stepPx = d)
    (halpha : s.alpha = 1 / (2 : ℕ)) (next : Point ℝ) :
    s.segment (pixel (50, 50)) (pixel (50, 50)) (pixel (50 + 2 * d, 50)) next =
      [pixel (50 + d, 50), pixel (50 + 2 * d, 50)] := by
  have hd1 : (1 : ℝ) ≤ d := by exact_mod_cast hd
  have hspan : SplineSmoother.distance (50 : ℝ) 50 (50 + 2 * d) 50 = 2 * d := by
    rw [distance_level _ _ _ (by linarith)]
    ring
  have hfirst :
      FloatOps.pow (SplineSmoother.distance (50 : ℝ) 50 50 50) (1 / (2 : ℕ)) = (0 : ℝ) := by
    rw [distance_level _ _ _ le_rfl, sub_self]
    exact Real.zero_rpow (by norm_num)
  have hceil : FloatOps.ceil (2 * (d : ℝ) / d) = 2 := by
    show ⌈2 * (d : ℝ) / d⌉ = 2
    rw [mul_div_cancel_right₀ _ (by linarith)]
    norm_num
  have hsteps : (max 1 (min (2 : ℤ) kMaxSubdivisions)).toNat = 2 := rfl
  have hno : ¬2 * (d : ℝ) ≤ 1 / 1000000000 := by
    intro hle
    linarith [hle.trans (by norm_num : (1 : ℝ) / 1000000000 ≤ 1)]
  unfold SplineSmoother.segment SplineSmoother.withWindow SplineSmoother.emitSegment
  dsimp only [pixel]
  simp only [Int.cast_ofNat, Int.cast_add, Int.cast_mul, Int.cast_natCast]
  rw [hspan, if_neg hno, hstep, halpha, hfirst, hceil, hsteps]
  rw [if_pos (.inl (by norm_num))]
  show [_, _] = _
  norm_num
  ring

/-- A stroke on one of them, smoothed. -/
noncomputable def within : List (Seen ℝ gapped) :=
  [.setEnabled true, .tune true (20 : ℕ) (1 / (2 : ℕ)),
    .pointer none (0, 0) rfl { action := .down, x := 50, y := 50 },
    .pointer none (0, 0) rfl { action := .move, x := 90, y := 50 },
    .pointer none (0, 0) rfl { action := .move, x := 91, y := 50 }]

theorem turns_onScreens_within :
    (∀ n, ((init ()).turns willing ((within.take n).map Seen.turn)).OnScreens gapped) ∧
      ((init ()).turns willing ((within.take 4).map Seen.turn)).smoother.between
        [pixel (91, 50)] = [pixel (70, 50)] := by
  set p : PointerPipeline ℝ Unit :=
    (init ()).turns willing ((within.take 4).map Seen.turn) with hp
  have hpx : p.smoother.stepPx = (20 : ℕ) := by
    show (if ((20 : ℕ) : ℝ) > 1 / 4 then ((20 : ℕ) : ℝ) else 1 / 4) = (20 : ℕ)
    norm_num
  have hcurve : p.smoother.between [pixel (91, 50)] = [pixel (70, 50)] := by
    have hfirst := segment_first (d := 20) (by decide) hpx rfl (pixel (91, 50))
    show (p.smoother.segments [pixel (50, 50), pixel (50, 50), pixel (50 + 2 * (20 : ℕ), 50),
      pixel (91, 50)]).flatMap List.dropLast = _
    rw [SplineSmoother.segments_cons, hfirst]
    rfl
  refine ⟨(turns_onScreens_iff willing exactRoot_real exactRound_real () within).mpr ?_, hcurve⟩
  intro n e he
  match n, he with
  | 0, rfl | 1, rfl => exact trivial
  | 2, rfl =>
    exact fun x y _ _ => ⟨fun h => absurd h (by decide), fun h => absurd h (by decide)⟩
  | 3, rfl =>
    -- the first curve is not drawn yet
    refine fun x y _ _ => ⟨fun _ => ?_, fun h => absurd h (by decide)⟩
    exact fun q hq => absurd hq List.not_mem_nil
  | 4, rfl =>
    refine fun x y hl _ => ⟨fun _ => ?_, fun h => absurd h (by decide)⟩
    obtain ⟨rfl, rfl⟩ := Prod.mk.inj (Option.some.inj hl)
    show Lands gapped (p.smoother.between [pixel (91, 50)])
    rw [hcurve]
    exact (lands_pixel exactRound_real (70, 50)).mpr (by decide)

/-- A stroke from one to the other, smoothed. -/
noncomputable def acrossGap : List (Seen ℝ gapped) :=
  [.setEnabled true, .tune true (100 : ℕ) (1 / (2 : ℕ)),
    .pointer none (0, 0) rfl { action := .down, x := 50, y := 50 },
    .pointer none (0, 0) rfl { action := .move, x := 250, y := 50 },
    .pointer none (0, 0) rfl { action := .move, x := 251, y := 50 }]

theorem acrossGap_off :
    ¬∀ (es : List (Seen ℝ gapped)) (n : ℕ),
      ((init ()).turns willing ((es.take n).map Seen.turn)).OnScreens gapped := by
  intro h
  have haim := aimed_turns willing exactRound_real () (acrossGap.take 4)
  have hon := h acrossGap 4
  have hstep := h acrossGap 5
  set p : PointerPipeline ℝ Unit :=
    (init ()).turns willing ((acrossGap.take 4).map Seen.turn) with hp
  have hw : p.smoother.window = [pixel (50, 50), pixel (50, 50), pixel (250, 50)] := rfl
  have hkeep := (onScreens_turn_iff willing exactRoot_real exactRound_real haim hon
    (.pointer none (0, 0) rfl { action := .move, x := 251, y := 50 })).mp hstep
  have hland := (hkeep 251 50 rfl rfl).1 (.inl rfl)
  have hpx : p.smoother.stepPx = (100 : ℕ) := by
    show (if ((100 : ℕ) : ℝ) > 1 / 4 then ((100 : ℕ) : ℝ) else 1 / 4) = (100 : ℕ)
    norm_num
  -- the curve goes through the middle of the gap
  have hdraw : p.smoother.between [pixel (251, 50)] = [pixel (150, 50)] := by
    have hfirst := segment_first (d := 100) (by decide) hpx rfl (pixel (251, 50))
    show (p.smoother.segments [pixel (50, 50), pixel (50, 50), pixel (50 + 2 * (100 : ℕ), 50),
      pixel (251, 50)]).flatMap List.dropLast = _
    rw [SplineSmoother.segments_cons, hfirst]
    rfl
  rw [hdraw] at hland
  exact absurd ((lands_pixel exactRound_real (150, 50)).mp hland) (by decide)

end PointerPipeline

end Digitiz
