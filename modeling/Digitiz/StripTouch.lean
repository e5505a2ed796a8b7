import Digitiz.PinchPin
import Digitiz.StripGeometry

/-!
What a touch of the strip does.

Whatever the finger comes down on, it does one thing at most. On a button it is a tap, unless the
finger went too far first, when it is a scroll or nothing, or stayed too long first, when it is a
long press. Which of them it is depends only on what came first.
-/

namespace Digitiz.ButtonStrip

open ButtonStore Carousel

variable {R : Type} [Field R] [LinearOrder R] [FloatOps R]

/-- What can happen to the strip while a finger is down on it. -/
inductive TouchStep (R : Type)
  | drag (p : Point R)
  | advance (dt : R)
  | suggest (name : List UInt8)

def touchStep (s : ButtonStrip R) : TouchStep R → ButtonStrip R
  | .drag p => s.drag p
  | .advance dt => s.advance dt
  | .suggest name => s.setSuggestion name

def touch (s : ButtonStrip R) (l : List (TouchStep R)) : ButtonStrip R := l.foldl touchStep s

/-- What became of a press. One that moved left the slop at `q`. -/
inductive Outcome (R : Type)
  | tapped
  | moved (q : Point R)
  | held
  deriving DecidableEq

/-- What comes first: the finger moves further than the slop, or it has been down for too long.
Only a button can be slid off, and only a button and the tab can be held. -/
def outcome (press : Press) (slop : R) (p : Point R) : R → List (TouchStep R) → Outcome R
  | _, [] => .tapped
  | t, .drag q :: l =>
    if press = .slot ∧ MotionEvent.norm (q - p) > slop then .moved q
    else outcome press slop p t l
  | t, .advance dt :: l =>
    if (press = .slot ∨ press = .toggle) ∧ kLongPressSeconds ≤ t + dt then .held
    else outcome press slop p (t + dt) l
  | t, .suggest _ :: l => outcome press slop p t l

/-- Everything by which the strip acts on the rest of the app. -/
structure Effects (R : Type) where
  expanded : Bool
  addRequested : Bool
  stateChanged : Bool
  longPress : ℤ
  presetMenuRequested : Bool
  suggestionAccepted : Bool
  suggestionDeclined : Bool
  sent : List (StripCall R)

def effects (s : ButtonStrip R) : Effects R where
  expanded := s.expanded
  addRequested := s.addRequested
  stateChanged := s.stateChanged
  longPress := s.longPress
  presetMenuRequested := s.presetMenuRequested
  suggestionAccepted := s.suggestionAccepted
  suggestionDeclined := s.suggestionDeclined
  sent := s.sent

/-- What a press that is released where it came down does. -/
def Effects.tapped (e : Effects R) (press : Press) (calls : List (StripCall R)) : Effects R :=
  match press with
  | .toggle => { e with expanded := !e.expanded, stateChanged := true }
  | .add => { e with addRequested := true }
  | .accept => { e with suggestionAccepted := true }
  | .decline => { e with suggestionDeclined := true }
  | .slot => { e with sent := e.sent ++ calls }
  | .prev | .next | .none => e

/-- What a press that lasts does. -/
def Effects.held (e : Effects R) (press : Press) (button : ℤ) : Effects R :=
  match press with
  | .toggle => { e with presetMenuRequested := true }
  | _ => { e with longPress := button }

/-! ### What a button does -/

/-- A place of the target, or its corner if it has no size. -/
def InTarget (b : CustomButton) (τ : Point R) : Prop :=
  ((b.target.x.toInt : R) ≤ τ.x ∧
      τ.x ≤ ((b.target.x.toInt + max (b.target.w.toInt - 1) 0 : ℤ) : R)) ∧
    (b.target.y.toInt : R) ≤ τ.y ∧
      τ.y ≤ ((b.target.y.toInt + max (b.target.h.toInt - 1) 0 : ℤ) : R)

/-- The calls of the activation of button `i`: a click inside its target, or the shortcut. The model
of a region can have scrolled away; then there are none. -/
inductive Acts (s : ButtonStrip R) (count : ℕ) (i : ℤ) (b : CustomButton) :
    List (StripCall R) → Prop
  | click (τ : Point R) (hkind : b.kind ≠ .shortcut) (hin : InTarget b τ) :
      Acts s count i b [.pointer .down τ, .pointer .up τ]
  | shortcut (hkind : b.kind = .shortcut) : Acts s count i b [.shortcut b]
  | gone (hkind : b.kind = .region) (hgone : ∀ k ∈ s.drawn, s.buttonAt count k ≠ i) :
      Acts s count i b []

variable {s : ButtonStrip R} {bs : List CustomButton} {p : Point R}

section acts

variable [IsStrictOrderedRing R]

omit [FloatOps R] in
lemma inTarget_corner (b : CustomButton) :
    InTarget b (⟨b.target.x.toInt, b.target.y.toInt⟩ : Point R) := by
  refine ⟨⟨le_rfl, ?_⟩, le_rfl, ?_⟩ <;> exact Int.cast_le.mpr (by omega)

omit [FloatOps R] in
lemma inTarget_mapIntoRegion (b : CustomButton) (pad : Rect R) (p : Point R) :
    InTarget b (mapIntoRegion b pad p) := by
  have hstep : ∀ (x w : ℤ) (t : R), 0 ≤ t → t ≤ 1 →
      (x : R) ≤ x + t * (max (w - 1) 0 : ℤ) ∧
        (x : R) + t * (max (w - 1) 0 : ℤ) ≤ ((x + max (w - 1) 0 : ℤ) : R) := by
    intro x w t ht0 ht1
    have hw : (0 : R) ≤ ((max (w - 1) 0 : ℤ) : R) := Int.cast_nonneg (le_max_right _ _)
    rw [Int.cast_add]
    constructor <;> nlinarith [mul_nonneg ht0 hw, mul_nonneg (sub_nonneg.mpr ht1) hw]
  unfold mapIntoRegion
  dsimp only
  split_ifs
  · exact inTarget_corner b
  · obtain ⟨hx0, hx1⟩ := ViewTransform.clamp_mem (zero_le_one' R) ((p.x - pad.x) / pad.w)
    obtain ⟨hy0, hy1⟩ := ViewTransform.clamp_mem (zero_le_one' R) ((p.y - pad.y) / pad.h)
    exact ⟨hstep _ _ _ hx0 hx1, hstep _ _ _ hy0 hy1⟩

/-- An activation hands over the calls of the button and does nothing else. -/
lemma activate_spec (s : ButtonStrip R) (count : ℕ) (b : CustomButton) (p : Point R) :
    ∃ calls, Acts s count s.pressSlot b calls ∧
      s.activate count b p = { s with sent := s.sent ++ calls } := by
  unfold activate
  cases hk : b.kind with
  | point => exact ⟨_, .click _ (by simp [hk]) (inTarget_corner b), rfl⟩
  | shortcut => exact ⟨_, .shortcut hk, rfl⟩
  | region =>
    cases hfind : s.drawn.find? fun k => s.buttonAt count k = s.pressSlot with
    | none =>
      refine ⟨[], .gone hk fun k hmem => ?_, by simp⟩
      simpa using List.find?_eq_none.mp hfind k hmem
    | some k => exact ⟨_, .click _ (by simp [hk]) (inTarget_mapIntoRegion b _ p), rfl⟩

end acts

/-! ### While the finger is down -/

/-- The finger is still down on what it came down on, and nothing has been decided. -/
structure Pressed (s : ButtonStrip R) (k : Press) (button : ℤ) (p : Point R) (t : R) : Prop where
  press : s.press = k
  slot : s.pressSlot = button
  pos : s.pressPos = p
  seconds : k = .slot ∨ k = .toggle → s.pressSeconds = t
  moved : s.pressMoved = false
  scrolling : s.scrolling = false

variable {k : Press} {button : ℤ} {t : R}

section frames

omit [FloatOps R]

lemma settle_frame (s : ButtonStrip R) (dt : R) :
    ∃ scroll, s.settle dt = { s with scroll := scroll } := by
  unfold settle
  dsimp only
  split_ifs
  · exact ⟨s.scroll, rfl⟩
  · exact ⟨_, rfl⟩
  · exact ⟨_, rfl⟩

/-- A frame only moves the list, unless a press has lasted. -/
lemma advance_cases (s : ButtonStrip R) (dt : R) :
    (∃ scroll seconds, s.advance dt = { s with scroll := scroll, pressSeconds := seconds } ∧
      (¬(s.press = .slot ∨ s.press = .toggle) ∨ s.pressMoved = true ∨
        seconds = s.pressSeconds + dt ∧ s.pressSeconds + dt < kLongPressSeconds)) ∨
    (s.press = .slot ∨ s.press = .toggle) ∧ s.pressMoved = false ∧
      kLongPressSeconds ≤ s.pressSeconds + dt ∧ (s.advance dt).press = .none ∧
      (s.advance dt).effects = s.effects.held s.press s.pressSlot := by
  obtain ⟨scroll, hsettle⟩ := s.settle_frame dt
  rw [advance, hsettle]
  by_cases hk : s.press = .slot ∨ s.press = .toggle
  · cases hm : s.pressMoved with
    | true => exact Or.inl ⟨scroll, s.pressSeconds, by simp, Or.inr (Or.inl rfl)⟩
    | false =>
      by_cases ht : s.pressSeconds + dt < kLongPressSeconds
      · exact Or.inl ⟨scroll, s.pressSeconds + dt, by simp [hk, ht], by simp [ht]⟩
      · refine Or.inr ⟨hk, rfl, not_lt.mp ht, ?_, ?_⟩
        · simp [hk, ht]
        · rcases hk with hk | hk <;> simp [hk, ht, effects, Effects.held]
  · exact Or.inl ⟨scroll, s.pressSeconds, by simp [hk], Or.inl hk⟩

/-- A frame moves the list as `settle` does; a press that has not moved may end. -/
lemma advance_frame (s : ButtonStrip R) (dt : R) : ∃ scroll seconds press slot long menu,
    s.settle dt = { s with scroll := scroll } ∧
    s.advance dt = { s with
      scroll := scroll, pressSeconds := seconds, press := press, pressSlot := slot
      longPress := long, presetMenuRequested := menu } ∧
    (press = s.press ∨ s.pressMoved = false) ∧ (s.press = .none → press = .none) := by
  obtain ⟨scroll, hsettle⟩ := s.settle_frame dt
  rw [advance, hsettle]
  by_cases hk : ¬(s.press = .slot ∨ s.press = .toggle) ∨ s.pressMoved = true
  · simp only [if_pos hk]
    exact ⟨scroll, _, _, _, _, _, rfl, rfl, Or.inl rfl, id⟩
  · simp only [if_neg hk]
    have hm : s.pressMoved = false := by simpa using (not_or.mp hk).2
    split_ifs
    · exact ⟨scroll, _, _, _, _, _, rfl, rfl, Or.inl rfl, id⟩
    · exact ⟨scroll, _, _, _, _, _, rfl, rfl, Or.inr hm, fun _ => rfl⟩
    · exact ⟨scroll, _, _, _, _, _, rfl, rfl, Or.inr hm, fun _ => rfl⟩

end frames

lemma drag_idle (h : s.press ≠ .slot) (q : Point R) : s.drag q = s := if_pos h

/-- A drag leaves the list alone or puts it where the finger has taken it. -/
lemma drag_frame (s : ButtonStrip R) (q : Point R) : s.drag q = s ∧ s.press ≠ .slot ∨
    s.press = .slot ∧ ∃ moved scrolling, (s.pressMoved = true → moved = true) ∧
      (scrolling = true → s.scrolling = true ∨ moved = true ∧ s.scrollable = true) ∧
      s.drag q = if scrolling then { s with
          pressMoved := moved, scrolling := scrolling
          scroll := s.scrollAtPress - s.along q s.pressPos
          scrollTarget := s.scrollAtPress - s.along q s.pressPos }
        else { s with pressMoved := moved, scrolling := scrolling } := by
  by_cases hk : s.press = .slot
  · refine Or.inr ⟨hk, ?_⟩
    rw [drag, if_neg (not_not.mpr hk)]
    by_cases hfar : (!s.pressMoved) = true ∧
        MotionEvent.norm (q - s.pressPos) > kMoveSlopDp * s.density
    · simp only [if_pos hfar]
      refine ⟨true, s.scrollable && decide (|s.along q s.pressPos| > |s.across q s.pressPos|),
        fun _ => rfl, fun hs => Or.inr ⟨rfl, (Bool.and_eq_true_iff.mp hs).1⟩, ?_⟩
      cases (s.scrollable && decide (|s.along q s.pressPos| > |s.across q s.pressPos|)) <;> rfl
    · simp only [if_neg hfar]
      refine ⟨s.pressMoved, s.scrolling, id, Or.inl, ?_⟩
      by_cases hs : s.scrolling = true
      · rw [if_neg (by simp [hs]), if_pos hs]
      · rw [if_pos (by simpa using hs), if_neg hs]
  · exact Or.inl ⟨drag_idle hk q, hk⟩

/-- What a touch leaves alone. -/
structure Touched (s t : ButtonStrip R) : Prop where
  m : t.m = s.m
  density : t.density = s.density
  orientation : t.orientation = s.orientation
  pos : t.pressPos = s.pressPos
  atPress : t.scrollAtPress = s.scrollAtPress

omit [FloatOps R] [LinearOrder R] [Field R] in
lemma Touched.trans {u v : ButtonStrip R} (h : Touched s u) (h' : Touched u v) : Touched s v :=
  ⟨h'.m.trans h.m, h'.density.trans h.density, h'.orientation.trans h.orientation,
    h'.pos.trans h.pos, h'.atPress.trans h.atPress⟩

lemma touched_step (s : ButtonStrip R) (c : TouchStep R) : Touched s (s.touchStep c) := by
  cases c with
  | drag q =>
    rw [touchStep]
    obtain ⟨he, -⟩ | ⟨-, moved, scrolling, -, -, he⟩ := s.drag_frame q <;> rw [he]
    · exact ⟨rfl, rfl, rfl, rfl, rfl⟩
    · cases scrolling <;> exact ⟨rfl, rfl, rfl, rfl, rfl⟩
  | advance dt =>
    rw [touchStep]
    obtain ⟨scroll, seconds, press, slot, long, menu, -, he, -⟩ := s.advance_frame dt
    rw [he]
    exact ⟨rfl, rfl, rfl, rfl, rfl⟩
  | suggest name => exact ⟨rfl, rfl, rfl, rfl, rfl⟩

omit [FloatOps R] in
/-- A frame of a press that nothing has been decided about. -/
lemma Pressed.advance (h : Pressed s k button p t) (dt : R) :
    (¬((k = .slot ∨ k = .toggle) ∧ kLongPressSeconds ≤ t + dt) ∧
      Pressed (s.advance dt) k button p (t + dt) ∧ (s.advance dt).effects = s.effects ∧
        (s.advance dt).density = s.density) ∨
    ((k = .slot ∨ k = .toggle) ∧ kLongPressSeconds ≤ t + dt) ∧ (s.advance dt).press = .none ∧
      (s.advance dt).effects = s.effects.held k button := by
  obtain ⟨scroll, seconds, he, hwhy⟩ | ⟨hk, -, ht, hnone, hheld⟩ := s.advance_cases dt
  · have hseconds : k = .slot ∨ k = .toggle → seconds = t + dt ∧ t + dt < kLongPressSeconds := by
      intro hk
      rcases hwhy with hno | hm | hsec
      · exact absurd (by rwa [h.press]) hno
      · simp [h.moved] at hm
      · rwa [h.seconds hk] at hsec
    refine Or.inl ⟨fun hlong => absurd hlong.2 (not_le.mpr (hseconds hlong.1).2), ?_⟩
    rw [he]
    exact ⟨⟨h.press, h.slot, h.pos, fun hk => (hseconds hk).1, h.moved, h.scrolling⟩, rfl, rfl⟩
  · rw [h.press] at hk hheld
    rw [h.slot] at hheld
    rw [h.seconds hk] at ht
    exact Or.inr ⟨⟨hk, ht⟩, hnone, hheld⟩

end Digitiz.ButtonStrip
