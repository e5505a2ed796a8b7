import Digitiz.PointerTrack
import Digitiz.Runs
import Digitiz.SplinePath

/-!
What the smoother fits its curves to.

A turn of the pipeline feeds the smoother a sample, clears it or leaves it alone. Beside the run
of the pipeline goes a trace of it, which keeps with every sample in the window the turn it came
in, and with every curve the samples it was drawn from and the turn from which on samples belong
to the stroke at hand. A stroke ends with the message that closes it, a disable or the end of a
session. Most of these clear the window and some go past it; what is proved is that nothing but
these can make a curve join two strokes.
-/

namespace Digitiz

/-! ### Feeding the smoother -/

/-- What one turn does to the smoother. -/
inductive Feed (R : Type)
  | keeps
  | begins (q : Point R)
  | adds (q : Point R)
  /-- Adds a sample and ends the curve with it. -/
  | drains (q : Point R)
  | clears

/-- A sample comes in. -/
def Feed.samples {R : Type} : Feed R → Bool
  | .adds _ | .drains _ => true
  | _ => false

/-- The window of a smoother over samples of any kind. -/
def slide {α : Type} (w : List α) (a : α) : List α :=
  if w.length = 0 then [a, a] else if w.length < 4 then w ++ [a] else w.tail ++ [a]

lemma map_slide {α β : Type} (f : α → β) (w : List α) (a : α) :
    (slide w a).map f = slide (w.map f) (f a) := by
  unfold slide
  rw [List.length_map]
  split_ifs <;> simp [List.map_tail]

lemma mem_slide {α : Type} {w : List α} {a b : α} (h : b ∈ slide w a) : b ∈ w ∨ b = a := by
  unfold slide at h
  split_ifs at h
  · exact .inr (by simpa using h)
  · simpa using h
  · exact (List.mem_append.mp h).imp List.mem_of_mem_tail List.mem_singleton.mp

/-- A window with samples in it does not lose all of them at once. -/
lemma exists_mem_slide {α : Type} {w : List α} (hw : w ≠ []) (a : α) :
    ∃ b ∈ w, b ∈ slide w a := by
  obtain ⟨b, r, rfl⟩ := List.exists_cons_of_ne_nil hw
  unfold slide
  rw [if_neg (by simp)]
  split_ifs with hfull
  · exact ⟨b, List.mem_cons_self, List.mem_append_left _ List.mem_cons_self⟩
  · obtain ⟨c, hc⟩ : ∃ c, c ∈ r := by
      refine List.exists_mem_of_ne_nil r fun h => ?_
      rw [h, List.length_singleton] at hfull
      omega
    exact ⟨c, List.mem_cons_of_mem _ hc, List.mem_append_left _ hc⟩

/-- The samples in the window after a turn, each with the turn it came in. -/
def Feed.window {R : Type} (w : List (ℕ × Point R)) (now : ℕ) : Feed R → List (ℕ × Point R)
  | .keeps => w
  | .begins q => [(now, q), (now, q)]
  | .adds q => slide w (now, q)
  | .drains _ | .clears => []

namespace SplineSmoother

variable {R : Type} [Field R] [LinearOrder R] [FloatOps R]

def feed (s : SplineSmoother R) : Feed R → SplineSmoother R
  | .keeps => s
  | .begins q => s.begin q.x q.y
  | .adds q => (s.add q.x q.y).2
  | .drains q => (s.add q.x q.y).2.finish.2
  | .clears => s.reset

/-- The points that are drawn for it. -/
def drawn (s : SplineSmoother R) : Feed R → List (Point R)
  | .adds q => (s.add q.x q.y).1
  | .drains q => (s.add q.x q.y).1 ++ (s.add q.x q.y).2.finish.1
  | _ => []

lemma map_window_feed {s : SplineSmoother R} {w : List (ℕ × Point R)}
    (h : w.map Prod.snd = s.window) (now : ℕ) (f : Feed R)
    (hon : f.samples = true → s.enabled = true) :
    (f.window w now).map Prod.snd = (s.feed f).window := by
  cases f with
  | keeps => exact h
  | begins q => rfl
  | adds q =>
    show (slide w (now, q)).map Prod.snd = (s.add q.x q.y).2.window
    rw [map_slide, h, window_add (hon rfl)]
    rfl
  | drains q => exact window_finish.symm
  | clears => rfl

end SplineSmoother

namespace PointerPipeline

open SplineSmoother (pixel)

variable {R σ : Type}

/-! ### The points that are injected -/

section emitted

variable [FloatOps R] {p q : PointerPipeline R σ}

/-- The call for a point of a curve. -/
def callAt (q : Point R) : Call := .moveTo (FloatOps.lround q.x) (FloatOps.lround q.y)

/-- From `p` to `q`, these points went through `emitSmoothed`, and other calls may have been made
after them. -/
structure Emits (p q : PointerPipeline R σ) (qs : List (Point R)) : Prop where
  calls : ∃ cs, q.calls = p.calls ++ qs.map callAt ++ cs
  counted : q.stats.smoothedPoints = p.stats.smoothedPoints + qs.length

lemma emits_nothing (hc : q.calls = p.calls)
    (hn : q.stats.smoothedPoints = p.stats.smoothedPoints) : Emits p q [] :=
  ⟨⟨[], by simp [hc]⟩, hn⟩

lemma Emits.trans {r : PointerPipeline R σ} {qs : List (Point R)} (h : Emits p q qs)
    (h' : Emits q r []) : Emits p r qs := by
  obtain ⟨⟨cs, hc⟩, hn⟩ := h
  obtain ⟨⟨cs', hc'⟩, hn'⟩ := h'
  exact ⟨⟨cs ++ cs', by rw [hc', hc]; simp⟩, by rw [hn', hn]; rfl⟩

lemma emits_of_calls {c : Call} (h : q.calls = p.calls ++ [c])
    (hn : q.stats.smoothedPoints = p.stats.smoothedPoints) : Emits p q [] :=
  ⟨⟨[c], by rw [h, List.map_nil, List.append_nil]⟩, hn⟩

omit [FloatOps R] in
lemma countInjected_smoothed (p : PointerPipeline R σ) (ok : Bool) :
    (p.countInjected ok).stats.smoothedPoints = p.stats.smoothedPoints := by
  unfold countInjected
  split <;> rfl

variable (I : IInputInjector σ)

lemma injectMove_emits (p : PointerPipeline R σ) (x y : ℤ) : Emits p (p.injectMove I x y) [] :=
  emits_of_calls (congrArg Stroke.calls (injectMove_stroke I p x y)) (countInjected_smoothed _ _)

lemma injectButton_emits (p : PointerPipeline R σ) (b : MouseButton) (down : Bool) (x y : ℤ) :
    Emits p (p.injectButton I b down x y) [] :=
  emits_of_calls (congrArg Stroke.calls (injectButton_stroke I p b down x y))
    (countInjected_smoothed _ _)

lemma closeStroke_emits (p : PointerPipeline R σ) (x y : ℤ) : Emits p (p.closeStroke I x y) [] :=
  have h := injectButton_emits I p p.held false x y
  ⟨h.calls, h.counted⟩

lemma openStroke_emits (p : PointerPipeline R σ) (b : MouseButton) (x y : ℤ) :
    Emits p (p.openStroke I b x y) [] := by
  have hpress (q : PointerPipeline R σ) :
      Emits q { q.injectButton I b true x y with down := true, held := b } [] :=
    have h := injectButton_emits I q b true x y
    ⟨h.calls, h.counted⟩
  unfold openStroke
  split_ifs
  · have hclose : Emits p _ [] :=
      have h := injectButton_emits I
        (p.count fun s => { s with protocolErrors := s.protocolErrors + 1 }) p.held false x y
      ⟨h.calls, h.counted⟩
    exact hclose.trans (hpress _)
  · exact hpress p

lemma emitAll_emits (p : PointerPipeline R σ) (qs : List (Point R)) :
    Emits p (p.emitAll I qs) qs := by
  refine ⟨⟨[], ?_⟩, ?_⟩
  · rw [← stroke_calls, emitAll_stroke, Stroke.run_moves, List.append_nil, List.map_map]
    rfl
  · induction qs generalizing p with
    | nil => rfl
    | cons q r ih =>
      have hone : (p.emitSmoothed I q).stats.smoothedPoints = p.stats.smoothedPoints + 1 :=
        countInjected_smoothed _ _
      refine (ih (p.emitSmoothed I q)).trans ?_
      rw [hone, List.length_cons]
      omega

lemma releaseStroke_emits (p : PointerPipeline R σ) : Emits p (p.releaseStroke I) [] := by
  unfold releaseStroke
  dsimp only
  split_ifs
  · exact emits_nothing rfl rfl
  · have h := closeStroke_emits I { p with smoother := p.smoother.reset } p.lastX p.lastY
    exact ⟨h.calls, h.counted⟩

lemma setEnabled_emits (p : PointerPipeline R σ) (on : Bool) : Emits p (p.setEnabled I on) [] := by
  unfold setEnabled
  split_ifs
  · exact emits_nothing rfl rfl
  · have h := releaseStroke_emits I p
    exact ⟨h.calls, h.counted⟩
  · exact emits_nothing rfl rfl

lemma handleKey_emits (p : PointerPipeline R σ) (k : Key) : Emits p (p.handleKey I k) [] := by
  unfold handleKey
  dsimp only
  split_ifs
  · exact emits_nothing rfl rfl
  · exact emits_of_calls rfl rfl
  · exact emits_of_calls rfl rfl

lemma endSession_emits (p : PointerPipeline R σ) : Emits p (p.endSession I) [] := by
  have h := releaseStroke_emits I { p with relSeeded := false }
  exact Emits.trans ⟨h.calls, h.counted⟩ (emits_of_calls (c := .releaseAll) rfl rfl)

variable [Field R]

lemma trackRelative_emits (env : Surroundings) (p : PointerPipeline R σ) (m : Pointer) :
    Emits p (p.trackRelative I env m) [] := by
  refine ⟨⟨[], ?_⟩, ?_⟩
  · rw [← stroke_calls, trackRelative_stroke]
    simp
  · have hseed : (p.seedRelative I m).stats = p.stats := by
      unfold seedRelative
      split
      · split <;> rfl
      · rfl
    have hadv (q : PointerPipeline R σ) (dx dy : R) :
        (advanceRelative env q dx dy).stats = q.stats := by
      unfold advanceRelative
      split
      · rfl
      · dsimp only
        split_ifs <;> rfl
    exact congrArg PipelineStats.smoothedPoints ((hadv _ _ _).trans hseed)

lemma handleRelative_emits (env : Surroundings) (p : PointerPipeline R σ) (m : Pointer) :
    Emits p (p.handleRelative I env m) [] := by
  refine (trackRelative_emits I env p m).trans ?_
  unfold handleRelative relativeAt
  dsimp only
  split_ifs
  · exact openStroke_emits I _ _ _ _
  · exact injectMove_emits I _ _ _
  · exact closeStroke_emits I _ _ _
  · exact emits_nothing rfl rfl
  · exact emits_nothing rfl rfl

end emitted

/-! ### What a turn feeds -/

/-- What an absolute message that is carried out does to the smoother. -/
def feedAt (p : PointerPipeline R σ) (m : Pointer) (q : Point R) : Feed R :=
  if m.action = .down then .begins q
  else if m.action = .move ∨ m.action = .hover then
    if p.smoother.enabled then .adds q else .keeps
  else if m.action = .up then
    if !p.down then .keeps else if p.smoother.enabled then .drains q else .keeps
  else if m.action = .cancel then .clears
  else .keeps

lemma feedAt_enabled {p : PointerPipeline R σ} {m : Pointer} {q : Point R}
    (h : (p.feedAt m q).samples = true) : p.smoother.enabled = true := by
  unfold feedAt at h
  split_ifs at h <;> first | assumption | contradiction

lemma feedAt_congr {p q : PointerPipeline R σ} (hs : q.stroke = p.stroke) (ht : q.track = p.track)
    (m : Pointer) (c : Point R) : q.feedAt m c = p.feedAt m c := by
  have hsm : q.smoother = p.smoother := congrArg Track.smoother ht
  have hd : q.down = p.down := congrArg Stroke.down hs
  rw [feedAt, feedAt, hsm, hd]

variable [Field R]

def feed (p : PointerPipeline R σ) : Turn R → Feed R
  | .event (.pointer env _ m) =>
    match lands env p m with
    | some c => p.feedAt m (pixel c)
    | none => .keeps
  | .event (.setEnabled on) => if p.enabled = true ∧ on = false then .clears else .keeps
  | .endSession => .clears
  | _ => .keeps

/-- A sample is fed to a smoother that is on. -/
lemma feed_enabled {p : PointerPipeline R σ} {t : Turn R} (h : (p.feed t).samples = true) :
    p.smoother.enabled = true := by
  unfold feed at h
  split at h
  · split at h
    · exact feedAt_enabled h
    · contradiction
  · split at h <;> contradiction
  · contradiction
  · contradiction

variable [LinearOrder R] [FloatOps R]

lemma smootherAt_eq (p : PointerPipeline R σ) (m : Pointer) (x y : ℤ) :
    p.smootherAt m x y = p.smoother.feed (p.feedAt m (pixel (x, y))) := by
  unfold smootherAt feedAt
  split_ifs <;> rfl

variable (I : IInputInjector σ)

/-- The window after a turn. -/
lemma turn_window (p : PointerPipeline R σ) (t : Turn R) :
    (p.turn I t).smoother.window = (p.smoother.feed (p.feed t)).window := by
  have hoff {q : PointerPipeline R σ} {tr : Track R} (h : q.track = tr) :
      q.smoother = tr.smoother := congrArg Track.smoother h
  cases t with
  | endSession => exact congrArg _ (hoff (endSession_track I p))
  | event e =>
    cases e with
    | key k => exact congrArg _ (hoff (handleKey_track I p k))
    | tune on stepPx alpha => rfl
    | setEnabled on =>
      refine (congrArg _ (hoff (setEnabled_track I p on))).trans ?_
      unfold feed
      dsimp only
      split_ifs <;> rfl
    | pointer env cursor m =>
      obtain ⟨q, hs, ht, -, ⟨-, hl, he⟩ | ⟨-, hl, he⟩ | ⟨-, x, y, hl, he⟩⟩ :=
        handlePointer_cases { I with cursorPos := fun _ => cursor } env p m
      · show (p.handlePointer _ env m).smoother.window = _
        rw [he, feed, hl]
        exact congrArg _ (hoff ht)
      · show (p.handlePointer _ env m).smoother.window = _
        rw [he, feed, hl, hoff (handleRelative_track _ env q m)]
        exact congrArg _ ((trackRelative_smoother _ env q m).trans (hoff ht))
      · show (p.handlePointer _ env m).smoother.window = _
        rw [he, feed, hl, hoff (handleAt_track _ q m x y)]
        show (q.smootherAt m x y).window = (p.smoother.feed (p.feedAt m (pixel (x, y)))).window
        rw [smootherAt_eq, feedAt_congr hs ht, hoff ht]
        rfl

omit [Field R] [LinearOrder R] [FloatOps R] in
lemma count_smoother (p : PointerPipeline R σ) (f : PipelineStats → PipelineStats) :
    (p.count f).smoother = p.smoother := rfl

lemma drainClose_emits (p : PointerPipeline R σ) (x y : ℤ) :
    Emits p ((p.drainCurve I x y).closeStroke I x y)
      (p.smoother.drawn (if p.smoother.enabled then .drains (pixel (x, y)) else .keeps)) := by
  refine Emits.trans ?_ (closeStroke_emits I _ x y)
  unfold drainCurve
  split_ifs
  · have h := emitAll_emits I
      { p with smoother := (p.smoother.add (x : R) (y : R)).2.finish.2 }
      ((p.smoother.add (x : R) (y : R)).1 ++ (p.smoother.add (x : R) (y : R)).2.finish.1)
    exact ⟨h.calls, h.counted⟩
  · exact emits_nothing rfl rfl

lemma handleAt_emits (p : PointerPipeline R σ) (m : Pointer) (x y : ℤ) :
    Emits p (p.handleAt I m x y) (p.smoother.drawn (p.feedAt m (pixel (x, y)))) := by
  suffices h : Emits { p with lastX := x, lastY := y } (p.handleAt I m x y)
      (p.smoother.drawn (p.feedAt m (pixel (x, y)))) from ⟨h.calls, h.counted⟩
  rw [← feedAt_congr (p := p) (q := { p with lastX := x, lastY := y }) rfl rfl]
  unfold handleAt
  generalize hq : { p with lastX := x, lastY := y } = q
  have hs : p.smoother = q.smoother := by rw [← hq]
  rw [hs]
  unfold feedAt
  dsimp only
  split_ifs with hdown hmove hon hup hno hb hon hon hc hd
  · have h := openStroke_emits I q m.button x y
    exact ⟨h.calls, h.counted⟩
  · have h := emitAll_emits I { q with smoother := (q.smoother.add (x : R) (y : R)).2 }
      (q.smoother.add (x : R) (y : R)).1
    exact ⟨h.calls, h.counted⟩
  · exact injectMove_emits I q x y
  · exact emits_nothing rfl rfl
  · have h := drainClose_emits I
      (q.count fun s => { s with protocolErrors := s.protocolErrors + 1 }) x y
    rw [count_smoother, if_pos hon] at h
    exact ⟨h.calls, h.counted⟩
  · have h := drainClose_emits I
      (q.count fun s => { s with protocolErrors := s.protocolErrors + 1 }) x y
    rw [count_smoother, if_neg hon] at h
    exact ⟨h.calls, h.counted⟩
  · have h := drainClose_emits I q x y
    rw [if_pos hon] at h
    exact h
  · have h := drainClose_emits I q x y
    rw [if_neg hon] at h
    exact h
  · have h := closeStroke_emits I { q with smoother := q.smoother.reset } x y
    exact ⟨h.calls, h.counted⟩
  · exact emits_nothing rfl rfl
  · exact emits_nothing rfl rfl

/-- What a turn injects through `emitSmoothed` is what the smoother draws for it. -/
lemma turn_emits (p : PointerPipeline R σ) (t : Turn R) :
    Emits p (p.turn I t) (p.smoother.drawn (p.feed t)) := by
  cases t with
  | endSession => exact endSession_emits I p
  | event e =>
    cases e with
    | key k => exact handleKey_emits I p k
    | tune on stepPx alpha => exact emits_nothing rfl rfl
    | setEnabled on =>
      unfold feed
      dsimp only
      split_ifs <;> exact setEnabled_emits I p on
    | pointer env cursor m =>
      obtain ⟨q, hs, ht, hn, ⟨-, hl, he⟩ | ⟨-, hl, he⟩ | ⟨-, x, y, hl, he⟩⟩ :=
        handlePointer_cases { I with cursorPos := fun _ => cursor } env p m
      all_goals
        have hq : Emits p q [] := emits_nothing (congrArg Stroke.calls hs) hn
        show Emits p (p.handlePointer _ env m) _
        rw [he, feed, hl]
      · exact hq
      · exact hq.trans (handleRelative_emits _ env q m)
      · have h := handleAt_emits { I with cursorPos := fun _ => cursor } q m x y
        have hsm : q.smoother = p.smoother := congrArg Track.smoother ht
        rw [feedAt_congr hs ht, hsm] at h
        obtain ⟨⟨cs, hc⟩, hn'⟩ := h
        exact ⟨⟨cs, by rw [hc, ← stroke_calls q, hs, stroke_calls]⟩, by rw [hn', hn]⟩

/-! ### Where a stroke begins and ends -/

omit [LinearOrder R] [FloatOps R] [Field R]

/-- A message is carried out, in one way or the other. -/
def carries (env : Surroundings) (p : PointerPipeline R σ) (m : Pointer) : Bool :=
  p.tracks m || (lands env p m).isSome

/-- The turn from which on samples belong to the stroke at hand or, outside a stroke, to the time
since the last one ended. -/
def strokeSince (p : PointerPipeline R σ) (now since : ℕ) : Turn R → ℕ
  | .event (.pointer env _ m) =>
    if carries env p m then
      if m.action = .down then now
      else if (m.action = .up ∨ m.action = .cancel) ∧ p.down = true then now + 1
      else since
    else since
  | .event (.setEnabled on) => if p.enabled = true ∧ on = false then now + 1 else since
  | .endSession => now + 1
  | _ => since

/-- A stroke begins or ends past the smoother: with a relative message, or with an absolute one
that closes it while smoothing is off. -/
def bypasses (p : PointerPipeline R σ) : Turn R → Bool
  | .event (.pointer env _ m) =>
    if p.tracks m then
      m.action = .down ∨ (m.action = .up ∨ m.action = .cancel) ∧ p.down = true
    else
      (lands env p m).isSome ∧ m.action = .up ∧ p.down = true ∧ p.smoother.enabled = false
  | _ => false

lemma strokeSince_le (p : PointerPipeline R σ) {now since : ℕ} (h : since ≤ now) (t : Turn R) :
    p.strokeSince now since t ≤ now + 1 := by
  unfold strokeSince
  split
  · split_ifs <;> omega
  · split_ifs <;> omega
  · omega
  · omega

variable [Field R]

/-- A sample in the middle of a stroke is not where one begins or ends. -/
lemma strokeSince_adds {p : PointerPipeline R σ} {t : Turn R} {q : Point R}
    (h : p.feed t = .adds q) (now since : ℕ) : p.strokeSince now since t = since := by
  unfold feed at h
  split at h
  · split at h
    · unfold feedAt at h
      split_ifs at h with hdown hmove
      simp [strokeSince, hdown, not_closing (.inr hmove)]
    · contradiction
  · split at h <;> contradiction
  · contradiction
  · contradiction

lemma strokeSince_begins {p : PointerPipeline R σ} {t : Turn R} {q : Point R}
    (h : p.feed t = .begins q) (now since : ℕ) : p.strokeSince now since t = now := by
  unfold feed at h
  split at h
  · split at h
    · rename_i hl
      unfold feedAt at h
      split_ifs at h with hdown
      simp [strokeSince, carries, hl, hdown]
    · contradiction
  · split at h <;> contradiction
  · contradiction
  · contradiction

/-- Where the smoother is left alone, a stroke begins or ends only past it. -/
lemma strokeSince_keeps {p : PointerPipeline R σ} {t : Turn R} (h : p.feed t = .keeps)
    (now since : ℕ) : if p.bypasses t then now ≤ p.strokeSince now since t
      else p.strokeSince now since t = since := by
  cases t with
  | endSession => contradiction
  | event e =>
    cases e with
    | key k => rfl
    | tune on stepPx alpha => rfl
    | setEnabled on =>
      have hoff : ¬(p.enabled = true ∧ on = false) := fun hoff => by simp [feed, hoff] at h
      exact if_neg hoff
    | pointer env cursor m =>
      cases htr : p.tracks m with
      | true =>
        simp only [bypasses, strokeSince, carries, htr]
        split_ifs <;> simp_all
      | false =>
        unfold feed at h
        dsimp only at h
        cases hl : lands env p m with
        | none => simp [bypasses, strokeSince, carries, htr, hl]
        | some c =>
          have hup : PointerAction.up ≠ .down := by decide
          rw [hl] at h
          unfold feedAt at h
          simp only [bypasses, strokeSince, carries, htr, hl]
          split_ifs at h with hdown hmove
          · obtain ⟨hnup, hncancel⟩ := not_or.mp (not_closing (.inr hmove))
            simp [hdown, hnup, hncancel]
          all_goals simp_all

end PointerPipeline

/-! ### The trace of a run -/

/-- A curve: the samples it was drawn from, each with the turn it came in, and the turn from which
on samples belonged to its stroke. -/
structure Curve (R : Type) where
  since : ℕ
  sources : List (ℕ × Point R)
  points : List (Point R)

/-- It is drawn from samples of one stroke only. -/
def Curve.Fresh {R : Type} (c : Curve R) : Prop := ∀ q ∈ c.sources, c.since ≤ q.1

structure StrokeTrace (R σ : Type) where
  pipeline : PointerPipeline R σ
  /-- How many turns were taken. -/
  now : ℕ
  since : ℕ
  /-- What the window of the smoother holds, each sample with the turn it came in. -/
  window : List (ℕ × Point R)
  curves : List (Curve R)
  /-- A stroke has begun or ended past a smoother whose window was not empty, and nothing has
  cleared it since. -/
  left : Bool

namespace StrokeTrace

open PointerPipeline

variable {R σ : Type} [Field R] [LinearOrder R] [FloatOps R] (I : IInputInjector σ)

def init (i : σ) : StrokeTrace R σ := ⟨.init i, 0, 0, [], [], false⟩

/-- The curve a sample that comes in is drawn with. -/
def curvesOf (g : StrokeTrace R σ) : Feed R → List (Curve R)
  | .adds q => [⟨g.since, slide g.window (g.now, q), g.pipeline.smoother.drawn (.adds q)⟩]
  | .drains q => [⟨g.since, slide g.window (g.now, q), g.pipeline.smoother.drawn (.drains q)⟩]
  | _ => []

def leftAfter (g : StrokeTrace R σ) (t : Turn R) : Bool :=
  match g.pipeline.feed t with
  | .keeps => g.left || (g.pipeline.bypasses t && !g.pipeline.smoother.window.isEmpty)
  | .adds _ => g.left
  | .begins _ | .drains _ | .clears => false

def turn (g : StrokeTrace R σ) (t : Turn R) : StrokeTrace R σ where
  pipeline := g.pipeline.turn I t
  now := g.now + 1
  since := g.pipeline.strokeSince g.now g.since t
  window := (g.pipeline.feed t).window g.window g.now
  curves := g.curves ++ g.curvesOf (g.pipeline.feed t)
  left := g.leftAfter t

def run (i : σ) (ts : List (Turn R)) : StrokeTrace R σ := ts.foldl (turn I) (init i)

/-- The trace says what the pipeline did. -/
structure Follows (g : StrokeTrace R σ) : Prop where
  window : g.window.map Prod.snd = g.pipeline.smoother.window
  counted : g.pipeline.stats.smoothedPoints = (g.curves.map fun c => c.points.length).sum
  calls : ((g.curves.flatMap Curve.points).map callAt).Sublist g.pipeline.calls

/-- All the curves are drawn from samples of one stroke. -/
def Fresh (g : StrokeTrace R σ) : Prop := ∀ c ∈ g.curves, c.Fresh

/-- No sample comes in after what a stroke left behind. -/
def Apart (g : StrokeTrace R σ) (t : Turn R) : Prop :=
  (g.pipeline.feed t).samples = true → g.left = false

/-- What is in the window belongs to the stroke at hand, unless something was left behind. -/
structure Timed (g : StrokeTrace R σ) : Prop where
  since_le : g.since ≤ g.now
  stamped : ∀ q ∈ g.window, q.1 < g.now
  fresh : g.left = false → ∀ q ∈ g.window, g.since ≤ q.1
  stale : g.left = true → g.window ≠ [] ∧ ∀ q ∈ g.window, q.1 < g.since

omit [LinearOrder R] in
lemma init_follows (i : σ) : (init (R := R) i).Follows := ⟨rfl, rfl, List.Sublist.refl _⟩

lemma turn_follows {g : StrokeTrace R σ} (h : g.Follows) (t : Turn R) : (g.turn I t).Follows := by
  obtain ⟨⟨cs, hc⟩, hn⟩ := turn_emits I g.pipeline t
  have hdrawn : (g.curvesOf (g.pipeline.feed t)).flatMap Curve.points =
      g.pipeline.smoother.drawn (g.pipeline.feed t) := by
    cases g.pipeline.feed t <;> simp [curvesOf, SplineSmoother.drawn]
  have hlen : ((g.curvesOf (g.pipeline.feed t)).map fun c => c.points.length).sum =
      (g.pipeline.smoother.drawn (g.pipeline.feed t)).length := by
    rw [← hdrawn, List.length_flatMap]
  refine ⟨?_, ?_, ?_⟩
  · refine (SplineSmoother.map_window_feed h.window g.now _ feed_enabled).trans ?_
    exact (turn_window I g.pipeline t).symm
  · show _ = ((g.curves ++ g.curvesOf (g.pipeline.feed t)).map _).sum
    rw [List.map_append, List.sum_append, hlen, ← h.counted]
    exact hn
  · show (((g.curves ++ g.curvesOf (g.pipeline.feed t)).flatMap _).map _).Sublist
      (g.pipeline.turn I t).calls
    rw [List.flatMap_append, List.map_append, hdrawn, hc]
    exact (h.calls.append_right _).trans (List.sublist_append_left _ _)

omit [LinearOrder R] [FloatOps R] in
lemma init_timed (i : σ) : (init (R := R) i).Timed where
  since_le := le_rfl
  stamped _ hq := absurd hq List.not_mem_nil
  fresh _ _ hq := absurd hq List.not_mem_nil
  stale h := absurd h Bool.false_ne_true

omit [Field R] [LinearOrder R] [FloatOps R] in
/-- A window that is cleared holds nothing of another stroke. -/
lemma timed_of_empty {g : StrokeTrace R σ} (hs : g.since ≤ g.now) (hw : g.window = [])
    (hl : g.left = false) : g.Timed where
  since_le := hs
  stamped _ hq := absurd (hw ▸ hq) List.not_mem_nil
  fresh _ _ hq := absurd (hw ▸ hq) List.not_mem_nil
  stale h := absurd (hl.symm.trans h) Bool.false_ne_true

/-- A turn the smoother takes no part in. A stroke that goes past it leaves the window behind. -/
lemma turn_timed_of_keeps {g : StrokeTrace R σ} (hf : g.Follows) (h : g.Timed) {t : Turn R}
    (hfeed : g.pipeline.feed t = .keeps) : (g.turn I t).Timed := by
  have hsince := strokeSince_le g.pipeline h.since_le t
  have hw : (g.turn I t).window = g.window := by simp [turn, hfeed, Feed.window]
  have hleft : (g.turn I t).left =
      (g.left || (g.pipeline.bypasses t && !g.pipeline.smoother.window.isEmpty)) := by
    simp [turn, leftAfter, hfeed]
  have hkeep : if g.pipeline.bypasses t then g.now ≤ (g.turn I t).since
      else (g.turn I t).since = g.since := strokeSince_keeps hfeed g.now g.since
  have hstamp : ∀ q ∈ (g.turn I t).window, q.1 < g.now + 1 := fun q hq =>
    (h.stamped q (hw ▸ hq)).trans (Nat.lt_succ_self _)
  cases hb : g.pipeline.bypasses t with
  | false =>
    have hsame : (g.turn I t).since = g.since := by simpa [hb] using hkeep
    rw [hb, Bool.false_and, Bool.or_false] at hleft
    exact ⟨hsince, hstamp, by rw [hleft, hw, hsame]; exact h.fresh,
      by rw [hleft, hw, hsame]; exact h.stale⟩
  | true =>
    have hlate : g.now ≤ (g.turn I t).since := by simpa [hb] using hkeep
    by_cases hempty : g.window = []
    · have hwin : g.pipeline.smoother.window = [] := by rw [← hf.window, hempty, List.map_nil]
      have hoff : g.left = false := by
        by_contra hon
        exact (h.stale (by simpa using hon)).1 hempty
      exact timed_of_empty hsince (hw.trans hempty) (by rw [hleft, hwin, hoff]; simp)
    · have hwin : g.pipeline.smoother.window ≠ [] := by
        rw [← hf.window]
        exact fun hnil => hempty (List.map_eq_nil_iff.mp hnil)
      have hon : (g.turn I t).left = true := by
        rw [hleft, hb]
        simp [hwin]
      refine ⟨hsince, hstamp, fun hoff => ?_, fun _ => ⟨hw ▸ hempty, fun q hq => ?_⟩⟩
      · exact absurd (hoff.symm.trans hon) Bool.false_ne_true
      · exact (h.stamped q (hw ▸ hq)).trans_le hlate

lemma turn_timed {g : StrokeTrace R σ} (hf : g.Follows) (h : g.Timed) {t : Turn R}
    (ha : g.Apart t) : (g.turn I t).Timed := by
  have hsince := strokeSince_le g.pipeline h.since_le t
  cases hfeed : g.pipeline.feed t with
  | clears =>
    have hw : (g.turn I t).window = [] := by simp [turn, hfeed, Feed.window]
    exact timed_of_empty hsince hw (by simp [turn, leftAfter, hfeed])
  | drains q =>
    have hw : (g.turn I t).window = [] := by simp [turn, hfeed, Feed.window]
    exact timed_of_empty hsince hw (by simp [turn, leftAfter, hfeed])
  | begins q =>
    have hw : (g.turn I t).window = [(g.now, q), (g.now, q)] := by simp [turn, hfeed, Feed.window]
    have hnow : (g.turn I t).since = g.now := strokeSince_begins hfeed _ _
    have hleft : (g.turn I t).left = false := by simp [turn, leftAfter, hfeed]
    refine ⟨hsince, fun r hr => ?_, fun _ r hr => ?_, fun h => ?_⟩
    · obtain rfl : r = (g.now, q) := by simpa [hw] using hr
      exact Nat.lt_succ_self _
    · obtain rfl : r = (g.now, q) := by simpa [hw] using hr
      exact hnow.le
    · exact absurd (hleft.symm.trans h) Bool.false_ne_true
  | adds q =>
    have hoff : g.left = false := ha (by rw [hfeed]; rfl)
    have hw : (g.turn I t).window = slide g.window (g.now, q) := by simp [turn, hfeed, Feed.window]
    have hsame : (g.turn I t).since = g.since := strokeSince_adds hfeed _ _
    have hleft : (g.turn I t).left = false := by simp [turn, leftAfter, hfeed, hoff]
    refine ⟨hsince, fun r hr => ?_, fun _ r hr => ?_, fun h => ?_⟩
    · rcases mem_slide (hw ▸ hr) with hr | rfl
      · exact (h.stamped r hr).trans (Nat.lt_succ_self _)
      · exact Nat.lt_succ_self _
    · rw [hsame]
      rcases mem_slide (hw ▸ hr) with hr | rfl
      · exact h.fresh hoff r hr
      · exact h.since_le
    · exact absurd (hleft.symm.trans h) Bool.false_ne_true
  | keeps => exact turn_timed_of_keeps I hf h hfeed

/-- **One turn.** Curves stay within their strokes unless a sample comes in after what a stroke
left behind. -/
lemma turn_fresh_iff {g : StrokeTrace R σ} (h : g.Timed) (hfresh : g.Fresh) (t : Turn R) :
    (g.turn I t).Fresh ↔ g.Apart t := by
  have hcurves : (g.turn I t).Fresh ↔ ∀ c ∈ g.curvesOf (g.pipeline.feed t), c.Fresh :=
    List.forall_mem_append.trans (and_iff_right hfresh)
  have hone (q : Point R) (qs : List (Point R)) :
      Curve.Fresh ⟨g.since, slide g.window (g.now, q), qs⟩ ↔ g.left = false := by
    constructor
    · intro hall
      by_contra hon
      obtain ⟨hne, hold⟩ := h.stale (by simpa using hon)
      obtain ⟨b, hb, hin⟩ := exists_mem_slide hne (g.now, q)
      have hlt := hold b hb
      have hle : g.since ≤ b.1 := hall b hin
      omega
    · intro hoff b hb
      rcases mem_slide hb with hb | rfl
      · exact h.fresh hoff b hb
      · exact h.since_le
  rw [hcurves]
  unfold Apart
  cases g.pipeline.feed t with
  | keeps | begins q | clears => simp [curvesOf, Feed.samples]
  | adds q =>
    rw [curvesOf, List.forall_mem_singleton, hone]
    exact ⟨fun h _ => h, fun h => h rfl⟩
  | drains q =>
    rw [curvesOf, List.forall_mem_singleton, hone]
    exact ⟨fun h _ => h, fun h => h rfl⟩

lemma run_follows (i : σ) (ts : List (Turn R)) :
    (run I i ts).pipeline = (PointerPipeline.init i).turns I ts ∧ (run I i ts).Follows := by
  induction ts using List.reverseRecOn with
  | nil => exact ⟨rfl, init_follows i⟩
  | append_singleton ts t ih =>
    rw [run, PointerPipeline.turns, List.foldl_append, List.foldl_append]
    exact ⟨congrArg (fun p => PointerPipeline.turn I p t) ih.1, turn_follows I ih.2 t⟩

/-- As long as no curve has joined two strokes, it is known what the window holds. -/
lemma run_timed (i : σ) (ts : List (Turn R)) : (run I i ts).Fresh → (run I i ts).Timed := by
  induction ts using List.reverseRecOn with
  | nil => exact fun _ => init_timed i
  | append_singleton ts t ih =>
    have hf : (run I i ts).Follows := (run_follows I i ts).2
    rw [run, List.foldl_append]
    intro hfresh
    have hbefore : (run I i ts).Fresh := fun c hc => hfresh c (List.mem_append_left _ hc)
    have htimed := ih hbefore
    exact turn_timed I hf htimed ((turn_fresh_iff I htimed hbefore t).mp hfresh)

/-- **The smoother joins two strokes exactly when a sample comes in after what a stroke left in
its window.** A stroke leaves something there when it begins or ends with a relative message, or
ends while smoothing is off, and nothing clears the window after that. -/
theorem run_fresh_iff (i : σ) (ts : List (Turn R)) :
    (∀ n, (run I i (ts.take n)).pipeline = (PointerPipeline.init i).turns I (ts.take n) ∧
      (run I i (ts.take n)).Follows) ∧
    ((∀ n, (run I i (ts.take n)).Fresh) ↔
      ∀ n t, ts[n]? = some t → (run I i (ts.take n)).Apart t) := by
  refine ⟨fun n => run_follows I i _, ?_⟩
  have htimed := fun n => run_timed I i (ts.take n)
  have hstep (g : StrokeTrace R σ) (t : Turn R) (h : g.Follows ∧ g.Timed ∧ g.Fresh) :
      ((g.turn I t).Follows ∧ (g.turn I t).Timed ∧ (g.turn I t).Fresh) ↔ g.Apart t := by
    obtain ⟨hf, ht, hfresh⟩ := h
    have hiff := turn_fresh_iff I ht hfresh t
    exact ⟨fun h => hiff.mp h.2.2,
      fun ha => ⟨turn_follows I hf t, turn_timed I hf ht ha, hiff.mpr ha⟩⟩
  have hexact := holds_along_iff hstep (s := init i)
    ⟨init_follows i, init_timed i, fun c hc => absurd hc List.not_mem_nil⟩ ts
  refine Iff.trans (forall_congr' fun n => ?_) hexact
  exact ⟨fun h => ⟨(run_follows I i _).2, htimed n h, h⟩, fun h => h.2.2⟩

/-- A stroke is lifted while smoothing is off; then the pen hovers somewhere else. -/
def toggled : List (Turn ℚ) :=
  let send (m : Pointer) : Turn ℚ := .event (.pointer ⟨none, none⟩ none m)
  [.event (.setEnabled true), .event (.tune true 3 (1 / 2)),
    send { action := .down, x := 0, y := 0 }, .event (.tune false 3 (1 / 2)),
    send { action := .up, x := 0, y := 0 }, .event (.tune true 3 (1 / 2)),
    send { action := .hover, x := 100, y := 0 }, send { action := .hover, x := 200, y := 0 }]

theorem toggled_joins :
    ∃ c ∈ (run willing () toggled).curves, c.points ≠ [] ∧ ∃ q ∈ c.sources, q.1 < c.since := by
  decide +kernel

end StrokeTrace

end Digitiz
