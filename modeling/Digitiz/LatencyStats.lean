import Mathlib.Algebra.BigOperators.Group.List.Basic
import Mathlib.Algebra.Order.Field.Basic
import Mathlib.Algebra.Order.Ring.Abs
import Mathlib.Tactic.Linarith
import Mathlib.Tactic.Ring
import Digitiz.RingCells

/-!
What the host measures of the link.

Latencies are kept in a window of a fixed size, so that an old spike ages out. How far the clock of
the guest is from that of the host is estimated from the round trip that was the shortest so far;
an answer was given at some moment between the question and its arrival, so the estimate is off by
half of that round trip at the most. Times are microseconds, without bound.
-/

namespace Digitiz

/-! ### The window of latencies -/

def LatencyStats.kWindow : ℕ := 120

open LatencyStats in
structure LatencyStats (R : Type) where
  samples : List R
  samples_length : samples.length = kWindow
  next : ℕ
  filled : ℕ
  last : R
  total : ℕ

namespace LatencyStats

variable {R : Type} [Field R] [LinearOrder R]

def init : LatencyStats R where
  samples := List.replicate kWindow 0
  samples_length := List.length_replicate
  next := 0
  filled := 0
  last := 0
  total := 0

def add (s : LatencyStats R) (ms : R) : LatencyStats R where
  samples := s.samples.set s.next ms
  samples_length := by rw [List.length_set, s.samples_length]
  next := (s.next + 1) % kWindow
  filled := if s.filled < kWindow then s.filled + 1 else s.filled
  last := ms
  total := s.total + 1

def reset (s : LatencyStats R) : LatencyStats R :=
  { s with next := 0, filled := 0, last := 0, total := 0 }

def empty (s : LatencyStats R) : Bool := s.filled = 0

def min (s : LatencyStats R) : R := (s.samples.take s.filled).min?.getD 0

def max (s : LatencyStats R) : R := (s.samples.take s.filled).max?.getD 0

def average (s : LatencyStats R) : R :=
  if s.filled = 0 then 0 else (s.samples.take s.filled).sum / (s.filled : R)

omit [LinearOrder R] in
lemma foldl_add_ring (s : LatencyStats R) (xs : List R) :
    let t := xs.foldl add s.reset
    RingCells kWindow t.samples t.next t.filled xs := by
  induction xs using List.reverseRecOn with
  | nil => exact .nil s.samples_length (by decide)
  | append_singleton xs x ih =>
    rw [List.foldl_concat]
    exact ih.push (by decide) x

omit [LinearOrder R] in
lemma foldl_add_total (s : LatencyStats R) (xs : List R) :
    (xs.foldl add s.reset).total = xs.length ∧
      (xs.foldl add s.reset).last = xs.getLastD 0 := by
  induction xs using List.reverseRecOn with
  | nil => exact ⟨rfl, rfl⟩
  | append_singleton xs x ih =>
    rw [List.foldl_concat]
    exact ⟨by simp [add, ih.1], by simp [add]⟩

/-- **An old spike ages out.** Whatever was measured before a reset, the figures that are shown are
those of the last 120 latencies after it, all of them as long as there are no more. -/
theorem window (s : LatencyStats R) (xs : List R) :
    let t := xs.foldl add s.reset
    let w := xs.rtake kWindow
    t.total = xs.length ∧ t.last = xs.getLastD 0 ∧ t.filled = w.length ∧
      (w ≠ [] → (t.min ∈ w ∧ ∀ x ∈ w, t.min ≤ x) ∧ t.max ∈ w ∧ ∀ x ∈ w, x ≤ t.max) ∧
      t.average = w.sum / (w.length : R) := by
  intro t w
  have hring : RingCells kWindow t.samples t.next t.filled xs := s.foldl_add_ring xs
  have hperm : (t.samples.take t.filled).Perm w := hring.perm
  obtain ⟨htotal, hlast⟩ := s.foldl_add_total xs
  have hfilled : t.filled = w.length := by
    rw [← hperm.length_eq, List.length_take, hring.cells_length, hring.filled_eq]
    omega
  have hne : w ≠ [] → t.samples.take t.filled ≠ [] := fun hw hc =>
    hw (List.nil_perm.mp (hc ▸ hperm))
  refine ⟨htotal, hlast, hfilled, fun hw => ⟨?_, ?_⟩, ?_⟩
  · obtain ⟨m, hm⟩ := Option.isSome_iff_exists.mp (List.isSome_min?_of_ne_nil (hne hw))
    obtain ⟨hmem, hle⟩ := List.min?_eq_some_iff.mp hm
    rw [show t.min = m by rw [LatencyStats.min, hm]; rfl]
    exact ⟨hperm.subset hmem, fun x hx => hle x (hperm.symm.subset hx)⟩
  · obtain ⟨m, hm⟩ := Option.isSome_iff_exists.mp (List.isSome_max?_of_ne_nil (hne hw))
    obtain ⟨hmem, hle⟩ := List.max?_eq_some_iff.mp hm
    rw [show t.max = m by rw [LatencyStats.max, hm]; rfl]
    exact ⟨hperm.subset hmem, fun x hx => hle x (hperm.symm.subset hx)⟩
  · unfold average
    rw [hperm.sum_eq]
    split_ifs with h0
    · rw [hfilled] at h0
      simp [h0]
    · rw [hfilled]

end LatencyStats

/-! ### The two clocks -/

structure ClockSync (R : Type) where
  haveOffset : Bool
  bestRttUs : ℤ
  offsetUs : R

namespace ClockSync

variable {R : Type} [Field R] [LinearOrder R]

def init : ClockSync R := ⟨false, 0, 0⟩

/-- A round trip, with the moment on the guest's clock at which it was answered. -/
def observe (c : ClockSync R) (hostSendUs guestReplyUs hostRecvUs : ℤ) : ClockSync R :=
  if hostRecvUs < hostSendUs then c
  else
    let rtt := hostRecvUs - hostSendUs
    if c.haveOffset ∧ rtt > c.bestRttUs then c
    else ⟨true, rtt, (guestReplyUs : R) - ((hostSendUs : R) + (rtt : R) / (2 : ℕ))⟩

def reset (_ : ClockSync R) : ClockSync R := init

def ready (c : ClockSync R) : Bool := c.haveOffset

/-- A moment of the guest on the clock of the host. -/
def toHostUs (c : ClockSync R) (guestUs : ℤ) : R := (guestUs : R) - c.offsetUs

/-- If there is an estimate, it is off by half the shortest round trip at the most. -/
structure Near (skew : ℤ) (c : ClockSync R) : Prop where
  rtt : c.haveOffset = true → 0 ≤ c.bestRttUs
  offset : c.haveOffset = true → |c.offsetUs - skew| ≤ (c.bestRttUs : R) / (2 : ℕ)

lemma Near.init (skew : ℤ) : Near skew (init : ClockSync R) := ⟨nofun, nofun⟩

/-- The estimate was made from the shortest of these round trips, if there were any. -/
structure Shortest (trips : List ℤ) (c : ClockSync R) : Prop where
  none : c.haveOffset = false → trips = []
  least : c.haveOffset = true → IsLeast { r | r ∈ trips } c.bestRttUs

omit [LinearOrder R] in
lemma Shortest.init : Shortest [] (init : ClockSync R) :=
  ⟨fun _ => rfl, fun h => absurd h Bool.false_ne_true⟩

omit [LinearOrder R] in
/-- A round trip more. -/
lemma Shortest.observe {trips : List ℤ} {c : ClockSync R} (h : Shortest trips c) {sent arrived : ℤ}
    (hle : sent ≤ arrived) (reply : ℤ) :
    Shortest (trips ++ [arrived - sent]) (c.observe sent reply arrived) := by
  unfold ClockSync.observe
  rw [if_neg (not_lt.mpr hle)]
  dsimp only
  split_ifs with hlong
  · -- a longer one changes nothing
    obtain ⟨hin, hmin⟩ := h.least hlong.1
    refine ⟨fun hno => absurd (hno.symm.trans hlong.1) Bool.false_ne_true,
      fun _ => ⟨List.mem_append_left _ hin, fun r hr => ?_⟩⟩
    obtain hr | hr := List.mem_append.mp hr
    · exact hmin hr
    · exact (List.mem_singleton.mp hr) ▸ hlong.2.le
  · refine ⟨fun hno => absurd hno.symm Bool.false_ne_true,
      fun _ => ⟨by simp, fun r hr => ?_⟩⟩
    obtain hr | hr := List.mem_append.mp hr
    · cases ho : c.haveOffset with
      | false => exact absurd (h.none ho ▸ hr) List.not_mem_nil
      | true =>
        have hbest : arrived - sent ≤ c.bestRttUs := not_lt.mp fun hno => hlong ⟨ho, hno⟩
        exact hbest.trans ((h.least ho).2 hr)
    · exact (List.mem_singleton.mp hr).ge

variable [IsStrictOrderedRing R] {skew : ℤ} {c : ClockSync R}

/-- **A round trip.** The answer was given after the question was asked and before it arrived. -/
theorem Near.observe (h : Near skew c) {sent answered arrived : ℤ} (hs : sent ≤ answered)
    (ha : answered ≤ arrived) : Near skew (c.observe sent (answered + skew) arrived) := by
  have hmid : |((answered + skew : ℤ) : R) - ((sent : R) + ((arrived - sent : ℤ) : R) / (2 : ℕ)) -
      skew| ≤ ((arrived - sent : ℤ) : R) / (2 : ℕ) := by
    have hs' : (sent : R) ≤ answered := by exact_mod_cast hs
    have ha' : (answered : R) ≤ arrived := by exact_mod_cast ha
    rw [abs_le]
    push_cast
    constructor <;> linarith
  unfold ClockSync.observe
  split_ifs
  · exact h
  · dsimp only
    split_ifs
    · exact h
    · exact ⟨fun _ => by show 0 ≤ arrived - sent; omega, fun _ => hmid⟩

omit [IsStrictOrderedRing R] in
/-- A moment of the guest is placed as well as its clock is known. -/
lemma Near.toHostUs (h : Near skew c) (hready : c.ready = true) (guestUs : ℤ) :
    |c.toHostUs guestUs - ((guestUs - skew : ℤ) : R)| ≤ (c.bestRttUs : R) / (2 : ℕ) := by
  have hoff := h.offset hready
  have he : c.toHostUs guestUs - ((guestUs - skew : ℤ) : R) = -(c.offsetUs - skew) := by
    unfold ClockSync.toHostUs
    push_cast
    ring
  rw [he, abs_neg]
  exact hoff

end ClockSync

end Digitiz
