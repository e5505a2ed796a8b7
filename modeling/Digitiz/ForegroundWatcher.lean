import Mathlib.Data.Int.Notation
import Mathlib.Data.Nat.Init
import Mathlib.Order.Monotone.Basic

/-!
Which program has the focus.

The foreground window is asked for once a frame, and a change of program is reported once it has
held still for a moment. A switch from one program to another passes through the shell, and what
the focus passes through on its way is not reported.

A poll sees a window or none, and reads the clock at most twice: when the window is not the one it
saw last, and when a change may have settled. Times are nanoseconds of a clock that never goes
back.
-/

namespace Digitiz

structure ForegroundWindow where
  pid : UInt32 := 0
  /-- Bare executable name in UTF-8, and empty when the window could not be identified. -/
  process : List UInt8 := []
  deriving DecidableEq, Repr

/-- What the system says of windows and processes. -/
structure WindowSystem (W : Type) where
  windowProcessId : W → UInt32
  /-- The path of the image a process runs, if the process lets itself be opened and named. -/
  imageName : UInt32 → Option (List UInt16)
  wideCharToMultiByte : List UInt16 → List UInt8

namespace WindowSystem

variable {W : Type} (os : WindowSystem W)

def narrow (s : List UInt16) : List UInt8 := if s = [] then [] else os.wideCharToMultiByte s

/-- What lies behind the last separator of either kind. -/
def afterSeparators : List UInt16 → List UInt16 → List UInt16
  | [], start => start
  | c :: rest, start => afterSeparators rest (if c = 92 ∨ c = 47 then rest else start)

/-- The file name, not the path. -/
def processNameOf (pid : UInt32) : List UInt8 :=
  if pid = 0 then []
  else match os.imageName pid with
    | none => []
    | some path => os.narrow (afterSeparators path path)

/-- The program a window belongs to. -/
def program (hwnd : W) : ForegroundWindow where
  pid := os.windowProcessId hwnd
  process := os.processNameOf (os.windowProcessId hwnd)

end WindowSystem

/-- What a poll finds. -/
structure FocusPoll (W : Type) where
  hwnd : Option W
  /-- The clock when the window turns out to be another one. -/
  switchedAt : ℤ
  /-- The clock when a pending change is looked at. -/
  checkedAt : ℤ

structure ForegroundWatcher (W : Type) where
  lastHwnd : Option W := none
  pending : ForegroundWindow := {}
  current : ForegroundWindow := {}
  pendingSince : ℤ := 0
  settling : Bool := false
  seen : Bool := false

namespace ForegroundWatcher

variable {W : Type}

def kSettleDelay : ℤ := 200000000

/-- Reports the pending change if it has held still for long enough. -/
def settle (s : ForegroundWatcher W) (now : ℤ) : ForegroundWatcher W × Option ForegroundWindow :=
  if !s.settling || now - s.pendingSince < kSettleDelay then (s, none)
  else ({ s with settling := false, seen := true, current := s.pending }, some s.pending)

/-- What was reported last, as the watcher remembers it. -/
def told (s : ForegroundWatcher W) : Option ForegroundWindow :=
  if s.seen then some s.current else none

section poll

variable [DecidableEq W] (os : WindowSystem W)

def poll (s : ForegroundWatcher W) (p : FocusPoll W) :
    ForegroundWatcher W × Option ForegroundWindow :=
  match p.hwnd with
  | none => (s, none)
  | some hwnd =>
    if s.lastHwnd ≠ some hwnd then
      let fresh := os.program hwnd
      -- another window of the program the focus was on already
      if s.seen ∧ fresh = s.pending then ({ s with lastHwnd := some hwnd }, none)
      else
        { s with
          lastHwnd := some hwnd, pending := fresh, pendingSince := p.switchedAt
          settling := fresh ≠ s.current || !s.seen }.settle p.checkedAt
    else s.settle p.checkedAt

/-! ### Traces -/

variable (polls : ℕ → FocusPoll W)

/-- The watcher before a poll. -/
def stateAt : ℕ → ForegroundWatcher W
  | 0 => {}
  | n + 1 => ((stateAt n).poll os (polls n)).1

/-- What a poll reports. -/
def reported (n : ℕ) : Option ForegroundWindow := ((stateAt os polls n).poll os (polls n)).2

/-- The last report made before a poll. -/
def lastReport : ℕ → Option ForegroundWindow
  | 0 => none
  | n + 1 => (reported os polls n).or (lastReport n)

/-- The polls in a range that saw a window saw this program. -/
def SawOnly (i n : ℕ) (prg : ForegroundWindow) : Prop :=
  ∀ m, i ≤ m → m < n → ∀ hwnd, (polls m).hwnd = some hwnd → os.program hwnd = prg

/-- The clock is read in the order of the polls and never goes back. -/
def NeverBack : Prop := ∀ n, (polls n).switchedAt ≤ (polls n).checkedAt ∧
  (polls n).checkedAt ≤ (polls (n + 1)).switchedAt

/-- The focus rests on a program from one poll to another, for at least the delay. Both see a
window, and the last one sees the window that was seen last before it. -/
structure Rests (i j : ℕ) (prg : ForegroundWindow) : Prop where
  le : i ≤ j
  sawFirst : (polls i).hwnd.isSome
  sawOnly : SawOnly os polls i (j + 1) prg
  sawAgain : ∃ hwnd, (polls j).hwnd = some hwnd ∧ ∃ m < j, (polls m).hwnd = some hwnd ∧
    ∀ k, m < k → k < j → (polls k).hwnd = none
  long : (polls i).switchedAt + kSettleDelay ≤ (polls j).checkedAt

end poll

variable {os : WindowSystem W} {polls : ℕ → FocusPoll W}

lemma SawOnly.succ {i n : ℕ} {prg : ForegroundWindow} (h : SawOnly os polls i n prg)
    (hn : ∀ hwnd, (polls n).hwnd = some hwnd → os.program hwnd = prg) :
    SawOnly os polls i (n + 1) prg := by
  intro m him hmn hwnd hsaw
  rcases Nat.lt_succ_iff_lt_or_eq.mp hmn with hlt | rfl
  · exact h m him hlt hwnd hsaw
  · exact hn hwnd hsaw

lemma sawOnly_single {n : ℕ} {hwnd : W} (h : (polls n).hwnd = some hwnd) :
    SawOnly os polls n (n + 1) (os.program hwnd) := by
  intro m hle hlt hwnd' hsaw
  obtain rfl : m = n := Nat.le_antisymm (Nat.lt_succ_iff.mp hlt) hle
  rw [Option.some.inj (hsaw.symm.trans h)]

/-- All settling can do. -/
lemma settle_cases (s : ForegroundWatcher W) (now : ℤ) :
    ((s.settling → now < s.pendingSince + kSettleDelay) ∧ s.settle now = (s, none)) ∨
    s.settling ∧ s.pendingSince + kSettleDelay ≤ now ∧
      s.settle now =
        ({ s with settling := false, seen := true, current := s.pending }, some s.pending) := by
  unfold settle
  split_ifs with h
  · rw [Bool.or_eq_true, Bool.not_eq_true', decide_eq_true_iff] at h
    refine Or.inl ⟨fun hset => ?_, rfl⟩
    rw [hset] at h
    have hlt := h.resolve_left Bool.noConfusion
    omega
  · rw [Bool.or_eq_true, Bool.not_eq_true', decide_eq_true_iff, not_or, Bool.not_eq_false,
      Int.not_lt] at h
    exact Or.inr ⟨h.1, by omega, rfl⟩

/-! ### What the watcher knows -/

/-- The watcher keeps track of the polls before one of them. -/
structure Tracks (os : WindowSystem W) (polls : ℕ → FocusPoll W) (n : ℕ)
    (s : ForegroundWatcher W) : Prop where
  /-- The pending program is that of the last window. -/
  pending_eq : ∀ hwnd, s.lastHwnd = some hwnd → os.program hwnd = s.pending
  /-- At rest it was reported. -/
  current_eq : s.seen → ¬s.settling → s.current = s.pending
  /-- While it settles it was not. -/
  current_ne : s.seen → s.settling → s.current ≠ s.pending
  /-- It settles from a poll that saw it, and nothing else was seen from then on. -/
  held : s.settling → ∃ k < n, s.pendingSince = (polls k).switchedAt ∧
    (polls k).hwnd.isSome ∧ SawOnly os polls k n s.pending

lemma tracks_init : Tracks os polls 0 {} where
  pending_eq _ h := nomatch h
  current_eq h := nomatch h
  current_ne h := nomatch h
  held h := nomatch h

lemma Tracks.settle {n : ℕ} {s : ForegroundWatcher W} (h : Tracks os polls n s) (now : ℤ) :
    Tracks os polls n (s.settle now).1 := by
  obtain ⟨-, heq⟩ | ⟨-, -, heq⟩ := s.settle_cases now
  · rw [heq]
    exact h
  · rw [heq]
    exact ⟨h.pending_eq, fun _ _ => rfl, fun _ => Bool.noConfusion, Bool.noConfusion⟩

/-- A poll that saw the pending program, or nothing, changes nothing. -/
lemma Tracks.still {n : ℕ} {s : ForegroundWatcher W} (h : Tracks os polls n s)
    (hn : ∀ hwnd, (polls n).hwnd = some hwnd → os.program hwnd = s.pending) :
    Tracks os polls (n + 1) s := by
  refine ⟨h.pending_eq, h.current_eq, h.current_ne, fun hset => ?_⟩
  obtain ⟨k, hk, hsince, hsome, hsaw⟩ := h.held hset
  exact ⟨k, Nat.lt_succ_of_lt hk, hsince, hsome, hsaw.succ hn⟩

/-- A window of the pending program takes the place of the last. -/
lemma Tracks.sameProgram {n : ℕ} {s : ForegroundWatcher W} (h : Tracks os polls n s) {hwnd : W}
    (hsame : os.program hwnd = s.pending) :
    Tracks os polls n { s with lastHwnd := some hwnd } :=
  ⟨fun _ heq => Option.some.inj heq ▸ hsame, h.current_eq, h.current_ne, h.held⟩

/-- The watcher with a window in front of it that it has not seen. -/
def switched (s : ForegroundWatcher W) (fresh : ForegroundWindow) (hwnd : W) (now : ℤ) :
    ForegroundWatcher W :=
  { s with
    lastHwnd := some hwnd, pending := fresh, pendingSince := now
    settling := fresh ≠ s.current || !s.seen }

/-- A change begins to settle, or is taken back. -/
lemma tracks_switched (s : ForegroundWatcher W) {n : ℕ} {hwnd : W}
    (hsaw : (polls n).hwnd = some hwnd) :
    Tracks os polls (n + 1) (s.switched (os.program hwnd) hwnd (polls n).switchedAt) where
  pending_eq _ heq := congrArg os.program (Option.some.inj heq).symm
  current_eq hseen hrest := by
    have hseen : s.seen = true := hseen
    simp only [switched, hseen, Bool.not_true, Bool.or_false, decide_eq_true_iff, not_not] at hrest
    exact hrest.symm
  current_ne hseen hset := by
    have hseen : s.seen = true := hseen
    simp only [switched, hseen, Bool.not_true, Bool.or_false, decide_eq_true_iff] at hset
    exact hset.symm
  held _ := ⟨n, n.lt_succ_self, rfl, by rw [hsaw]; rfl, sawOnly_single hsaw⟩

lemma NeverBack.switched_le (h : NeverBack polls) {m k : ℕ} (hmk : m ≤ k) :
    (polls m).switchedAt ≤ (polls k).switchedAt := by
  induction k, hmk using Nat.le_induction with
  | base => exact Int.le_refl _
  | succ k hmk ih => exact ih.trans ((h k).1.trans (h k).2)

lemma NeverBack.checked_le (h : NeverBack polls) {m k : ℕ} (hmk : m < k) :
    (polls m).checkedAt ≤ (polls k).switchedAt := (h m).2.trans (h.switched_le hmk)

/-- While it settles, it does so from an earlier poll. -/
lemma Tracks.since_le {n : ℕ} {s : ForegroundWatcher W} (h : Tracks os polls n s)
    (hclock : NeverBack polls) (hset : s.settling) : s.pendingSince ≤ (polls n).switchedAt := by
  obtain ⟨k, hk, hsince, -⟩ := h.held hset
  exact hsince.trans_le (hclock.switched_le hk.le)

/-- The watcher waits for a program or has reported it, and not from later on than a time. -/
def Keeps (prg : ForegroundWindow) (since : ℤ) (s : ForegroundWatcher W) : Prop :=
  s.pending = prg ∧ (s.seen → s.settling → s.pendingSince ≤ since)

lemma Keeps.settle {prg : ForegroundWindow} {since : ℤ} {s : ForegroundWatcher W}
    (h : Keeps prg since s) (now : ℤ) : Keeps prg since (s.settle now).1 := by
  obtain ⟨-, heq⟩ | ⟨-, -, heq⟩ := s.settle_cases now
  · rw [heq]
    exact h
  · rw [heq]
    exact ⟨h.1, fun _ => Bool.noConfusion⟩

/-! ### Polls -/

variable [DecidableEq W]

/-- All a poll can do. -/
lemma poll_cases (os : WindowSystem W) (s : ForegroundWatcher W) (p : FocusPoll W) :
    (p.hwnd = none ∧ s.poll os p = (s, none)) ∨
    ∃ hwnd, p.hwnd = some hwnd ∧
      ((s.seen ∧ os.program hwnd = s.pending ∧
          s.poll os p = ({ s with lastHwnd := some hwnd }, none)) ∨
        (s.lastHwnd = some hwnd ∧ s.poll os p = s.settle p.checkedAt) ∨
        ((s.seen → os.program hwnd ≠ s.pending) ∧
          s.poll os p =
            (s.switched (os.program hwnd) hwnd p.switchedAt).settle p.checkedAt)) := by
  unfold poll
  cases hsaw : p.hwnd with
  | none => exact Or.inl ⟨rfl, rfl⟩
  | some hwnd =>
    refine Or.inr ⟨hwnd, rfl, ?_⟩
    dsimp only
    by_cases hlast : s.lastHwnd = some hwnd
    · rw [if_neg (not_not.mpr hlast)]
      exact Or.inr (Or.inl ⟨hlast, rfl⟩)
    · rw [if_pos hlast]
      by_cases hsame : s.seen ∧ os.program hwnd = s.pending
      · rw [if_pos hsame]
        exact Or.inl ⟨hsame.1, hsame.2, rfl⟩
      · rw [if_neg hsame]
        exact Or.inr (Or.inr ⟨fun hseen hp => hsame ⟨hseen, hp⟩, rfl⟩)

/-- A report is what is told from then on. -/
lemma poll_told (s : ForegroundWatcher W) (p : FocusPoll W) :
    (s.poll os p).1.told = (s.poll os p).2.or s.told := by
  have hsettle (t : ForegroundWatcher W) (now : ℤ) :
      (t.settle now).1.told = (t.settle now).2.or t.told := by
    obtain ⟨-, h⟩ | ⟨-, -, h⟩ := t.settle_cases now
    · rw [h, Option.none_or]
    · rw [h]
      rfl
  obtain ⟨-, h⟩ | ⟨hwnd, -, ⟨-, -, h⟩ | ⟨-, h⟩ | ⟨-, h⟩⟩ := poll_cases os s p
  · rw [h, Option.none_or]
  · rw [h]
    rfl
  · rw [h, hsettle]
  · rw [h, hsettle]
    rfl

lemma lastReport_eq (n : ℕ) : lastReport os polls n = (stateAt os polls n).told := by
  induction n with
  | zero => rfl
  | succ n ih => exact (congrArg _ ih).trans (poll_told _ _).symm

/-- What settles in a poll: the watcher as it was, or with another window in front of it. -/
lemma Tracks.poll_cases {n : ℕ} {s : ForegroundWatcher W} (h : Tracks os polls n s) :
    (∃ t, Tracks os polls (n + 1) t ∧ t.seen = s.seen ∧ s.poll os (polls n) = (t, none)) ∨
    ∃ t, Tracks os polls (n + 1) t ∧ t.told = s.told ∧
      s.poll os (polls n) = t.settle (polls n).checkedAt := by
  obtain ⟨hnone, heq⟩ | ⟨hwnd, hsaw, ⟨-, hsame, heq⟩ | ⟨hlast, heq⟩ | ⟨-, heq⟩⟩ :=
    ForegroundWatcher.poll_cases os s (polls n)
  · exact Or.inl ⟨s, h.still fun _ hsaw => (nomatch hsaw.symm.trans hnone), rfl, heq⟩
  · refine Or.inl ⟨_, (h.still fun w hw => ?_).sameProgram hsame, rfl, heq⟩
    exact Option.some.inj (hw.symm.trans hsaw) ▸ hsame
  · refine Or.inr ⟨s, h.still fun w hw => ?_, rfl, heq⟩
    exact Option.some.inj (hw.symm.trans hsaw) ▸ h.pending_eq hwnd hlast
  · exact Or.inr ⟨_, tracks_switched s hsaw, rfl, heq⟩

lemma tracks_stateAt (n : ℕ) : Tracks os polls n (stateAt os polls n) := by
  induction n with
  | zero => exact tracks_init
  | succ n ih =>
    show Tracks os polls (n + 1) ((stateAt os polls n).poll os (polls n)).1
    obtain ⟨t, ht, -, heq⟩ | ⟨t, ht, -, heq⟩ := ih.poll_cases
    · rw [heq]
      exact ht
    · rw [heq]
      exact ht.settle _

/-- **A report has settled.** It is news, and it was seen by a poll at least the delay ago and by
every poll from then on that saw anything. -/
theorem reported_settled {n : ℕ} {prg : ForegroundWindow} (h : reported os polls n = some prg) :
    lastReport os polls n ≠ some prg ∧
      ∃ k ≤ n, (polls k).switchedAt + kSettleDelay ≤ (polls n).checkedAt ∧
        (polls k).hwnd.isSome ∧ SawOnly os polls k (n + 1) prg := by
  unfold reported at h
  have htracks : Tracks os polls n (stateAt os polls n) := tracks_stateAt n
  obtain ⟨t, -, -, heq⟩ | ⟨t, ht, htold, heq⟩ := htracks.poll_cases
  · rw [heq] at h
    exact nomatch h
  · rw [heq] at h
    obtain ⟨-, hstill⟩ | ⟨hset, hlate, hrep⟩ := t.settle_cases (polls n).checkedAt
    · rw [hstill] at h
      exact nomatch h
    · rw [hrep] at h
      obtain rfl := Option.some.inj h
      constructor
      · rw [lastReport_eq, ← htold]
        unfold told
        split_ifs with hseen
        · exact fun hsame => ht.current_ne hseen hset (Option.some.inj hsame)
        · exact Option.some_ne_none _ ∘ Eq.symm
      · obtain ⟨k, hk, hsince, hsome, hsaw⟩ := ht.held hset
        exact ⟨k, Nat.lt_succ_iff.mp hk, hsince ▸ hlate, hsome, hsaw⟩

/-! ### Coming to rest -/

/-- A poll that sees the program. Only a watcher that waits for another one starts anew. -/
lemma Tracks.keeps_poll {n : ℕ} {s : ForegroundWatcher W} (h : Tracks os polls n s) {hwnd : W}
    (hsaw : (polls n).hwnd = some hwnd) {since : ℤ}
    (hsince : s.seen → s.pending = os.program hwnd → s.settling → s.pendingSince ≤ since)
    (hnow : s.seen → s.pending ≠ os.program hwnd → (polls n).switchedAt ≤ since) :
    Keeps (os.program hwnd) since (s.poll os (polls n)).1 := by
  obtain ⟨hnone, -⟩ | ⟨w, hw, hcase⟩ := ForegroundWatcher.poll_cases os s (polls n)
  · exact nomatch hsaw.symm.trans hnone
  · obtain rfl := Option.some.inj (hw.symm.trans hsaw)
    obtain ⟨hseen, hsame, heq⟩ | ⟨hlast, heq⟩ | ⟨hother, heq⟩ := hcase
    · rw [heq]
      exact ⟨hsame.symm, fun _ => hsince hseen hsame.symm⟩
    · rw [heq]
      have hsame := h.pending_eq w hlast
      exact Keeps.settle ⟨hsame.symm, fun hseen => hsince hseen hsame.symm⟩ _
    · rw [heq]
      refine Keeps.settle (s := s.switched _ w _) ⟨rfl, fun hseen _ => ?_⟩ _
      exact hnow hseen fun hsame => hother hseen hsame.symm

lemma keeps_stateAt (hclock : NeverBack polls) {i n : ℕ} (hin : i < n) {prg : ForegroundWindow}
    (hfirst : (polls i).hwnd.isSome) (hsaw : SawOnly os polls i n prg) :
    Keeps prg (polls i).switchedAt (stateAt os polls n) := by
  induction n, hin using Nat.le_induction with
  | base =>
    obtain ⟨hwnd, hw⟩ := Option.isSome_iff_exists.mp hfirst
    have htracks : Tracks os polls i (stateAt os polls i) := tracks_stateAt i
    rw [← hsaw i le_rfl i.lt_succ_self hwnd hw]
    exact htracks.keeps_poll hw (fun _ _ hset => htracks.since_le hclock hset) fun _ _ => le_rfl
  | succ n hin ih =>
    have hkeeps := ih fun m him hmn => hsaw m him (hmn.trans n.lt_succ_self)
    show Keeps prg _ ((stateAt os polls n).poll os (polls n)).1
    cases hw : (polls n).hwnd with
    | none =>
      unfold poll
      rw [hw]
      exact hkeeps
    | some hwnd =>
      have hprg := hsaw n (Nat.lt_of_succ_le hin).le n.lt_succ_self hwnd hw
      rw [← hprg] at hkeeps ⊢
      exact (tracks_stateAt n).keeps_poll hw (fun hseen _ => hkeeps.2 hseen)
        fun _ hne => absurd hkeeps.1 hne

/-- The last window is that of the last poll that saw one. -/
lemma lastHwnd_stateAt {m n : ℕ} (hmn : m < n) {hwnd : W} (hsaw : (polls m).hwnd = some hwnd)
    (hnone : ∀ k, m < k → k < n → (polls k).hwnd = none) :
    (stateAt os polls n).lastHwnd = some hwnd := by
  induction n, hmn using Nat.le_induction with
  | base =>
    have hsettle (t : ForegroundWatcher W) (now : ℤ) : (t.settle now).1.lastHwnd = t.lastHwnd := by
      obtain ⟨-, h⟩ | ⟨-, -, h⟩ := t.settle_cases now
      · rw [h]
      · rw [h]
    show ((stateAt os polls m).poll os (polls m)).1.lastHwnd = some hwnd
    obtain ⟨hno, -⟩ | ⟨w, hw, hcase⟩ :=
      ForegroundWatcher.poll_cases os (stateAt os polls m) (polls m)
    · exact nomatch hsaw.symm.trans hno
    · obtain rfl := Option.some.inj (hw.symm.trans hsaw)
      obtain ⟨-, -, h⟩ | ⟨hlast, h⟩ | ⟨-, h⟩ := hcase
      · rw [h]
      · rw [h, hsettle, hlast]
      · rw [h, hsettle]
        rfl
  | succ n hmn ih =>
    have hstill := ih fun k hmk hkn => hnone k hmk (hkn.trans n.lt_succ_self)
    show ((stateAt os polls n).poll os (polls n)).1.lastHwnd = some hwnd
    unfold poll
    rw [hnone n (Nat.lt_of_succ_le hmn) n.lt_succ_self]
    exact hstill

/-- **What comes to rest is reported.** -/
theorem Rests.lastReport_eq (hclock : NeverBack polls) {i j : ℕ} {prg : ForegroundWindow}
    (h : Rests os polls i j prg) (hsome : lastReport os polls (j + 1) ≠ none) :
    lastReport os polls (j + 1) = some prg := by
  obtain ⟨hwnd, hj, m, hm, hsaw, hnone⟩ := h.sawAgain
  have hlast : (stateAt os polls j).lastHwnd = some hwnd := lastHwnd_stateAt hm hsaw hnone
  have htracks : Tracks os polls j (stateAt os polls j) := tracks_stateAt j
  have hpending : (stateAt os polls j).pending = prg :=
    (htracks.pending_eq hwnd hlast).symm.trans (h.sawOnly j h.le j.lt_succ_self hwnd hj)
  have hsince : (stateAt os polls j).seen → (stateAt os polls j).settling →
      (stateAt os polls j).pendingSince ≤ (polls i).switchedAt := by
    intro hseen hset
    rcases h.le.eq_or_lt with rfl | hij
    · exact htracks.since_le hclock hset
    · exact (keeps_stateAt hclock hij h.sawFirst
        fun m him hmj => h.sawOnly m him (hmj.trans j.lt_succ_self)).2 hseen hset
  have hpoll : stateAt os polls (j + 1) =
      ((stateAt os polls j).settle (polls j).checkedAt).1 := by
    show ((stateAt os polls j).poll os (polls j)).1 = _
    unfold poll
    rw [hj]
    exact congrArg Prod.fst (if_neg (not_not.mpr hlast))
  rw [ForegroundWatcher.lastReport_eq, hpoll] at hsome ⊢
  obtain ⟨hearly, heq⟩ | ⟨-, -, heq⟩ := (stateAt os polls j).settle_cases (polls j).checkedAt
  · rw [heq] at hsome ⊢
    unfold told at hsome ⊢
    split_ifs at hsome ⊢ with hseen
    · have hrest : ¬(stateAt os polls j).settling := fun hset => by
        have hlong := h.long
        have := hsince hseen hset
        have := hearly hset
        omega
      rw [htracks.current_eq hseen hrest, hpending]
    · exact absurd rfl hsome
  · rw [heq]
    exact congrArg some hpending

/-- **The debounce is exact.** A report is news, and every poll that saw a window later than the
delay before it, back to a poll at least that old, saw the reported program. Once anything was
reported, a program that the focus rests on is the one that was reported last. -/
theorem debounce_exact (hclock : NeverBack polls) :
    (∀ n prg, reported os polls n = some prg →
      lastReport os polls n ≠ some prg ∧
        (∀ m ≤ n, (polls n).checkedAt - kSettleDelay < (polls m).checkedAt →
          ∀ hwnd, (polls m).hwnd = some hwnd → os.program hwnd = prg) ∧
        ∃ k ≤ n, (polls k).switchedAt + kSettleDelay ≤ (polls n).checkedAt ∧
          (polls k).hwnd.isSome ∧ SawOnly os polls k (n + 1) prg) ∧
      ∀ i j prg, Rests os polls i j prg → lastReport os polls (j + 1) ≠ none →
        lastReport os polls (j + 1) = some prg := by
  refine ⟨fun n prg hrep => ?_, fun i j prg hrests hsome => hrests.lastReport_eq hclock hsome⟩
  obtain ⟨hnews, k, hk, hlate, hsome, hsaw⟩ := reported_settled hrep
  refine ⟨hnews, fun m hm hduring => hsaw m ?_ (Nat.lt_succ_of_le hm), k, hk, hlate, hsome, hsaw⟩
  by_contra hmk
  have hbefore := hclock.checked_le (Nat.not_le.mp hmk)
  omega


/-- Two programs that do not let themselves be named. -/
def nameless : WindowSystem Bool :=
  ⟨fun other => if other then 9 else 7, fun _ => none, fun _ => []⟩

/-- Ten polls in a second. The window of the other program comes by once. -/
def bounce (n : ℕ) : FocusPoll Bool := ⟨some (n == 3), 100000000 * n, 100000000 * n⟩

/-- What the focus passed through was not reported. -/
theorem debounce_exact_bounce : lastReport nameless bounce 7 = some ⟨7, []⟩ := by
  have hclock : NeverBack bounce := fun n => by
    dsimp only [bounce]
    omega
  refine (debounce_exact hclock).2 4 6 ⟨7, []⟩ ⟨by omega, rfl, ?_, ?_, by decide⟩ (by decide)
  · intro m h4 h7 hwnd hw
    have hm : (m == 3) = false := beq_false_of_ne (by omega)
    rw [← Option.some.inj hw, hm]
    rfl
  · exact ⟨false, rfl, 5, by omega, rfl, fun k h5 h6 => by omega⟩

end ForegroundWatcher

end Digitiz
