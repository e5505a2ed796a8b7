import Digitiz.Session

/-!
How well the host knows the guest's clock.

A question carries the time it was asked, and its answer carries that time back beside the guest's
own. Whatever session a question was asked in, it was asked in the past; and an answer is only heard
in the session it was given in. So the estimate is off by half of a round trip at the most, however
the sessions follow one another and even if the phone was restarted between them.
-/

namespace Digitiz.Session

variable {R : Type} [Field R] [LinearOrder R] {skew : ℕ → ℤ} {s t : Session R}

/-- A question that was asked in the past. -/
def Asked (now : ℤ) : ToGuest → Prop
  | .ping tSendUs => tSendUs ≤ now
  | _ => True

/-- An answer that was given after its question and before now. -/
def Given (now skew : ℤ) : ToHost → Prop
  | .pong tSendUs tReplyUs => ∃ answered, tSendUs ≤ answered ∧ answered ≤ now ∧
      tReplyUs = answered + skew
  | _ => True

/-- What is on the wires is from the past, and the clock was only observed in this session. -/
structure Timely (skew : ℕ → ℤ) (s : Session R) : Prop where
  asked : ∀ k, ∀ m ∈ s.toGuest k, Asked s.now m
  given : ∀ k, ∀ m ∈ s.toHost k, Given s.now (skew k) m
  clock : s.phase = .cleared ∨ s.phase = .active →
    ∀ k, s.client = some k → s.host.clock.Near (skew k)
  best : s.phase = .cleared ∨ s.phase = .active → s.host.clock.Shortest s.roundTrips

lemma Asked.later {now now' : ℤ} (h : now ≤ now') {m : ToGuest} (hm : Asked now m) :
    Asked now' m := by
  cases m with
  | ping tSendUs => exact le_trans hm h
  | _ => trivial

lemma Given.later {now now' k : ℤ} (h : now ≤ now') {m : ToHost} (hm : Given now k m) :
    Given now' k m := by
  cases m with
  | pong tSendUs tReplyUs =>
    obtain ⟨answered, hsent, hle, he⟩ := hm
    exact ⟨answered, hsent, hle.trans h, he⟩
  | _ => trivial

/-- What is read of a question was asked when it was. -/
lemma Asked.received {now : ℤ} {m m' : ToGuest} (hm : Asked now m) (h : m.received = some m') :
    Asked now m' := by
  cases m with
  | ping tSendUs =>
    obtain rfl := Option.some.inj h
    exact hm
  | helloAck m | hostState m | activeWindow m =>
    rw [ToGuest.received, Option.map_eq_some_iff] at h
    obtain ⟨n, -, rfl⟩ := h
    trivial

lemma Given.received {now k : ℤ} {m m' : ToHost} (hm : Given now k m) (h : m.received = some m') :
    Given now k m' := by
  cases m with
  | hello m =>
    rw [ToHost.received, Option.map_eq_some_iff] at h
    obtain ⟨n, -, rfl⟩ := h
    trivial
  | _ =>
    obtain rfl := Option.some.inj h
    exact hm

lemma forall_update_snoc {α : Type} {wires : ℕ → List α} {P : ℕ → α → Prop} {k : ℕ} {m : α}
    (h : ∀ i, ∀ x ∈ wires i, P i x) (hm : P k m) :
    ∀ i, ∀ x ∈ Function.update wires k (wires k ++ [m]) i, P i x := by
  intro i x hx
  obtain rfl | hne := eq_or_ne i k
  · rw [Function.update_self, List.mem_append, List.mem_singleton] at hx
    obtain hx | rfl := hx
    · exact h i x hx
    · exact hm
  · rw [Function.update_of_ne hne] at hx
    exact h i x hx

lemma forall_update_sub {α : Type} {wires : ℕ → List α} {P : ℕ → α → Prop} {k : ℕ} {l : List α}
    (h : ∀ i, ∀ x ∈ wires i, P i x) (hl : ∀ x ∈ l, x ∈ wires k) :
    ∀ i, ∀ x ∈ Function.update wires k l i, P i x := by
  intro i x hx
  obtain rfl | hne := eq_or_ne i k
  · rw [Function.update_self] at hx
    exact h i x (hl x hx)
  · rw [Function.update_of_ne hne] at hx
    exact h i x hx

lemma Timely.tell (h : Timely skew s) {m : ToGuest} (hm : Asked s.now m) :
    Timely skew (s.tell m) := by
  unfold Session.tell
  split
  · exact h
  · exact { h with asked := forall_update_snoc h.asked hm }

lemma Timely.answer (h : Timely skew s) {m : ToHost}
    (hm : ∀ k, s.socket = some k → Given s.now (skew k) m) : Timely skew (s.answer m) := by
  unfold Session.answer
  split
  · exact h
  · next k hk => exact { h with given := forall_update_snoc h.given (hm k hk) }

lemma Timely.exec (h : Timely skew s) (injecting : Bool) (op : UiOp) :
    Timely skew (s.exec injecting op) := by
  unfold Session.exec
  cases op with
  | takeAck | checkPing | drop =>
    dsimp only
    split_ifs
    · exact { h with }
    · exact { h with }
  | helloAck =>
    have hsaid : Timely skew { s with announced := s.host.layout } := { h with }
    exact hsaid.tell trivial
  | hostState => exact h.tell trivial
  | activeWindow =>
    dsimp only
    split_ifs
    · exact h.tell trivial
    · exact h
  | countPing => exact { h with }
  | ping => exact h.tell le_rfl

lemma measureLink_clock (g : HostSession R) (nowUs tUs : ℤ) :
    (g.measureLink nowUs tUs).clock = g.clock := by
  unfold HostSession.measureLink
  dsimp only
  split_ifs <;> rfl

lemma onPointer_clock (g : HostSession R) (nowUs : ℤ) (action : PointerAction) (tUs : ℤ) :
    (g.onPointer nowUs action tUs).clock = g.clock := by
  unfold HostSession.onPointer
  dsimp only
  rw [measureLink_clock]
  split_ifs <;> rfl

/-- The guest takes a message off the wire. -/
lemma Timely.hear (h : Timely skew s) {k : ℕ} {m : ToGuest} {rest : List ToGuest}
    (hk : s.socket = some k) (hm : s.toGuest k = m :: rest) :
    Timely skew (m.received.elim { s with toGuest := Function.update s.toGuest k rest }
      (onMessage { s with toGuest := Function.update s.toGuest k rest } (s.now + skew k))) := by
  have hsent := h.asked k m (hm ▸ List.mem_cons_self)
  have hrest : Timely skew { s with toGuest := Function.update s.toGuest k rest } :=
    { h with asked := forall_update_sub h.asked fun x hx => hm ▸ List.mem_cons_of_mem m hx }
  cases hread : m.received with
  | none => exact hrest
  | some m' =>
    have hasked := hsent.received hread
    have hheard : Timely skew { s with
        toGuest := Function.update s.toGuest k rest
        guest := s.guest.onMessage m' } := { hrest with }
    cases m' with
    | ping tSendUs =>
      refine hheard.answer fun j hj => ?_
      obtain rfl : k = j := Option.some.inj (hk.symm.trans hj)
      exact ⟨s.now, hasked, le_rfl, rfl⟩
    | _ => exact hheard

variable [IsStrictOrderedRing R]

/-- The host takes one. -/
lemma Timely.receive (h : Timely skew s) {k : ℕ} {m : ToHost} {rest : List ToHost}
    (hk : s.client = some k) (hm : s.toHost k = m :: rest) :
    Timely skew (m.received.elim { s with toHost := Function.update s.toHost k rest }
      (onTransportMessage { s with toHost := Function.update s.toHost k rest })) := by
  have hsaid := h.given k m (hm ▸ List.mem_cons_self)
  have hrest : Timely skew { s with toHost := Function.update s.toHost k rest } :=
    { h with given := forall_update_sub h.given fun x hx => hm ▸ List.mem_cons_of_mem m hx }
  cases hread : m.received with
  | none => exact hrest
  | some m' =>
    have hgiven := hsaid.received hread
    rw [Option.elim_some]
    cases m' with
    | hello m =>
      unfold Session.onTransportMessage
      dsimp only
      split_ifs
      · exact { hrest with }
      · exact { hrest with }
    | pong tSendUs tReplyUs =>
      obtain ⟨answered, hsent, hle, rfl⟩ := hgiven
      refine { hrest with
        clock := fun hp j hj => ?_
        best := fun hp => (h.best hp).observe (hsent.trans hle) _ }
      obtain rfl : k = j := Option.some.inj (hk.symm.trans hj)
      exact (h.clock hp k hk).observe hsent hle
    | pointer action tUs =>
      have hclock : (s.host.onPointer s.now action tUs).clock = s.host.clock :=
        onPointer_clock _ _ _ _
      refine { hrest with clock := fun hp j hj => ?_, best := fun hp => ?_ }
      · show (s.host.onPointer s.now action tUs).clock.Near _
        rw [hclock]
        exact h.clock hp j hj
      · show (s.host.onPointer s.now action tUs).clock.Shortest _
        rw [hclock]
        exact h.best hp

lemma Timely.step (h : Timely skew s) {act : Act} (hs : s.step skew act = some t) :
    Timely skew t := by
  cases act with
  | wait d =>
    obtain rfl := Option.some.inj hs
    have hle : s.now ≤ s.now + d := by omega
    exact { h with
      asked := fun k m hm => (h.asked k m hm).later hle
      given := fun k m hm => (h.given k m hm).later hle }
  | receive =>
    obtain ⟨k, m, rest, -, hk, hm, rfl⟩ := step_receive hs
    exact h.receive hk hm
  | hear =>
    obtain ⟨k, m, rest, -, hk, hm, rfl⟩ := step_hear hs
    exact h.hear hk hm
  | ui injecting =>
    obtain ⟨op, rest, -, rfl⟩ := step_ui hs
    have hnext : Timely skew { s with script := rest } := { h with }
    exact hnext.exec injecting op
  | connect =>
    obtain ⟨-, rfl⟩ := guarded hs
    exact { h with clock := fun _ _ _ => .init _, best := fun _ => .init }
  | activate =>
    obtain ⟨hp, rfl⟩ := guarded hs
    exact { h with clock := fun _ => h.clock (.inl hp), best := fun _ => h.best (.inl hp) }
  | accept | leave | forget | close =>
    obtain ⟨-, rfl⟩ := guarded hs
    exact { h with clock := by simp, best := by simp }
  | dial =>
    obtain ⟨-, rfl⟩ := guarded hs
    exact { h with
      asked := forall_update_sub h.asked (by simp)
      given := forall_update_sub h.given (by simp) }
  | hello m =>
    obtain ⟨-, rfl⟩ := guarded hs
    have hup : Timely skew { s with guestPhase := .up } := { h with }
    exact hup.answer fun _ _ => trivial
  | point action tUs =>
    obtain ⟨-, rfl⟩ := guarded hs
    exact h.answer fun _ _ => trivial
  | pump | window | toggle | relayout | linkUp | linkDown | hangUp =>
    obtain ⟨-, rfl⟩ := guarded hs
    exact { h with }
  | takePending | fitted =>
    obtain rfl := Option.some.inj hs
    exact { h with }

/-- **The clocks.** In every run, as long as a session lasts, the host goes by the shortest of the
round trips that it has heard in it. Its estimate of the guest's clock is off by half of that one at
the most, and so is every moment of the guest that it places on its own clock and every delay it
works out from one. -/
theorem clock_near {layout : DisplayLayout} {enabled : Bool} {acts : List Act}
    (hrun : Run (step skew) (fun _ _ => True) (init layout enabled : Session R) acts s) {k : ℕ}
    (hactive : s.phase = .active) (hk : s.client = some k) (hready : s.host.clock.ready = true) :
    IsLeast { r | r ∈ s.roundTrips } s.host.clock.bestRttUs ∧
      |s.host.clock.offsetUs - skew k| ≤ (s.host.clock.bestRttUs : R) / (2 : ℕ) ∧
      ∀ tUs : ℤ, |((s.now : R) - s.host.clock.toHostUs tUs) -
        ((s.now - (tUs - skew k) : ℤ) : R)| ≤ (s.host.clock.bestRttUs : R) / (2 : ℕ) := by
  have htimely : Timely skew s :=
    hrun.invariant (Timely skew) (fun _ _ _ h _ hs => h.step hs)
      ⟨fun _ _ hm => absurd hm List.not_mem_nil, fun _ _ hm => absurd hm List.not_mem_nil,
        fun _ _ hc => absurd hc nofun, fun h => absurd h (by simp [init])⟩
  have hnear := htimely.clock (.inr hactive) k hk
  refine ⟨(htimely.best (.inr hactive)).least hready, hnear.offset hready, fun tUs => ?_⟩
  have hplaced := hnear.toHostUs hready tUs
  rw [abs_sub_comm] at hplaced
  push_cast at hplaced ⊢
  calc |((s.now : R) - s.host.clock.toHostUs tUs) - ((s.now : R) - ((tUs : R) - skew k))|
      = |((tUs : R) - skew k) - s.host.clock.toHostUs tUs| := by
        congr 1
        ring
    _ ≤ (s.host.clock.bestRttUs : R) / (2 : ℕ) := hplaced

/-- A guest says HELLO to a host that has just started. -/
def greeted : List Act :=
  [.dial, .linkUp, .hello {}, .accept 1, .connect, .activate, .receive]

/-- A second later the host answers, and asks for a sign of life that takes a while to come. -/
def pinged : List Act :=
  greeted ++ [.wait 1000000, .pump, .ui false, .ui false, .ui false, .ui false, .ui false,
    .ui false, .ui false, .wait 300, .hear, .hear, .hear, .wait 500, .receive]

theorem clock_near_pinged :
    let s : Session ℚ := Run.final (step fun _ => 5000000) (fun _ _ => True) (init {} true) pinged
    s.host.clock.bestRttUs = 800 ∧ (∀ r ∈ s.roundTrips, 800 ≤ r) ∧
      |s.host.clock.offsetUs - 5000000| ≤ 400 := by
  intro s
  have hrun : Run (step fun _ => 5000000) (fun _ _ => True) (init {} true) pinged s :=
    Run.to_final (by decide +kernel)
  have hbest : s.host.clock.bestRttUs = 800 := by decide +kernel
  obtain ⟨hleast, hnear, -⟩ := clock_near hrun (k := 1) (by decide +kernel) (by decide +kernel)
    (by decide +kernel)
  rw [hbest] at hleast hnear
  norm_num at hnear
  exact ⟨hbest, fun r hr => hleast.2 hr, hnear⟩

end Digitiz.Session
