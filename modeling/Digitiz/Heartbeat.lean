import Digitiz.Session

/-!
Signs of life.

The host asks for one every second and gives the session up when three in a row are missing. How
long that takes depends on how often it looks: when it does so in no time and never later than `δ`
after the last time, a guest is only given up that has answered nothing for three seconds, and none
that answers nothing is kept for longer than four times a second and `δ`. Messages of the fingers
are no answers, and keep no session alive.
-/

namespace Digitiz.Session

open HostSession

variable {R : Type} {skew : ℕ → ℤ} {s t : Session R} {δ : ℕ}

/-- The time a step takes. -/
def Act.lasts : Act → ℕ
  | .wait d => d
  | _ => 0

/-- The host looks after its session in no time, and again before `δ` is over. -/
def Tended (δ : ℕ) (s : Session R) (act : Act) : Prop :=
  0 < act.lasts → s.script = [] ∧ s.now + act.lasts ≤ s.pumped + δ

instance (s : Session R) (act : Act) : Decidable (Tended δ s act) :=
  inferInstanceAs (Decidable (_ → _))

/-- The questions without an answer, with the one that is being asked. -/
def asked (s : Session R) : ℕ := s.host.unansweredPings + s.script.count .countPing

/-- The questions keep pace with the time since the last sign of life. -/
structure Watched (δ : ℕ) (s : Session R) : Prop where
  asked_now : s.host.lastPing ≤ s.now
  heard_now : s.heard ≤ s.now
  pumped_now : s.pumped ≤ s.now
  once : s.script.count .checkPing + s.script.count .countPing ≤ 1
  prompt : 0 < s.script.count .countPing → s.host.lastPing = s.now
  slow : 0 < s.asked → ((s.asked : ℤ) - 1) * kPingInterval ≤ s.host.lastPing - s.heard
  seated : s.phase = .accepted ∨ s.phase = .cleared ∨ s.phase = .active → s.client.isSome = true
  noticed : s.phase = .cleared ∨ s.phase = .active →
    s.dropping = true ∨ .drop ∈ s.script ∨ s.host.unansweredPings ≤ kMaxUnansweredPings
  running : s.phase = .active → s.host.sessionActive = true
  due : s.phase = .active →
    0 < s.script.count .checkPing ∨ s.pumped < s.host.lastPing + kPingInterval
  fresh : s.phase = .active → s.now < s.host.lastPing + (kPingInterval + δ)
  quick : s.phase = .active →
    s.host.lastPing ≤ max s.heard s.opened + s.asked * (kPingInterval + δ)

lemma kPingInterval_pos : 0 < kPingInterval := by decide

lemma asked_mul_nonneg (s : Session R) (δ : ℕ) : 0 ≤ (s.asked : ℤ) * (kPingInterval + δ) :=
  mul_nonneg (Int.natCast_nonneg _) (add_nonneg kPingInterval_pos.le (Int.natCast_nonneg _))

/-- A sign of life that comes while a question is being asked leaves that one question. -/
lemma Watched.slow_anew (h : Watched δ s) (hq : 0 < 0 + s.script.count .countPing) :
    (((0 + s.script.count .countPing : ℕ) : ℤ) - 1) * kPingInterval ≤
      s.host.lastPing - s.now := by
  have hone : 0 + s.script.count .countPing = 1 := by
    have honce := h.once
    omega
  rw [hone, h.prompt (by omega)]
  simp

/-- What the UI thread has to do may change but for the questions and the giving up. -/
lemma Watched.rescript (h : Watched δ s) (script : List UiOp)
    (hc : script.count .checkPing = s.script.count .checkPing)
    (hq : script.count .countPing = s.script.count .countPing)
    (hd : s.phase = .cleared ∨ s.phase = .active →
      s.dropping = true ∨ (.drop ∈ s.script → .drop ∈ script)) : Watched δ { s with script } := by
  have ha : ({ s with script } : Session R).asked = s.asked := by simp only [asked, hq]
  exact { h with
    once := by
      show script.count _ + script.count _ ≤ 1
      rw [hc, hq]
      exact h.once
    prompt := by
      show 0 < script.count _ → _
      rw [hq]
      exact h.prompt
    slow := by
      rw [ha]
      exact h.slow
    noticed := fun hp => (hd hp).elim Or.inl fun hd => (h.noticed hp).imp_right (Or.imp_left hd)
    due := by
      show _ → 0 < script.count _ ∨ _
      rw [hc]
      exact h.due
    quick := by
      rw [ha]
      exact h.quick }

lemma Watched.tell (h : Watched δ s) (m : ToGuest) : Watched δ (s.tell m) := by
  unfold Session.tell
  split
  · exact h
  · exact { h with }

lemma Watched.answer (h : Watched δ s) (m : ToHost) : Watched δ (s.answer m) := by
  unfold Session.answer
  split
  · exact h
  · exact { h with }

/-- Whether it is time for another question. -/
lemma Watched.checkPing (h : Watched δ s) {rest : List UiOp} (hop : s.script = .checkPing :: rest)
    (injecting : Bool) : Watched δ ({ s with script := rest }.exec injecting .checkPing) := by
  have hc : s.script.count .checkPing = rest.count .checkPing + 1 := by simp [hop]
  have hq : s.script.count .countPing = rest.count .countPing := by simp [hop]
  have honce := h.once
  have hnone : rest.count .countPing = 0 := by omega
  have hasked : s.asked = s.host.unansweredPings := by simp [asked, hq, hnone]
  have hd : .drop ∈ s.script → .drop ∈ rest := by simp [hop]
  unfold exec
  dsimp only
  split_ifs with hdue
  · have ha : ({ s with script := rest } : Session R).asked = s.asked := by simp only [asked, hq]
    exact { h with
      once := by
        show rest.count _ + rest.count _ ≤ 1
        omega
      prompt := fun hpos => h.prompt (by rwa [hq])
      slow := by
        rw [ha]
        exact h.slow
      noticed := fun hp => (h.noticed hp).imp_right (Or.imp_left hd)
      due := fun _ => .inr (by
        have hpumped := h.pumped_now
        show s.pumped < s.host.lastPing + kPingInterval
        omega)
      quick := by
        rw [ha]
        exact h.quick }
  · have ha : ({ s with
        host := { s.host with lastPing := s.now }
        script := .countPing :: rest } : Session R).asked = s.asked + 1 := by
      simp [asked, hq]
      omega
    have hmore : (UiOp.countPing :: rest).count .countPing = 1 := by simp [hnone]
    have hless : (UiOp.countPing :: rest).count .checkPing = rest.count .checkPing := by simp
    exact { h with
      asked_now := le_rfl
      once := by
        show (UiOp.countPing :: rest).count _ + (UiOp.countPing :: rest).count _ ≤ 1
        omega
      prompt := fun _ => rfl
      slow := fun _ => by
        rw [ha]
        show _ ≤ s.now - s.heard
        have hheard := h.heard_now
        obtain hzero | hpos := Nat.eq_zero_or_pos s.asked
        · rw [hzero]
          simpa using hheard
        · have hslow := h.slow hpos
          push_cast
          linarith
      noticed := fun hp =>
        (h.noticed hp).imp_right (Or.imp_left fun hin => List.mem_cons_of_mem _ (hd hin))
      due := fun _ => .inr (by
        have hpumped := h.pumped_now
        have hk := kPingInterval_pos
        show s.pumped < s.now + _
        omega)
      fresh := fun _ => by
        have hk := kPingInterval_pos
        show s.now < s.now + _
        omega
      quick := fun hp => by
        have hfresh := h.fresh hp
        have hquick := h.quick hp
        rw [ha]
        show s.now ≤ _
        push_cast
        linarith }

/-- A question is counted, and asked unless too many are unanswered. -/
lemma Watched.countPing (h : Watched δ s) {rest : List UiOp} (hop : s.script = .countPing :: rest)
    (injecting : Bool) : Watched δ ({ s with script := rest }.exec injecting .countPing) := by
  have hc : s.script.count .checkPing = rest.count .checkPing := by simp [hop]
  have hq : s.script.count .countPing = rest.count .countPing + 1 := by simp [hop]
  have honce := h.once
  set next : UiOp := if s.host.unansweredPings + 1 > kMaxUnansweredPings then .drop else .ping
    with hnext
  have hkeep (op : UiOp) (hne : op = .checkPing ∨ op = .countPing) :
      (next :: rest).count op = rest.count op := by
    rw [hnext]
    obtain rfl | rfl := hne <;> split_ifs <;> simp
  have hc' := hkeep .checkPing (.inl rfl)
  have hq' := hkeep .countPing (.inr rfl)
  have ha : ({ s with
      host := { s.host with unansweredPings := s.host.unansweredPings + 1 }
      script := next :: rest } : Session R).asked = s.asked := by
    simp only [asked, hq', hq]
    omega
  show Watched δ { s with
    host := { s.host with unansweredPings := s.host.unansweredPings + 1 }
    script := next :: rest }
  exact { h with
    once := by
      show (next :: rest).count _ + (next :: rest).count _ ≤ 1
      omega
    prompt := fun _ => h.prompt (by omega)
    slow := by
      rw [ha]
      exact h.slow
    noticed := fun hp => .inr (by
      show .drop ∈ next :: rest ∨ s.host.unansweredPings + 1 ≤ kMaxUnansweredPings
      rw [hnext]
      split_ifs with hmany
      · exact .inl List.mem_cons_self
      · exact .inr (not_lt.mp hmany))
    due := by
      show _ → 0 < (next :: rest).count _ ∨ _
      rw [hc', ← hc]
      exact h.due
    quick := by
      rw [ha]
      exact h.quick }

lemma Watched.exec (h : Watched δ s) {op : UiOp} {rest : List UiOp} (hop : s.script = op :: rest)
    (injecting : Bool) : Watched δ ({ s with script := rest }.exec injecting op) := by
  cases op with
  | checkPing => exact h.checkPing hop injecting
  | countPing => exact h.countPing hop injecting
  | drop =>
    unfold Session.exec
    dsimp only
    split_ifs with hclient
    · have hdropping : Watched δ { s with dropping := true } :=
        { h with noticed := fun _ => .inl rfl }
      exact hdropping.rescript rest (by simp [hop]) (by simp [hop]) fun _ => .inl rfl
    · exact h.rescript rest (by simp [hop]) (by simp [hop])
        fun hp => absurd (h.seated (.inr hp)) hclient
  | takeAck =>
    have hpop := h.rescript rest (by simp [hop]) (by simp [hop]) fun _ => .inr (by simp [hop])
    unfold Session.exec
    dsimp only
    split_ifs
    · have hmore := hpop.rescript (.helloAck :: .hostState :: .activeWindow :: rest) (by simp)
        (by simp) fun _ => .inr (by simp)
      exact { hmore with }
    · exact hpop
  | helloAck =>
    have hpop := h.rescript rest (by simp [hop]) (by simp [hop]) fun _ => .inr (by simp [hop])
    have hsaid : Watched δ { s with script := rest, announced := s.host.layout } := { hpop with }
    exact hsaid.tell _
  | hostState =>
    exact (h.rescript rest (by simp [hop]) (by simp [hop])
      fun _ => .inr (by simp [hop])).tell _
  | activeWindow =>
    have hpop := h.rescript rest (by simp [hop]) (by simp [hop]) fun _ => .inr (by simp [hop])
    unfold Session.exec
    dsimp only
    split_ifs
    · exact hpop.tell _
    · exact hpop
  | ping =>
    exact (h.rescript rest (by simp [hop]) (by simp [hop])
      fun _ => .inr (by simp [hop])).tell _

/-- A session is opened. -/
lemma Watched.activate (h : Watched δ s) (hp : s.phase = .cleared) : Watched δ { s with
    phase := .active
    host := { s.host with sessionActive := true, lastPing := s.now }
    opened := s.now } := by
  have hk := kPingInterval_pos
  exact { h with
    asked_now := le_rfl
    prompt := fun _ => rfl
    slow := fun hpos => (h.slow hpos).trans (by
      have hasked := h.asked_now
      show _ ≤ s.now - s.heard
      omega)
    seated := fun _ => h.seated (.inr (.inl hp))
    noticed := fun _ => h.noticed (.inl hp)
    running := fun _ => rfl
    due := fun _ => .inr (by
      have hpumped := h.pumped_now
      show s.pumped < s.now + _
      omega)
    fresh := fun _ => by
      show s.now < s.now + _
      omega
    quick := fun _ => le_add_of_le_of_nonneg (le_max_right _ _) (asked_mul_nonneg _ δ) }

/-- The UI thread starts to look after the session. -/
lemma Watched.pump (h : Watched δ s) (hnil : s.script = []) {script : List UiOp}
    (hq : script.count .countPing = 0) (hc : script.count .checkPing ≤ 1)
    (hasks : s.host.sessionActive = true → 0 < script.count .checkPing) :
    Watched δ { s with script, pumped := s.now } := by
  have ha : ({ s with script, pumped := s.now } : Session R).asked = s.asked := by
    simp only [asked, hq, hnil, List.count_nil]
  exact { h with
    pumped_now := le_rfl
    once := by
      show script.count _ + script.count _ ≤ 1
      omega
    prompt := fun hpos => absurd hq hpos.ne'
    slow := by
      rw [ha]
      exact h.slow
    noticed := fun hp => by
      have hno := h.noticed hp
      rw [hnil] at hno
      exact hno.imp_right fun hn => .inr (hn.resolve_left List.not_mem_nil)
    due := fun hp => .inl (hasks (h.running hp))
    quick := by
      rw [ha]
      exact h.quick }

/-- Time goes by. -/
lemma Watched.wait (h : Watched δ s) {d : ℕ} (hok : Tended δ s (.wait d)) :
    Watched δ { s with now := s.now + d } := by
  obtain rfl | hd := Nat.eq_zero_or_pos d
  · simpa using h
  · obtain ⟨hnil, hle⟩ := hok hd
    have hlater : s.now ≤ s.now + d := by omega
    exact { h with
      asked_now := h.asked_now.trans hlater
      heard_now := h.heard_now.trans hlater
      pumped_now := h.pumped_now.trans hlater
      prompt := fun hpos => absurd hpos (by simp [hnil])
      fresh := fun hp => by
        have hdue := (h.due hp).resolve_left (by simp [hnil])
        have hle' : s.now + d ≤ s.pumped + δ := hle
        show s.now + d < s.host.lastPing + (kPingInterval + δ)
        omega }

lemma tell_script (s : Session R) (m : ToGuest) : (s.tell m).script = s.script := by
  unfold Session.tell
  split <;> rfl

/-- Nothing but a question too many makes the host give a session up. -/
lemma exec_drop {op : UiOp} {injecting : Bool} (hno : .drop ∉ s.script)
    (hd : .drop ∈ (s.exec injecting op).script) :
    op = .countPing ∧ kMaxUnansweredPings < s.host.unansweredPings + 1 := by
  cases op with
  | countPing =>
    refine ⟨rfl, ?_⟩
    by_contra hfew
    simp [exec, hfew, hno] at hd
  | takeAck | checkPing | activeWindow | drop =>
    unfold exec at hd
    dsimp only at hd
    split_ifs at hd <;> simp [tell_script, hno] at hd
  | helloAck | hostState | ping =>
    simp [exec, tell_script, hno] at hd

variable [Field R] [LinearOrder R]

/-- A message about a finger leaves alone what the questions depend on. -/
lemma onPointer_spec (g : HostSession R) (nowUs : ℤ) (action : PointerAction) (tUs : ℤ) :
    ∃ samples interval last latency, g.onPointer nowUs action tUs = { g with
      strokeSamples := samples
      sampleInterval := interval
      lastSampleUs := last
      linkLatency := latency } := by
  unfold HostSession.onPointer HostSession.measureLink
  dsimp only
  split_ifs <;> exact ⟨_, _, _, _, rfl⟩

/-- The host is given a message. -/
lemma Watched.receive (h : Watched δ s) (m : ToHost) : Watched δ (s.onTransportMessage m) := by
  cases m with
  | hello m =>
    unfold Session.onTransportMessage
    dsimp only
    split_ifs
    · exact { h with noticed := fun _ => .inl rfl }
    · exact { h with }
  | pong tSendUs tReplyUs =>
    exact { h with
      heard_now := le_rfl
      slow := h.slow_anew
      noticed := fun _ => .inr (.inr (Nat.zero_le _))
      quick := fun _ =>
        le_add_of_le_of_nonneg (h.asked_now.trans (le_max_left _ _)) (asked_mul_nonneg _ δ) }
  | pointer action tUs =>
    obtain ⟨samples, interval, last, latency, he⟩ := onPointer_spec s.host s.now action tUs
    show Watched δ { s with host := s.host.onPointer s.now action tUs }
    rw [he]
    exact { h with }

lemma Watched.step (h : Watched δ s) {act : Act} (hok : Tended δ s act)
    (hs : s.step skew act = some t) : Watched δ t := by
  cases act with
  | wait d =>
    obtain rfl := Option.some.inj hs
    exact h.wait hok
  | receive =>
    obtain ⟨k, m, rest, -, -, -, rfl⟩ := step_receive hs
    have hrest : Watched δ { s with toHost := Function.update s.toHost k rest } := { h with }
    cases m.received with
    | none => exact hrest
    | some m' => exact hrest.receive m'
  | hear =>
    obtain ⟨k, m, rest, -, -, -, rfl⟩ := step_hear hs
    cases m.received with
    | none => exact { h with }
    | some m' =>
      have hrest : Watched δ { s with
          toGuest := Function.update s.toGuest k rest
          guest := s.guest.onMessage m' } := { h with }
      cases m' with
      | ping tSendUs => exact hrest.answer _
      | _ => exact hrest
  | ui injecting =>
    obtain ⟨op, rest, hop, rfl⟩ := step_ui hs
    exact h.exec hop injecting
  | connect =>
    obtain ⟨hp, rfl⟩ := guarded hs
    exact { h with
      heard_now := le_rfl
      slow := h.slow_anew
      seated := fun _ => h.seated (.inl hp)
      noticed := fun _ => .inr (.inr (Nat.zero_le _))
      running := by simp
      due := by simp
      fresh := by simp
      quick := by simp }
  | activate =>
    obtain ⟨hp, rfl⟩ := guarded hs
    exact h.activate hp
  | accept =>
    obtain ⟨-, rfl⟩ := guarded hs
    exact { h with
      seated := fun _ => rfl
      noticed := by simp
      running := by simp
      due := by simp
      fresh := by simp
      quick := by simp }
  | leave | forget | close =>
    obtain ⟨-, rfl⟩ := guarded hs
    exact { h with
      seated := by simp
      noticed := by simp
      running := by simp
      due := by simp
      fresh := by simp
      quick := by simp }
  | pump =>
    obtain ⟨hnil, rfl⟩ := guarded hs
    exact h.pump hnil (by split_ifs <;> decide) (by split_ifs <;> decide)
      fun ha => by rw [if_pos ha]; decide
  | window w =>
    obtain ⟨hnil, rfl⟩ := guarded hs
    have hnext := h.rescript [.activeWindow] (by simp [hnil]) (by simp [hnil])
      fun _ => .inr (by simp [hnil])
    exact { hnext with }
  | toggle =>
    obtain ⟨hnil, rfl⟩ := guarded hs
    have hnext := h.rescript (if s.host.sessionActive then [.hostState] else [])
      (by split_ifs <;> simp [hnil]) (by split_ifs <;> simp [hnil])
      fun _ => .inr (by simp [hnil])
    exact { hnext with }
  | hello m =>
    obtain ⟨-, rfl⟩ := guarded hs
    have hup : Watched δ { s with guestPhase := .up } := { h with }
    exact hup.answer _
  | point action tUs =>
    obtain ⟨-, rfl⟩ := guarded hs
    exact h.answer _
  | relayout | dial | linkUp | linkDown | hangUp =>
    obtain ⟨-, rfl⟩ := guarded hs
    exact { h with }
  | takePending | fitted =>
    obtain rfl := Option.some.inj hs
    exact { h with }

omit [LinearOrder R] in
lemma init_watched (layout : DisplayLayout) (enabled : Bool) :
    Watched δ (init layout enabled : Session R) where
  asked_now := le_rfl
  heard_now := le_rfl
  pumped_now := le_rfl
  once := Nat.zero_le _
  prompt := by simp [init]
  slow := by simp [init, asked, HostSession.init]
  seated := by simp [init]
  noticed := by simp [init]
  running := by simp [init]
  due := by simp [init]
  fresh := by simp [init]
  quick := by simp [init]

/-- **Signs of life.** In every run of a host that looks after its session in no time and at least
every `δ`, it only decides to give a guest up that has been there for three seconds without an
answer; and a session that is open and not being given up has had an answer, or was opened, less
than four times a second and `δ` ago. -/
theorem heartbeat {layout : DisplayLayout} {enabled : Bool} {acts : List Act}
    (hrun : Run (step skew) (Tended δ) (init layout enabled : Session R) acts s) :
    (∀ injecting t, s.step skew (.ui injecting) = some t → .drop ∈ t.script → .drop ∉ s.script →
      3 * kPingInterval ≤ s.now - s.heard) ∧
    (s.phase = .active → s.script = [] → s.dropping = false →
      s.now < max s.heard s.opened + 4 * (kPingInterval + δ)) := by
  have h : Watched δ s :=
    hrun.invariant (Watched δ) (fun _ _ _ h hok hs => h.step hok hs) (init_watched layout enabled)
  constructor
  · intro injecting t hs hd hno
    obtain ⟨op, rest, hop, rfl⟩ := step_ui hs
    have hrest : .drop ∉ rest := fun hin => hno (hop ▸ List.mem_cons_of_mem _ hin)
    obtain ⟨rfl, hmany⟩ := exec_drop hrest hd
    have hcount : 0 < s.script.count .countPing := by simp [hop]
    have hthree : 3 ≤ (s.asked : ℤ) - 1 := by
      have hmax : kMaxUnansweredPings = 3 := rfl
      have hasked : s.asked = s.host.unansweredPings + s.script.count .countPing := rfl
      replace hmany : kMaxUnansweredPings < s.host.unansweredPings + 1 := hmany
      omega
    rw [← h.prompt hcount]
    exact (mul_le_mul_of_nonneg_right hthree kPingInterval_pos.le).trans (h.slow (by omega))
  · intro hp hnil hkept
    have hasked : s.asked = s.host.unansweredPings := by simp [asked, hnil]
    have hfew : (s.asked : ℤ) ≤ 3 := by
      rw [hasked]
      obtain hno | hno | hfew := h.noticed (.inr hp)
      · exact absurd (hno.symm.trans hkept) Bool.false_ne_true.symm
      · simp [hnil] at hno
      · exact Int.ofNat_le.mpr hfew
    have hbound := mul_le_mul_of_nonneg_right hfew
      (add_nonneg kPingInterval_pos.le (Int.natCast_nonneg δ))
    have hfresh := h.fresh hp
    have hquick := h.quick hp
    linarith

/-- Over four seconds a guest that has said HELLO is asked three times and does not answer. -/
def silent : List Act :=
  ([.dial, .linkUp, .hello {}, .accept 1, .connect, .activate, .receive] : List Act) ++
    ([.wait 1000000, .pump] : List Act) ++ List.replicate 7 (Act.ui false) ++
    ([.wait 1000000, .pump] : List Act) ++ List.replicate 4 (Act.ui false) ++
    ([.wait 1000000, .pump] : List Act) ++ List.replicate 4 (Act.ui false) ++
    ([.wait 1000000] : List Act)

theorem heartbeat_silent :
    let run := Run.final (step fun _ => 0) (Tended 1000000) (init {} true : Session ℚ)
    let s := run silent
    let t := run (silent ++ ([.pump, .ui false, .ui false] : List Act))
    s.now < max s.heard s.opened + 8000000 ∧ 3000000 ≤ t.now - t.heard := by
  intro run s t
  have hs : Run (step fun _ => 0) (Tended 1000000) (init {} true) silent s :=
    Run.to_final (by decide +kernel)
  have ht : Run (step fun _ => 0) (Tended 1000000) (init {} true)
      (silent ++ ([.pump, .ui false, .ui false] : List Act)) t :=
    Run.to_final (by decide +kernel)
  have hnext : (t.step (fun _ => 0) (.ui false)).map script = some [.drop] := by decide +kernel
  obtain ⟨u, hu, hscript⟩ := Option.map_eq_some_iff.mp hnext
  exact ⟨(heartbeat hs).2 (by decide +kernel) (by decide +kernel) (by decide +kernel),
    (heartbeat ht).1 false u hu (by simp [hscript]) (by decide +kernel)⟩

end Digitiz.Session
