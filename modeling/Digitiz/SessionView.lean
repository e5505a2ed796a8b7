import Digitiz.Heartbeat
import Digitiz.MessageCodecs

/-!
What the guest knows of the PC.

The host tells a guest that has said HELLO what it is doing, and from then on what changes. So when
its UI thread has nothing left to do, the guest knows all of it as soon as it has heard what is on
the wire, whatever was told, missed or cut off in the sessions before. What it knows is what can be
read of the messages: of a name the part that fits its field, and of the screens, whose number goes
over in a byte, 255 at the most.
-/

namespace Digitiz

open Wire

/-- Zeros at the end are not read. -/
lemma takeWhile_zeros (s : List UInt8) (k : ℕ) :
    (s ++ List.replicate k 0).takeWhile (· ≠ 0) = s.takeWhile (· ≠ 0) := by
  induction s with
  | nil => cases k <;> simp [List.replicate_succ]
  | cons b s ih => by_cases hb : b = 0 <;> simp_all

namespace ActiveWindow

/-- The part of the name that fits its field, up to the first zero in it. -/
def name (m : ActiveWindow) : List UInt8 := (m.process.take kProcessNameBytes).takeWhile (· ≠ 0)

/-- What is read of a program in focus. -/
lemma decode_payload (m : ActiveWindow) : decode m.payload = some { m with process := m.name } := by
  have hfield : Writer.fixedStr m.process kProcessNameBytes =
      m.process.take kProcessNameBytes ++
        List.replicate (kProcessNameBytes - (m.process.take kProcessNameBytes).length) 0 := by
    rw [← Codec.fixedStr_eq (List.length_take_le _ _), Codec.writer_fixedStr_take]
  have hlength : (Writer.fixedStr m.process kProcessNameBytes).length = kProcessNameBytes := by
    have hle := List.length_take_le kProcessNameBytes m.process
    rw [hfield, List.length_append, List.length_replicate]
    omega
  have hread : Reader.fixedStr kProcessNameBytes
      ⟨Writer.fixedStr m.process kProcessNameBytes, true⟩ = (m.name, ⟨[], true⟩) := by
    have htake := Reader.take_apply ([] : List UInt8) (·.takeWhile (· ≠ 0))
      (Writer.fixedStr m.process kProcessNameBytes) []
    rw [hlength, List.append_nil] at htake
    rw [Reader.fixedStr, htake, hfield, takeWhile_zeros]
    rfl
  simp only [decode, decodeWith, read, payload, Reader.bind_apply, Reader.u32_apply, hread,
    Reader.pure_apply]
  rfl

end ActiveWindow

/-- The desktop and the screens that a guest is told of. -/
def DisplayLayout.screens (l : DisplayLayout) : Recti × List Recti :=
  GuestSession.screensOf { vx := l.x, vy := l.y, vw := l.w, vh := l.h, monitors := l.monitors }

namespace GuestSession

/-- What the guest knows of the PC. -/
def known (g : GuestSession) : Bool × List UInt8 × Recti × List Recti :=
  (g.hostEnabled, g.activeProcess, g.desktop, g.monitors)

/-- The guest with what it can read of a message. -/
def hear (g : GuestSession) (m : ToGuest) : GuestSession := m.received.elim g g.onMessage

variable (g : GuestSession)

lemma hear_hostState (m : HostState) : g.hear (.hostState m) = g.onMessage (.hostState m) := by
  rw [hear, ToGuest.received, HostState.strict.lossless m trivial]
  rfl

lemma hear_activeWindow (m : ActiveWindow) :
    g.hear (.activeWindow m) = g.onMessage (.activeWindow { m with process := m.name }) := by
  rw [hear, ToGuest.received, ActiveWindow.decode_payload]
  rfl

lemma hear_helloAck {m : HelloAck} (h : m.monitors.length ≤ 255) :
    g.hear (.helloAck m) = g.onMessage (.helloAck m) := by
  rw [hear, ToGuest.received, HelloAck.strict.lossless m h]
  rfl

/-- Also a desktop that cannot be read leaves the rest alone. -/
lemma hear_helloAck_keeps (m : HelloAck) : (g.hear (.helloAck m)).hostEnabled = g.hostEnabled ∧
    (g.hear (.helloAck m)).activeProcess = g.activeProcess := by
  rw [hear, ToGuest.received]
  generalize HelloAck.decode m.payload = read
  cases read <;> exact ⟨rfl, rfl⟩

variable {g}

lemma onMessage_known {g g' : GuestSession} (h : g.known = g'.known) (m : ToGuest) :
    (g.onMessage m).known = (g'.onMessage m).known := by
  simp only [known, Prod.mk.injEq] at h
  cases m <;> simp [onMessage, known, h]

lemma hear_known {g g' : GuestSession} (h : g.known = g'.known) (m : ToGuest) :
    (g.hear m).known = (g'.hear m).known := by
  unfold hear
  cases m.received with
  | none => exact h
  | some m' => exact onMessage_known h m'

lemma foldl_known {g g' : GuestSession} (h : g.known = g'.known) (l : List ToGuest) :
    (l.foldl hear g).known = (l.foldl hear g').known := by
  induction l generalizing g g' with
  | nil => exact h
  | cons m l ih => exact ih (hear_known h m)

end GuestSession

namespace Session

variable {R : Type} {skew : ℕ → ℤ} {s t : Session R} {k : ℕ}

/-- The guest when it has heard what is on the wire of session `k`. -/
def view (s : Session R) (k : ℕ) : GuestSession :=
  (s.toGuest k).foldl GuestSession.hear s.guest

/-- What the guest does not know yet is going to be told. -/
structure Told (s : Session R) (k : ℕ) : Prop where
  state : .hostState ∈ s.script ∨ (s.view k).hostEnabled = s.host.enabled
  window : .activeWindow ∈ s.script ∨ (s.host.activeWindowKnown = true →
    (s.view k).activeProcess = s.host.activeWindow.name)
  desktop : .helloAck ∈ s.script ∨ (s.announced.monitors.length ≤ 255 →
    ((s.view k).desktop, (s.view k).monitors) = s.announced.screens)

/-- A guest that is known, and whose HELLO was taken up, is told everything. -/
structure Informed (s : Session R) : Prop where
  behind : ∀ k, s.client = some k → k ≤ s.dialled
  running : s.phase = .active → s.host.sessionActive = true
  fresh : s.phase = .cleared → s.host.guestKnown = false
  told : s.phase = .active → ∀ k, s.client = some k → s.socket = some k →
    s.guestPhase ≠ .falling → s.host.guestKnown = true → s.host.helloAckPending = false → Told s k

/-- All that the guest is told depends on. -/
def telling (s : Session R) (k : ℕ) :=
  ((s.view k).known, s.host.enabled, s.host.activeWindowKnown, s.host.activeWindow, s.announced)

/-- What is told stays so as long as nothing that is told of changes. -/
lemma Told.of (h : Told s k) {u : Session R} (he : u.telling k = s.telling k)
    (hs : ∀ op, op = .hostState ∨ op = .activeWindow ∨ op = .helloAck → op ∈ s.script →
      op ∈ u.script) : Told u k := by
  simp only [telling, GuestSession.known, Prod.mk.injEq] at he
  obtain ⟨⟨henabled, hprocess, hdesktop, hmonitors⟩, hon, hknown, hwindow, hannounced⟩ := he
  constructor
  · rw [henabled, hon]
    exact h.state.imp_left (hs _ (.inl rfl))
  · rw [hprocess, hknown, hwindow]
    exact h.window.imp_left (hs _ (.inr (.inl rfl)))
  · rw [hdesktop, hmonitors, hannounced]
    exact h.desktop.imp_left (hs _ (.inr (.inr rfl)))

/-- All that decides whether the guest is to be told. -/
def seat (s : Session R) :=
  (s.phase, s.client, s.socket, s.guestPhase, s.dialled, s.host.guestKnown,
    s.host.helloAckPending, s.host.sessionActive)

lemma Informed.of (h : Informed s) {u : Session R} (he : u.seat = s.seat)
    (ht : ∀ k, Told s k → Told u k) : Informed u := by
  simp only [seat, Prod.mk.injEq] at he
  obtain ⟨hphase, hclient, hsocket, hguest, hdialled, hknown, hack, hactive⟩ := he
  constructor
  · rw [hclient, hdialled]
    exact h.behind
  · rw [hphase, hactive]
    exact h.running
  · rw [hphase, hknown]
    exact h.fresh
  · rw [hphase, hclient, hsocket, hguest, hknown, hack]
    exact fun hp k hk hs hf hn ha => ht k (h.told hp k hk hs hf hn ha)

lemma view_say (s : Session R) (k : ℕ) (script : List UiOp) (announced : DisplayLayout)
    (m : ToGuest) : ({ s with
      script
      announced
      toGuest := Function.update s.toGuest k (s.toGuest k ++ [m]) } : Session R).view k =
      (s.view k).hear m := by
  simp [view, Function.update_self, List.foldl_append]

/-- Something is said to the guest that the host is connected to. -/
lemma Informed.say (h : Informed s) (script : List UiOp) (announced : DisplayLayout) (m : ToGuest)
    (ht : s.phase = .active → ∀ k, Told s k → Told { s with
      script
      announced
      toGuest := Function.update s.toGuest k (s.toGuest k ++ [m]) } k) :
    Informed ({ s with script, announced }.tell m) := by
  obtain hc | ⟨k, hc⟩ := Option.eq_none_or_eq_some s.client
  · have hsame : ({ s with script, announced } : Session R).tell m =
        { s with script, announced } := by
      simp only [tell, hc]
    rw [hsame]
    exact { h with told := fun _ k hk => absurd (hc.symm.trans hk) (by simp) }
  · have hsaid : ({ s with script, announced } : Session R).tell m = { s with
        script
        announced
        toGuest := Function.update s.toGuest k (s.toGuest k ++ [m]) } := by
      simp only [tell, hc]
    rw [hsaid]
    exact { h with
      told := fun hp j hj hs hf hn ha => by
        obtain rfl : k = j := Option.some.inj (hc.symm.trans hj)
        exact ht hp k (h.told hp k hj hs hf hn ha) }

/-- What the UI thread does next that is not said to the guest. -/
lemma Informed.pop (h : Informed s) {op : UiOp} {rest : List UiOp} (hop : s.script = op :: rest)
    (hno : op ≠ .hostState ∧ op ≠ .activeWindow ∧ op ≠ .helloAck) :
    Informed { s with script := rest } := by
  refine h.of rfl fun _ ht => ht.of rfl ?_
  rintro _ (rfl | rfl | rfl) hin
  · exact (List.mem_cons.mp (hop ▸ hin)).resolve_left hno.1.symm
  · exact (List.mem_cons.mp (hop ▸ hin)).resolve_left hno.2.1.symm
  · exact (List.mem_cons.mp (hop ▸ hin)).resolve_left hno.2.2.symm

lemma Informed.exec (h : Informed s) {op : UiOp} {rest : List UiOp} (hop : s.script = op :: rest)
    (injecting : Bool) : Informed ({ s with script := rest }.exec injecting op) := by
  cases op with
  | hostState =>
    refine h.say rest s.announced (.hostState ⟨s.host.enabled, injecting⟩)
      fun _ k ht => ⟨?_, ?_, ?_⟩
    · rw [view_say, GuestSession.hear_hostState]
      exact .inr rfl
    · rw [view_say, GuestSession.hear_hostState]
      exact ht.window.imp_left (by simp [hop])
    · rw [view_say, GuestSession.hear_hostState]
      exact ht.desktop.imp_left (by simp [hop])
  | helloAck =>
    refine h.say rest s.host.layout s.host.sendHelloAck fun _ k ht => ?_
    obtain ⟨hstate, hwindow⟩ := (s.view k).hear_helloAck_keeps
      { vx := s.host.layout.x, vy := s.host.layout.y, vw := s.host.layout.w,
        vh := s.host.layout.h, monitors := s.host.layout.monitors }
    refine ⟨?_, ?_, .inr fun hfew => ?_⟩
    · rw [view_say, HostSession.sendHelloAck, hstate]
      exact ht.state.imp_left (by simp [hop])
    · rw [view_say, HostSession.sendHelloAck, hwindow]
      exact ht.window.imp_left (by simp [hop])
    · rw [view_say, HostSession.sendHelloAck, GuestSession.hear_helloAck _ hfew]
      rfl
  | activeWindow =>
    unfold Session.exec
    dsimp only
    split_ifs with hsaid
    · refine h.say rest s.announced (.activeWindow s.host.activeWindow) fun _ k ht => ⟨?_, ?_, ?_⟩
      · rw [view_say, GuestSession.hear_activeWindow]
        exact ht.state.imp_left (by simp [hop])
      · rw [view_say, GuestSession.hear_activeWindow]
        exact .inr fun _ => rfl
      · rw [view_say, GuestSession.hear_activeWindow]
        exact ht.desktop.imp_left (by simp [hop])
    · exact { h with
        told := fun hp k hk hs hf hn ha => by
          have ht := h.told hp k hk hs hf hn ha
          refine ⟨ht.state.imp_left (by simp [hop]), .inr fun hw => ?_,
            ht.desktop.imp_left (by simp [hop])⟩
          have hw' : s.host.activeWindowKnown = true := hw
          exact absurd (by rw [hw', h.running hp]; rfl) hsaid }
  | ping =>
    refine h.say rest s.announced (.ping s.now) fun _ k ht => ⟨?_, ?_, ?_⟩
    · rw [view_say]
      exact ht.state.imp_left (by simp [hop])
    · rw [view_say]
      exact ht.window.imp_left (by simp [hop])
    · rw [view_say]
      exact ht.desktop.imp_left (by simp [hop])
  | takeAck =>
    have hpop := h.pop hop (by decide)
    unfold Session.exec
    dsimp only
    split_ifs
    · exact { h with
        told := fun _ _ _ _ _ _ _ => ⟨.inl (by simp), .inl (by simp), .inl (by simp)⟩ }
    · exact hpop
  | checkPing =>
    have hpop := h.pop hop (by decide)
    unfold Session.exec
    dsimp only
    split_ifs
    · exact hpop
    · exact hpop.of rfl fun _ ht => ht.of rfl fun _ _ => List.mem_cons_of_mem _
  | countPing =>
    have hpop := h.pop hop (by decide)
    exact hpop.of rfl fun _ ht => ht.of rfl fun _ _ => List.mem_cons_of_mem _
  | drop =>
    have hpop := h.pop hop (by decide)
    unfold Session.exec
    dsimp only
    split_ifs
    · exact hpop.of rfl fun _ ht => ht.of rfl fun _ _ => id
    · exact hpop

lemma Informed.answer (h : Informed s) (m : ToHost) : Informed (s.answer m) := by
  unfold Session.answer
  split
  · exact h
  · exact h.of rfl fun _ ht => ht.of rfl fun _ _ => id

/-- The guest changes nothing that it knows. -/
lemma Informed.guest (h : Informed s) {g : GuestSession} (hg : g.known = s.guest.known) :
    Informed { s with guest := g } :=
  h.of rfl fun _ ht => ht.of (congrArg (·, _) (GuestSession.foldl_known hg _)) fun _ _ => id

/-- The guest takes a message off the wire. -/
lemma Informed.hear (h : Informed s) {k : ℕ} {m : ToGuest} {rest : List ToGuest}
    (hk : s.socket = some k) (hm : s.toGuest k = m :: rest) : Informed { s with
      toGuest := Function.update s.toGuest k rest
      guest := s.guest.hear m } :=
  { h with
    told := fun hp j hj hs hf hn ha => by
      obtain rfl : k = j := Option.some.inj (hk.symm.trans hs)
      refine (h.told hp k hj hs hf hn ha).of ?_ fun _ _ => id
      simp [telling, view, hm, Function.update_self] }

/-- With nothing left to do the UI thread takes on something that tells what was changed. -/
lemma Informed.script (h : Informed s) (hnil : s.script = []) (script : List UiOp) :
    Informed { s with script } :=
  h.of rfl fun _ ht => ht.of rfl fun _ _ hin => absurd (hnil ▸ hin) List.not_mem_nil

variable [Field R] [LinearOrder R]

/-- The host is given a message. -/
lemma Informed.receive (h : Informed s) (hp : s.phase = .active) (m : ToHost) :
    Informed (s.onTransportMessage m) := by
  have hnot : s.phase ≠ .cleared := by simp [hp]
  cases m with
  | hello m =>
    unfold Session.onTransportMessage
    dsimp only
    split_ifs
    · exact h.of rfl fun _ ht => ht.of rfl fun _ _ => id
    · exact { h with
        fresh := fun hc => absurd hc hnot
        told := fun _ _ _ _ _ _ ha => absurd ha (by simp [HostSession.onHello]) }
  | pong tSendUs tReplyUs =>
    exact h.of rfl fun _ ht => ht.of rfl fun _ _ => id
  | pointer action tUs =>
    obtain ⟨samples, interval, last, latency, he⟩ := onPointer_spec s.host s.now action tUs
    show Informed { s with host := s.host.onPointer s.now action tUs }
    rw [he]
    exact h.of rfl fun _ ht => ht.of rfl fun _ _ => id

lemma Informed.step (h : Informed s) {act : Act} (hs : s.step skew act = some t) :
    Informed t := by
  cases act with
  | wait d =>
    obtain rfl := Option.some.inj hs
    exact h.of rfl fun _ ht => ht.of rfl fun _ _ => id
  | receive =>
    obtain ⟨k, m, rest, hp, -, -, rfl⟩ := step_receive hs
    have hrest : Informed { s with toHost := Function.update s.toHost k rest } :=
      h.of rfl fun _ ht => ht.of rfl fun _ _ => id
    cases m.received with
    | none => exact hrest
    | some m' => exact hrest.receive hp m'
  | hear =>
    obtain ⟨k, m, rest, -, hk, hm, rfl⟩ := step_hear hs
    have hrest := h.hear hk hm
    unfold GuestSession.hear at hrest
    cases hread : m.received with
    | none =>
      rw [hread] at hrest
      exact hrest
    | some m' =>
      rw [hread] at hrest
      rw [Option.elim_some] at hrest ⊢
      cases m' with
      | ping tSendUs => exact hrest.answer _
      | _ => exact hrest
  | ui injecting =>
    obtain ⟨op, rest, hop, rfl⟩ := step_ui hs
    exact h.exec hop injecting
  | accept k =>
    obtain ⟨⟨-, -, hk⟩, rfl⟩ := guarded hs
    exact { h with
      behind := fun j hj => Option.some.inj hj ▸ hk
      running := by simp
      fresh := by simp
      told := by simp }
  | connect =>
    obtain ⟨-, rfl⟩ := guarded hs
    exact { h with
      running := by simp
      fresh := fun _ => rfl
      told := by simp }
  | activate =>
    obtain ⟨hp, rfl⟩ := guarded hs
    exact { h with
      running := fun _ => rfl
      fresh := by simp
      told := fun _ _ _ _ _ hn => absurd (hn.symm.trans (h.fresh hp)) (by simp) }
  | leave | forget =>
    obtain ⟨-, rfl⟩ := guarded hs
    exact { h with running := by simp, fresh := by simp, told := by simp }
  | close =>
    obtain ⟨-, rfl⟩ := guarded hs
    exact { h with behind := by simp, running := by simp, fresh := by simp, told := by simp }
  | pump =>
    obtain ⟨hnil, rfl⟩ := guarded hs
    have hnext := h.script hnil (if s.host.sessionActive then [.takeAck, .checkPing] else [])
    exact hnext.of rfl fun _ ht => ht.of rfl fun _ _ => id
  | window w =>
    obtain ⟨hnil, rfl⟩ := guarded hs
    exact { h with
      told := fun hp k hk hs hf hn ha => by
        have ht := h.told hp k hk hs hf hn ha
        exact ⟨.inr (ht.state.resolve_left (by simp [hnil])), .inl List.mem_cons_self,
          .inr (ht.desktop.resolve_left (by simp [hnil]))⟩ }
  | toggle =>
    obtain ⟨hnil, rfl⟩ := guarded hs
    exact { h with
      told := fun hp k hk hs hf hn ha => by
        have ht := h.told hp k hk hs hf hn ha
        refine ⟨.inl ?_, .inr (ht.window.resolve_left (by simp [hnil])),
          .inr (ht.desktop.resolve_left (by simp [hnil]))⟩
        show _ ∈ if s.host.sessionActive then [UiOp.hostState] else []
        rw [if_pos (h.running hp)]
        exact List.mem_cons_self }
  | relayout layout =>
    obtain ⟨-, rfl⟩ := guarded hs
    exact h.of rfl fun _ ht => ht.of rfl fun _ _ => id
  | dial =>
    obtain ⟨-, rfl⟩ := guarded hs
    exact { h with
      behind := fun k hk => (h.behind k hk).trans (Nat.le_succ _)
      told := fun _ k hk hs => by
        obtain rfl : s.dialled + 1 = k := Option.some.inj hs
        exact absurd (h.behind _ hk) (by omega) }
  | linkUp =>
    obtain ⟨hp, rfl⟩ := guarded hs
    have hg : Informed { s with guest := s.guest.onLinkUp } := h.guest rfl
    exact { hg with
      told := fun hp' k hk hs _ hn ha =>
        (hg.told hp' k hk hs (by simp [hp]) hn ha).of rfl fun _ _ => id }
  | hello m =>
    obtain ⟨hp, rfl⟩ := guarded hs
    have hup : Informed { s with guestPhase := .up } := { h with
      told := fun hp' k hk hs _ hn ha =>
        (h.told hp' k hk hs (by simp [hp]) hn ha).of rfl fun _ _ => id }
    exact hup.answer _
  | linkDown =>
    obtain ⟨-, rfl⟩ := guarded hs
    exact { h with told := fun _ _ _ _ hf => absurd rfl hf }
  | hangUp =>
    obtain ⟨-, rfl⟩ := guarded hs
    exact { h with told := fun _ _ _ hs => absurd hs (by simp) }
  | point action tUs =>
    obtain ⟨-, rfl⟩ := guarded hs
    exact h.answer _
  | takePending =>
    obtain rfl := Option.some.inj hs
    exact h.guest rfl
  | fitted =>
    obtain rfl := Option.some.inj hs
    exact h.guest rfl

omit [LinearOrder R] in
lemma init_informed (layout : DisplayLayout) (enabled : Bool) :
    Informed (init layout enabled : Session R) where
  behind := by simp [init]
  running := by simp [init]
  fresh := by simp [init]
  told := by simp [init]

/-- **The guest knows the PC.** In every run, once the HELLO of the session the two are in was taken
up and the UI thread has nothing left to do, the guest knows when it has read what is on the wire
whether the host is on, of the program in focus, if that is known, as much of the name as fits its
field, and the screens, if they are 255 at the most, as they were when the host last told of
them. -/
theorem guest_knows {layout : DisplayLayout} {enabled : Bool} {acts : List Act}
    (hrun : Run (step skew) (fun _ _ => True) (init layout enabled : Session R) acts s)
    (hp : s.phase = .active) (hk : s.client = some k) (hs : s.socket = some k)
    (hup : s.guestPhase = .up) (hknown : s.host.guestKnown = true)
    (hack : s.host.helloAckPending = false) (hnil : s.script = []) :
    (s.view k).hostEnabled = s.host.enabled ∧
      (s.host.activeWindowKnown = true →
        (s.view k).activeProcess = s.host.activeWindow.name) ∧
      (s.announced.monitors.length ≤ 255 →
        ((s.view k).desktop, (s.view k).monitors) = s.announced.screens) := by
  have h : Informed s :=
    hrun.invariant Informed (fun _ _ _ h _ hs => h.step hs) (init_informed layout enabled)
  have ht := h.told hp k hk hs (by simp [hup]) hknown hack
  have hno (op : UiOp) : op ∉ s.script := by simp [hnil]
  exact ⟨ht.state.resolve_left (hno _), ht.window.resolve_left (hno _),
    ht.desktop.resolve_left (hno _)⟩

/-- A host that knows which program is in focus takes up the HELLO of a guest. -/
def introduced : List Act :=
  [.window { process := [112] }, .ui false] ++
    [.dial, .linkUp, .hello {}, .accept 1, .connect, .activate, .receive] ++
    .pump :: List.replicate 5 (.ui false)

theorem guest_knows_introduced :
    let s := Run.final (step fun _ => 0) (fun _ _ => True) (init {} true : Session ℚ) introduced
    s.guest.hostEnabled = false ∧ (s.view 1).hostEnabled = true ∧
      (s.view 1).activeProcess = [112] := by
  intro s
  have hrun : Run (step fun _ => 0) (fun _ _ => True) (init {} true) introduced s :=
    Run.to_final (by decide +kernel)
  obtain ⟨hon, hprocess, -⟩ := guest_knows hrun (k := 1) (by decide +kernel) (by decide +kernel)
    (by decide +kernel) (by decide +kernel) (by decide +kernel) (by decide +kernel)
    (by decide +kernel)
  exact ⟨by decide +kernel, hon.trans (by decide +kernel),
    (hprocess (by decide +kernel)).trans (by decide +kernel)⟩

end Session

end Digitiz
