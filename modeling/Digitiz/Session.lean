import Digitiz.Geometry
import Digitiz.LatencyStats
import Digitiz.Messages
import Digitiz.Runs

/-!
A session, seen from both ends.

The guest dials and says HELLO. The host answers with its desktop and with what it is doing, tells
what changes of that from then on, and asks for a sign of life once a second; when too many are
missing it gives the session up. Either end finds out on its own that a session is over, and either
may be ahead of the other, so every session has a wire of its own each way.

Every section that holds a lock is one step, and so is every message that is put on a wire. What the
UI thread has still to do before its tick is over is kept as a list. Times are microseconds on the
clock of the host, without bound; in a session the guest's clock is ahead of it by its skew.

A message is read from the payload it was written to, and one that cannot be read is dropped. Left
out are the headers and the cutting of the stream, which do not change a payload, and the fields of
times: these go over as the numbers they are.
-/

namespace Digitiz

/-! ### The host -/

/-- Where the screens of the PC are. -/
structure DisplayLayout where
  x : Int32 := 0
  y : Int32 := 0
  w : Int32 := 0
  h : Int32 := 0
  monitors : List Monitor := []
  deriving DecidableEq, Repr

/-- What the host says of itself. -/
inductive ToGuest
  | helloAck (m : HelloAck)
  | hostState (m : HostState)
  | activeWindow (m : ActiveWindow)
  | ping (tSendUs : ℤ)
  deriving DecidableEq

inductive ToHost
  | hello (m : Hello)
  | pong (tSendUs tReplyUs : ℤ)
  | pointer (action : PointerAction) (tUs : ℤ)
  deriving DecidableEq

/-- What is read of a message from the host, if it can be read. -/
def ToGuest.received : ToGuest → Option ToGuest
  | .helloAck m => (HelloAck.decode m.payload).map .helloAck
  | .hostState m => (HostState.decode m.payload).map .hostState
  | .activeWindow m => (ActiveWindow.decode m.payload).map .activeWindow
  | .ping tSendUs => some (.ping tSendUs)

/-- What is read of a message from the guest. -/
def ToHost.received : ToHost → Option ToHost
  | .hello m => (Hello.decode m.payload).map .hello
  | .pong tSendUs tReplyUs => some (.pong tSendUs tReplyUs)
  | .pointer action tUs => some (.pointer action tUs)

/-- The part of the host that belongs to the session. -/
structure HostSession (R : Type) where
  guest : Hello
  guestKnown : Bool
  helloAckPending : Bool
  /-- The last round trip, or -1. -/
  rttMs : R
  unansweredPings : ℕ
  strokeSamples : ℕ
  clock : ClockSync R
  /-- From a finger on the phone to its message decoded here. -/
  linkLatency : LatencyStats R
  /-- The gaps between the samples of a stroke. -/
  sampleInterval : LatencyStats R
  /-- When the last one came, or 0. -/
  lastSampleUs : ℤ
  sessionActive : Bool
  lastPing : ℤ
  layout : DisplayLayout
  activeWindow : ActiveWindow
  activeWindowKnown : Bool
  enabled : Bool

namespace HostSession

variable {R : Type} [Field R] [LinearOrder R]

def kPingInterval : ℤ := 1000000
def kMaxUnansweredPings : ℕ := 3

def init (layout : DisplayLayout) (enabled : Bool) : HostSession R where
  guest := {}
  guestKnown := false
  helloAckPending := false
  rttMs := -1
  unansweredPings := 0
  strokeSamples := 0
  clock := .init
  linkLatency := .init
  sampleInterval := .init
  lastSampleUs := 0
  sessionActive := false
  lastPing := 0
  layout
  activeWindow := {}
  activeWindowKnown := false
  enabled

/-- The locked section of `on_transport_connect`: the phone may have rebooted, so nothing that was
measured carries over. -/
def onTransportConnect (h : HostSession R) : HostSession R :=
  { h with
    guestKnown := false
    helloAckPending := false
    rttMs := -1
    unansweredPings := 0
    clock := h.clock.reset
    linkLatency := h.linkLatency.reset
    sampleInterval := h.sampleInterval.reset
    lastSampleUs := 0 }

/-- The locked section of `on_transport_disconnect`. -/
def onTransportDisconnect (h : HostSession R) : HostSession R :=
  { h with guestKnown := false, rttMs := -1 }

def onHello (h : HostSession R) (m : Hello) : HostSession R :=
  { h with guest := m, guestKnown := true, helloAckPending := true }

def onPong (h : HostSession R) (nowUs tSendUs tReplyUs : ℤ) : HostSession R :=
  { h with
    rttMs := ((nowUs - tSendUs : ℤ) : R) / (1000 : ℕ)
    unansweredPings := 0
    clock := h.clock.observe tSendUs tReplyUs nowUs }

/-- A latency that is absurd means that the clock is not known well, and is not counted. -/
def measureLink (h : HostSession R) (nowUs tUs : ℤ) : HostSession R :=
  if h.clock.ready then
    let linkMs := ((nowUs : R) - h.clock.toHostUs tUs) / (1000 : ℕ)
    if 0 ≤ linkMs ∧ linkMs < (1000 : ℕ) then { h with linkLatency := h.linkLatency.add linkMs }
    else h
  else h

def onPointer (h : HostSession R) (nowUs : ℤ) (action : PointerAction) (tUs : ℤ) :
    HostSession R :=
  let h := if action = .down then { h with strokeSamples := 0, lastSampleUs := 0 } else h
  let h := { h with strokeSamples := h.strokeSamples + 1 }
  let h := if h.lastSampleUs ≠ 0 ∧ nowUs > h.lastSampleUs then
      { h with
        sampleInterval := h.sampleInterval.add (((nowUs - h.lastSampleUs : ℤ) : R) / (1000 : ℕ)) }
    else h
  { h with lastSampleUs := nowUs }.measureLink nowUs tUs

def sendHelloAck (h : HostSession R) : ToGuest :=
  .helloAck { vx := h.layout.x, vy := h.layout.y, vw := h.layout.w, vh := h.layout.h
              monitors := h.layout.monitors }

end HostSession

/-! ### The guest -/

/-- What the network thread of the guest shares with the others. -/
structure GuestSession where
  linkUp : Bool := false
  hostEnabled : Bool := false
  strokeCancelPending : Bool := false
  activeProcess : List UInt8 := []
  activeWindowDirty : Bool := false
  viewNeedsFit : Bool := false
  viewFitted : Bool := false
  heartbeatSeen : Bool := false
  desktop : Recti := ⟨0, 0, 1920, 1080⟩
  monitors : List Recti := [⟨0, 0, 1920, 1080⟩]

namespace GuestSession

def onLinkUp (g : GuestSession) : GuestSession := { g with linkUp := true, heartbeatSeen := false }

/-- Nothing is in focus on a PC that is not talked to. -/
def onLinkDown (g : GuestSession) : GuestSession :=
  { g with
    linkUp := false
    hostEnabled := false
    strokeCancelPending := true
    activeProcess := []
    activeWindowDirty := true }

/-- A host without monitors still has a desktop. -/
def screensOf (m : HelloAck) : Recti × List Recti :=
  let fresh : Recti := ⟨m.vx.toInt, m.vy.toInt, m.vw.toInt, m.vh.toInt⟩
  let screens := m.monitors.map fun s => (⟨s.x.toInt, s.y.toInt, s.w.toInt, s.h.toInt⟩ : Recti)
  (fresh, if screens = [] then [fresh] else screens)

/-- What a message changes. -/
def onMessage (g : GuestSession) : ToGuest → GuestSession
  | .helloAck m =>
    let (fresh, screens) := screensOf m
    { g with
      viewNeedsFit := g.viewNeedsFit || !g.viewFitted || decide (fresh ≠ g.desktop)
      desktop := fresh
      monitors := screens }
  | .activeWindow m => { g with activeProcess := m.process, activeWindowDirty := true }
  | .hostState m => { g with hostEnabled := m.enabled }
  | .ping _ => { g with heartbeatSeen := true }

/-- The locked section of `apply_pending`, and what it takes: whether to fit the view, whether to
give the stroke up, and the program in focus if it was reported. -/
def takePending (g : GuestSession) : GuestSession × Bool × Bool × Option (List UInt8) :=
  ({ g with viewNeedsFit := false, strokeCancelPending := false, activeWindowDirty := false },
    g.viewNeedsFit, g.strokeCancelPending,
    if g.activeWindowDirty then some g.activeProcess else none)

end GuestSession

/-! ### The session -/

/-- Where the transport thread of the host is. -/
inductive HostPhase
  | waiting
  | accepted
  | cleared
  | active
  | leaving
  | left
  deriving DecidableEq, Repr

/-- Where the network thread of the guest is. -/
inductive GuestPhase
  | down
  | dialled
  | greeting
  | up
  | falling
  deriving DecidableEq, Repr

/-- What the UI thread of the host does in a tick. -/
inductive UiOp
  | takeAck
  | helloAck
  | hostState
  | activeWindow
  | checkPing
  | countPing
  | ping
  | drop
  deriving DecidableEq, Repr

structure Session (R : Type) where
  now : ℤ
  host : HostSession R
  phase : HostPhase
  client : Option ℕ
  /-- The host has shut the client's socket down. -/
  dropping : Bool
  /-- How many sessions were dialled before the last one that was accepted, itself among them. -/
  accepted : ℕ
  script : List UiOp
  guest : GuestSession
  guestPhase : GuestPhase
  socket : Option ℕ
  dialled : ℕ
  toGuest : ℕ → List ToGuest
  toHost : ℕ → List ToHost
  /-- When the host last had an answer to a question, or began with a new guest. -/
  heard : ℤ
  /-- When the session was opened. -/
  opened : ℤ
  /-- When the host last looked after its session. -/
  pumped : ℤ
  /-- The layout that was last told to a guest. -/
  announced : DisplayLayout
  /-- How long the answers that were heard in this session took, oldest first. -/
  roundTrips : List ℤ

namespace Session

open HostSession Wire

variable {R : Type} [Field R] [LinearOrder R]

def init (layout : DisplayLayout) (enabled : Bool) : Session R where
  now := 0
  host := .init layout enabled
  phase := .waiting
  client := none
  dropping := false
  accepted := 0
  script := []
  guest := {}
  guestPhase := .down
  socket := none
  dialled := 0
  toGuest _ := []
  toHost _ := []
  heard := 0
  opened := 0
  pumped := 0
  announced := {}
  roundTrips := []

/-- Puts a message on the wire of the session the host is in. -/
def tell (s : Session R) (m : ToGuest) : Session R :=
  match s.client with
  | none => s
  | some k => { s with toGuest := Function.update s.toGuest k (s.toGuest k ++ [m]) }

/-- The same for the guest. -/
def answer (s : Session R) (m : ToHost) : Session R :=
  match s.socket with
  | none => s
  | some k => { s with toHost := Function.update s.toHost k (s.toHost k ++ [m]) }

/-- One operation of the UI thread. -/
def exec (s : Session R) (injecting : Bool) : UiOp → Session R
  | .takeAck =>
    if s.host.helloAckPending then
      { s with
        host := { s.host with helloAckPending := false }
        script := .helloAck :: .hostState :: .activeWindow :: s.script }
    else s
  | .helloAck => { s with announced := s.host.layout }.tell s.host.sendHelloAck
  | .hostState => s.tell (.hostState ⟨s.host.enabled, injecting⟩)
  | .activeWindow =>
    if s.host.activeWindowKnown && s.host.sessionActive then
      s.tell (.activeWindow s.host.activeWindow)
    else s
  | .checkPing =>
    if s.now - s.host.lastPing < kPingInterval then s
    else { s with host := { s.host with lastPing := s.now }, script := .countPing :: s.script }
  | .countPing =>
    let unanswered := s.host.unansweredPings + 1
    { s with
      host := { s.host with unansweredPings := unanswered }
      script := (if unanswered > kMaxUnansweredPings then .drop else .ping) :: s.script }
  | .ping => s.tell (.ping s.now)
  | .drop => if s.client.isSome then { s with dropping := true } else s

/-- The host is given a message. -/
def onTransportMessage (s : Session R) : ToHost → Session R
  | .hello m =>
    if m.protoVer ≠ kProtocolVersion then { s with dropping := true }
    else { s with host := s.host.onHello m }
  | .pong tSendUs tReplyUs =>
    { s with
      host := s.host.onPong s.now tSendUs tReplyUs
      heard := s.now
      roundTrips := s.roundTrips ++ [s.now - tSendUs] }
  | .pointer action tUs => { s with host := s.host.onPointer s.now action tUs }

/-- The guest is given a message, and answers a question with the time on its own clock. -/
def onMessage (s : Session R) (guestNow : ℤ) (m : ToGuest) : Session R :=
  let s := { s with guest := s.guest.onMessage m }
  match m with
  | .ping tSendUs => s.answer (.pong tSendUs guestNow)
  | _ => s

inductive Act
  | wait (d : ℕ)
  /-- A connection that was dialled after the last one is accepted. -/
  | accept (k : ℕ)
  | connect
  | activate
  | receive
  | leave
  | forget
  | close
  /-- The UI thread looks after the session. -/
  | pump
  | window (w : ActiveWindow)
  | toggle
  | relayout (layout : DisplayLayout)
  /-- It does the next thing it has to do; `injecting` is whether a stroke is under way. -/
  | ui (injecting : Bool)
  | dial
  | linkUp
  | hello (m : Hello)
  | hear
  | linkDown
  | hangUp
  /-- Another thread of the guest reports a finger. -/
  | point (action : PointerAction) (tUs : ℤ)
  | takePending
  | fitted

/-- A step; the guest's clock is ahead by `skew k` in session `k`. -/
def step (skew : ℕ → ℤ) (s : Session R) : Act → Option (Session R)
  | .wait d => some { s with now := s.now + d }
  | .accept k =>
    if s.phase = .waiting ∧ s.accepted < k ∧ k ≤ s.dialled then
      some { s with phase := .accepted, client := some k, accepted := k, dropping := false }
    else none
  | .connect =>
    if s.phase = .accepted then
      some { s with
        phase := .cleared
        host := s.host.onTransportConnect
        heard := s.now
        roundTrips := [] }
    else none
  | .activate =>
    if s.phase = .cleared then
      some { s with
        phase := .active
        host := { s.host with sessionActive := true, lastPing := s.now }
        opened := s.now }
    else none
  | .receive =>
    match s.phase, s.client with
    | .active, some k =>
      match s.toHost k with
      | [] => none
      | m :: rest =>
        let s := { s with toHost := Function.update s.toHost k rest }
        some (m.received.elim s s.onTransportMessage)
    | _, _ => none
  | .leave =>
    if s.phase = .active then
      some { s with phase := .leaving, host := { s.host with sessionActive := false } }
    else none
  | .forget =>
    if s.phase = .leaving then
      some { s with phase := .left, host := s.host.onTransportDisconnect }
    else none
  | .close =>
    if s.phase = .left then some { s with phase := .waiting, client := none } else none
  | .pump =>
    if s.script = [] then
      some { s with
        script := if s.host.sessionActive then [.takeAck, .checkPing] else []
        pumped := s.now }
    else none
  | .window w =>
    if s.script = [] then
      some { s with
        host := { s.host with activeWindow := w, activeWindowKnown := true }
        script := [.activeWindow] }
    else none
  | .toggle =>
    if s.script = [] then
      some { s with
        host := { s.host with enabled := !s.host.enabled }
        script := if s.host.sessionActive then [.hostState] else [] }
    else none
  | .relayout layout =>
    if s.script = [] then some { s with host := { s.host with layout } } else none
  | .ui injecting =>
    match s.script with
    | [] => none
    | op :: rest => some ({ s with script := rest }.exec injecting op)
  | .dial =>
    if s.guestPhase = .down then
      some { s with
        guestPhase := .dialled
        socket := some (s.dialled + 1)
        dialled := s.dialled + 1
        toGuest := Function.update s.toGuest (s.dialled + 1) []
        toHost := Function.update s.toHost (s.dialled + 1) [] }
    else none
  | .linkUp =>
    if s.guestPhase = .dialled then
      some { s with guestPhase := .greeting, guest := s.guest.onLinkUp }
    else none
  | .hello m =>
    if s.guestPhase = .greeting then some ({ s with guestPhase := .up }.answer (.hello m))
    else none
  | .hear =>
    match s.guestPhase, s.socket with
    | .up, some k =>
      match s.toGuest k with
      | [] => none
      | m :: rest =>
        let s := { s with toGuest := Function.update s.toGuest k rest }
        some (m.received.elim s (s.onMessage (s.now + skew k)))
    | _, _ => none
  | .linkDown =>
    if s.guestPhase = .up then
      some { s with guestPhase := .falling, guest := s.guest.onLinkDown }
    else none
  | .hangUp =>
    if s.guestPhase = .falling then some { s with guestPhase := .down, socket := none } else none
  | .point action tUs => if s.socket.isSome then some (s.answer (.pointer action tUs)) else none
  | .takePending => some { s with guest := s.guest.takePending.1 }
  | .fitted => some { s with guest := { s.guest with viewFitted := true } }

/-! ### What was taken, when a step was taken -/

variable {skew : ℕ → ℤ} {s t : Session R}

lemma step_receive (h : s.step skew .receive = some t) : ∃ k m rest, s.phase = .active ∧
    s.client = some k ∧ s.toHost k = m :: rest ∧
    t = m.received.elim { s with toHost := Function.update s.toHost k rest }
      (onTransportMessage { s with toHost := Function.update s.toHost k rest }) := by
  unfold step at h
  dsimp only at h
  split at h
  · next k hp hk =>
    split at h
    · contradiction
    · next m rest hm => exact ⟨k, m, rest, hp, hk, hm, (Option.some.inj h).symm⟩
  · contradiction

lemma step_hear (h : s.step skew .hear = some t) : ∃ k m rest, s.guestPhase = .up ∧
    s.socket = some k ∧ s.toGuest k = m :: rest ∧
    t = m.received.elim { s with toGuest := Function.update s.toGuest k rest }
      (onMessage { s with toGuest := Function.update s.toGuest k rest } (s.now + skew k)) := by
  unfold step at h
  dsimp only at h
  split at h
  · next k hp hk =>
    split at h
    · contradiction
    · next m rest hm => exact ⟨k, m, rest, hp, hk, hm, (Option.some.inj h).symm⟩
  · contradiction

lemma step_ui {injecting : Bool} (h : s.step skew (.ui injecting) = some t) : ∃ op rest,
    s.script = op :: rest ∧ t = { s with script := rest }.exec injecting op := by
  unfold step at h
  dsimp only at h
  split at h
  · contradiction
  · next op rest hop => exact ⟨op, rest, hop, (Option.some.inj h).symm⟩

omit [Field R] [LinearOrder R] in
/-- A step that has a condition was taken under it. -/
lemma guarded {p : Prop} [Decidable p] {u : Session R} (h : (if p then some u else none) = some t) :
    p ∧ u = t := by
  obtain ⟨hp, hu⟩ := Option.ite_none_right_eq_some.mp h
  exact ⟨hp, Option.some.inj hu⟩

end Session

end Digitiz
