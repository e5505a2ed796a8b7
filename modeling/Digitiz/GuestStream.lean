import Digitiz.Runs
import Digitiz.ScreenRenderer

/-!
What the guest asks for, and in which session it asked.

The render thread looks at the link once per frame and remembers the request it sent last, so
that the same one is not sent again. The network thread closes a connection and opens the next
one on its own time. A reconnection that falls between two looks is not noticed, and the request
is then taken for one the new host has been sent.
-/

namespace Digitiz

/-- The part of the app that belongs to the stream. -/
structure App where
  sentViewport : ViewportReq := {}
  wantedViewport : ViewportReq := {}
  frames : FrameReceiver := {}
  screen : ScreenRenderer := {}

namespace App

/-- What is asked for when the user wants the screen and `wanted` is the part of it in view. -/
def want (a : App) (enabled : Bool) (wanted : ViewportReq) : ViewportReq :=
  if enabled && a.screen.ready then wanted else {}

/-- Whether there is something to stop. -/
def streamOn (a : App) : Bool := a.sentViewport.fps > 0 ∨ a.screen.hasImage

/-- What a frame comes to. -/
inductive Frame
  | rest
  | stop
  /-- The request is new and has to settle first. -/
  | note
  | alreadyAsked
  | ask
  deriving DecidableEq, Repr

def frame (a : App) (linked : Bool) (want : ViewportReq) (settled : Bool) : Frame :=
  if !linked then if a.streamOn then .stop else .rest
  else if want.fps = 0 then if a.streamOn then .stop else .rest
  else if want ≠ a.wantedViewport then .note
  else if want = a.sentViewport then .alreadyAsked
  else if !settled then .rest
  else .ask

/-- Forgets the picture and whatever is on its way to it. -/
def stopStream (a : App) : App :=
  { a with
    frames := a.frames.reset
    screen := a.screen.clear
    sentViewport := {}
    wantedViewport := {} }

/-- The request that tells the host to stop, if it was ever told to start. -/
def farewell (a : App) (connected : Bool) : Option ViewportReq :=
  if a.sentViewport.fps > 0 ∧ connected then some {} else none

/-- One frame, and the request it sends; `accepts` says whether the link takes it. -/
def updateStream (a : App) (linked : Bool) (want : ViewportReq) (settled connected accepts : Bool) :
    App × Option ViewportReq :=
  match a.frame linked want settled with
  | .rest | .alreadyAsked => (a, none)
  | .stop => (a.stopStream, if accepts then a.farewell connected else none)
  | .note => ({ a with wantedViewport := want }, none)
  | .ask => if accepts then ({ a with sentViewport := want }, some want) else (a, none)

end App

/-- Where the network thread is in its loop. -/
inductive Net
  | connecting
  | dialled
  | connected
  | up
  | down
  | closed
  deriving DecidableEq, Repr

namespace Net

/-- The socket can be written to. -/
def socketOpen : Net → Bool
  | .dialled | .connected | .up | .down => true
  | .connecting | .closed => false

/-- What the link says of itself. It still says so after the socket is closed. -/
def stateConnected : Net → Bool
  | .connected | .up | .down | .closed => true
  | .connecting | .dialled => false

end Net

/-- The app, its link, and a record of what was sent on which connection. -/
structure Guest where
  app : App := {}
  net : Net := .connecting
  linkUp : Bool := false
  connection : ℕ := 0
  /-- What the frame under way saw of the link. -/
  linked : Option Bool := none
  log : List (ℕ × ViewportReq) := []

namespace Guest

inductive Act
  | dial
  | connected
  | onLinkUp
  | onLinkDown
  | closeSocket
  | retry
  | look
  | update (enabled : Bool) (wanted : ViewportReq) (settled accepts : Bool)
  | initWindow
  | termWindow (accepts : Bool)

/-- Puts down what was sent on the connection at hand. -/
def record (s : Guest) (sent : Option ViewportReq) : List (ℕ × ViewportReq) :=
  s.log ++ sent.toList.map fun request => (s.connection, request)

def step (s : Guest) : Act → Option Guest
  | .dial =>
    if s.net = .connecting then some { s with net := .dialled, connection := s.connection + 1 }
    else none
  | .connected => if s.net = .dialled then some { s with net := .connected } else none
  | .onLinkUp => if s.net = .connected then some { s with net := .up, linkUp := true } else none
  | .onLinkDown =>
    if s.net = .up then
      some { s with
        net := .down, linkUp := false, app := { s.app with frames := s.app.frames.reset } }
    else none
  | .closeSocket => if s.net = .down then some { s with net := .closed } else none
  | .retry => if s.net = .closed then some { s with net := .connecting } else none
  | .look => if s.linked = none then some { s with linked := some s.linkUp } else none
  | .update enabled wanted settled accepts =>
    match s.linked with
    | none => none
    | some linked =>
      let (app, sent) := s.app.updateStream linked (s.app.want enabled wanted) settled
        s.net.stateConnected (accepts && s.net.socketOpen)
      some { s with app := app, linked := none, log := s.record sent }
  | .initWindow => some { s with app := { s.app with screen := s.app.screen.init } }
  | .termWindow accepts =>
    let sent := if accepts && s.net.socketOpen then s.app.farewell s.net.stateConnected else none
    let app := s.app.stopStream
    some { s with app := { app with screen := app.screen.release }, log := s.record sent }

/-- The request last sent, if it asks for anything, was sent on this connection. -/
def AskedHere (s : Guest) : Prop :=
  s.app.sentViewport.fps = 0 ∨ (s.connection, s.app.sentViewport) ∈ s.log

instance (s : Guest) : Decidable s.AskedHere := inferInstanceAs (Decidable (_ ∨ _))

/-- No connection comes up with a request of an older one still on record. -/
def Noticed (s : Guest) : Act → Prop
  | .onLinkUp => s.AskedHere
  | _ => True

instance (s : Guest) (a : Act) : Decidable (s.Noticed a) :=
  match a with
  | .onLinkUp => inferInstanceAs (Decidable s.AskedHere)
  | .dial | .connected | .onLinkDown | .closeSocket | .retry | .look | .update .. | .initWindow
  | .termWindow _ => .isTrue trivial

/-! ### The record is true -/

/-- While the link is up the socket is open, and what is on record was sent on it. -/
structure Inv (s : Guest) : Prop where
  up : s.linkUp = true → s.net = .up
  asked : s.linkUp = true → s.AskedHere

variable {s t : Guest}

lemma mem_record {x : ℕ × ViewportReq} (h : x ∈ s.log) (sent : Option ViewportReq) :
    x ∈ s.record sent := List.mem_append_left _ h

/-- A frame either leaves the request on record alone, clears it, or sends a new one. -/
lemma updateStream_cases (a : App) (linked : Bool) (want : ViewportReq)
    (settled connected accepts : Bool) :
    let r := a.updateStream linked want settled connected accepts
    r.1.sentViewport = a.sentViewport ∨ r.1.sentViewport = {} ∨ r.2 = some r.1.sentViewport := by
  unfold App.updateStream
  split
  · exact .inl rfl
  · exact .inl rfl
  · exact .inr (.inl rfl)
  · exact .inl rfl
  · split
    · exact .inr (.inr rfl)
    · exact .inl rfl

lemma inv_update (h : s.Inv) {enabled settled accepts : Bool} {wanted : ViewportReq}
    (hs : s.step (.update enabled wanted settled accepts) = some t) : t.Inv := by
  unfold step at hs
  cases hl : s.linked with
  | none => simp [hl] at hs
  | some linked =>
    simp only [hl, Option.some.injEq] at hs
    have hc := updateStream_cases s.app linked (s.app.want enabled wanted) settled
      s.net.stateConnected (accepts && s.net.socketOpen)
    subst hs
    refine ⟨h.up, fun hup => ?_⟩
    rcases hc with hc | hc | hc
    · unfold AskedHere
      rw [hc]
      exact (h.asked hup).imp_right fun hm => mem_record hm _
    · exact .inl (by rw [hc])
    · refine .inr (List.mem_append_right _ ?_)
      rw [hc]
      exact List.mem_singleton_self _

lemma step_inv (h : s.Inv) {a : Act} (hok : s.Noticed a) (hs : s.step a = some t) : t.Inv := by
  cases a with
  | update enabled wanted settled accepts => exact inv_update h hs
  | termWindow accepts =>
    obtain rfl := Option.some.inj hs
    exact ⟨h.up, fun _ => .inl rfl⟩
  | initWindow =>
    obtain rfl := Option.some.inj hs
    exact ⟨h.up, h.asked⟩
  | look =>
    simp only [step, Option.ite_none_right_eq_some, Option.some.injEq] at hs
    obtain ⟨-, rfl⟩ := hs
    exact ⟨h.up, h.asked⟩
  | onLinkUp =>
    simp only [step, Option.ite_none_right_eq_some, Option.some.injEq] at hs
    obtain ⟨-, rfl⟩ := hs
    exact ⟨fun _ => rfl, fun _ => hok⟩
  | onLinkDown =>
    simp only [step, Option.ite_none_right_eq_some, Option.some.injEq] at hs
    obtain ⟨-, rfl⟩ := hs
    exact ⟨nofun, nofun⟩
  | dial | connected | closeSocket | retry =>
    -- the link is not up at any of these
    simp only [step, Option.ite_none_right_eq_some, Option.some.injEq] at hs
    obtain ⟨hn, rfl⟩ := hs
    have hdown : s.linkUp ≠ true := fun hup => by simp [h.up hup] at hn
    exact ⟨fun hup => absurd hup hdown, fun hup => absurd hup hdown⟩

/-- **What is on record was asked for.** In a run in which every connection that comes up finds
the record empty or made on it, a frame that sends nothing because the request is the one on
record is right: it was sent on the connection that is up. -/
theorem run_alreadyAsked {as : List Act} (h : Run step Noticed {} as s) {linked settled : Bool}
    {want : ViewportReq} (hup : s.linkUp = true)
    (hframe : s.app.frame linked want settled = .alreadyAsked) : (s.connection, want) ∈ s.log := by
  have hinv : s.Inv :=
    h.invariant Inv (fun _ _ _ hi hok hs => step_inv hi hok hs) ⟨nofun, nofun⟩
  unfold App.frame at hframe
  split_ifs at hframe with hlinked hon hfps hon' hwanted hsent
  rw [hsent]
  exact (hinv.asked hup).resolve_left (hsent ▸ hfps)

/-- The whole of a small desktop. -/
def smallView : ViewportReq :=
  { w := 64, h := 64, outW := 64, outH := 64, fps := 30, format := .etc2Rgb8, tile := 64 }

/-- The view is asked for once the link is up, after it was wanted for a while. -/
def asking : List Act :=
  [.initWindow, .dial, .connected, .onLinkUp, .look, .update true smallView false true,
    .look, .update true smallView true true]

theorem asking_alreadyAsked :
    let s := Run.final step Noticed {} asking
    s.app.frame true smallView true = .alreadyAsked ∧ (s.connection, smallView) ∈ s.log := by
  intro s
  have hrun : Run step Noticed {} asking s := Run.to_final (by decide +kernel)
  have hframe : s.app.frame true smallView true = .alreadyAsked := by decide +kernel
  exact ⟨hframe, run_alreadyAsked hrun (by decide +kernel) hframe⟩

/-- The link goes down and another comes up before the next frame looks. -/
def reconnecting : List Act :=
  asking ++ [.onLinkDown, .closeSocket, .retry, .dial, .connected, .onLinkUp, .look]

/-- The new host is never asked. -/
theorem reconnecting_never_asks :
    ¬∀ (as : List Act) (s : Guest), Run step (fun _ _ => True) {} as s → s.linkUp = true →
      ∀ linked want settled, s.linked = some linked →
        s.app.frame linked want settled = .alreadyAsked → (s.connection, want) ∈ s.log := by
  intro hall
  have hrun : Run step (fun _ _ => True) {} reconnecting _ := Run.to_final (by decide +kernel)
  have h := hall _ _ hrun (by decide +kernel) true smallView true (by decide +kernel)
    (by decide +kernel)
  exact absurd h (by decide +kernel)

end Guest

end Digitiz
