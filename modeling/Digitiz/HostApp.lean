import Digitiz.AdbTransport
import Digitiz.FrameSender
import Digitiz.Runs

/-!
The host between its two threads.

The transport thread opens sessions, stores the last request of the guest and stops the stream
when the guest is gone. The UI thread applies the request at its next tick and hands over one
batch at a time; the result of handing a message over is not looked at. A tick is taken apart
where the other thread can come in between.
-/

namespace Digitiz

/-- Where the UI thread is in a tick. -/
inductive Ui
  | idle
  /-- A request was taken and is about to be applied; it came in this session. -/
  | apply (request : ViewportReq) (session : ℕ)
  | stream
  | captured
  /-- The messages of a batch that are still to be handed over, the session it was begun in, and
  whether a message was not taken for that session. -/
  | sending (b : Batch) (rest : List (List UInt8)) (session : ℕ) (missed : Bool)

/-- Where the transport thread is in a session. -/
inductive Phase
  | waiting
  | accepted
  | active
  | left
  deriving DecidableEq, Repr

structure HostApp where
  frames : FrameSender := {}
  pendingViewport : ViewportReq := {}
  viewportPending : Bool := false
  /-- The session the stored request came in. -/
  pendingFrom : ℕ := 0
  ui : Ui := .idle
  phase : Phase := .waiting
  transport : AdbTransport := {}
  /-- The session of the request applied last that asked for a stream. -/
  appliedFrom : ℕ := 0
  /-- The tiles of the batches handed over whole in a session. -/
  handedOver : ℕ → List (ViewportGeometry × ℕ) := fun _ => []

namespace HostApp

inductive Act
  | connect
  | onConnect
  | onViewportReq (request : ViewportReq)
  | onDisconnect
  | closeClient
  /-- A step of the thread that writes to the socket. -/
  | sender (a : AdbTransport.Act)
  | takeRequest
  | setViewport
  | tick (down : Bool) (x y : ℤ) (update : Option FrameSender.FrameUpdate)
  | noSource
  | skip
  | prepareBatch (source : FrameSource)
  | sink
  | markSent

/-- The steps that are the writer's own. -/
def ofSender : AdbTransport.Act → Bool
  | .takeChunk | .write _ | .fail | .settle | .bulkIdle => true
  | .send _ _ | .connect | .close => false

variable (compress : List UInt8 → Option (List UInt8))

def step (s : HostApp) : Act → Option HostApp
  | .connect =>
    if s.phase = .waiting then
      (s.transport.step .connect).map fun t => { s with transport := t, phase := .accepted }
    else none
  | .onConnect => if s.phase = .accepted then some { s with phase := .active } else none
  | .onViewportReq request =>
    if s.phase = .active then
      some { s with
        pendingViewport := request, viewportPending := true, pendingFrom := s.transport.sessions }
    else none
  | .onDisconnect =>
    -- the next guest has seen nothing of the screen, so it is owed all of it
    if s.phase = .active then some { s with frames := s.frames.stop, phase := .left } else none
  | .closeClient =>
    if s.phase = .left then
      some { s with transport := s.transport.closeClient, phase := .waiting }
    else none
  | .sender a =>
    if ofSender a then (s.transport.step a).map fun t => { s with transport := t } else none
  | .takeRequest =>
    match s.ui with
    | .idle =>
      if s.viewportPending then
        some { s with viewportPending := false, ui := .apply s.pendingViewport s.pendingFrom }
      else some { s with ui := .stream }
    | _ => none
  | .setViewport =>
    match s.ui with
    | .apply request session =>
      let frames := s.frames.setViewport request
      some { s with
        frames := frames, ui := .stream
        appliedFrom := if frames.streaming then session else s.appliedFrom }
    | _ => none
  | .tick down x y update =>
    match s.ui with
    | .stream =>
      let frames := s.frames.setPen down x y
      if !frames.streaming ∨ !frames.geometry.valid then some { s with frames := frames, ui := .idle }
      else some { s with frames := frames.capture update, ui := .captured }
    | _ => none
  | .noSource =>
    match s.ui with
    | .stream => some { s with frames := { s.frames with streaming := false }, ui := .idle }
    | _ => none
  -- it is too early for a batch, or the last one is still on its way
  | .skip =>
    match s.ui with
    | .captured => some { s with ui := .idle }
    | _ => none
  | .prepareBatch source =>
    match s.ui with
    | .captured =>
      if (!s.frames.scheduler.anythingDirty ∧ s.frames.penTile < 0) ∨ !s.transport.queue.bulkIdle then
        some { s with ui := .idle }
      else
        match s.frames.prepareBatch source compress with
        | (frames, none) => some { s with frames := frames, ui := .idle }
        | (frames, some b) =>
          some { s with frames := frames, ui := .sending b b.messages s.transport.sessions false }
    | _ => none
  | .sink =>
    match s.ui with
    | .sending b (m :: rest) session missed =>
      let (accepted, transport) := s.transport.send m .bulk
      let missed := missed || !(accepted && decide (s.transport.client = some session))
      some { s with transport := transport, ui := .sending b rest session missed }
    | _ => none
  | .markSent =>
    match s.ui with
    | .sending b [] session missed =>
      let tiles := b.info.tiles.map fun t => (s.frames.geometry, t.toNat)
      some { s with
        frames := s.frames.finishBatch b, ui := .idle
        handedOver := if missed then s.handedOver
          else Function.update s.handedOver session (s.handedOver session ++ tiles) }
    | _ => none

end HostApp

end Digitiz
