import Digitiz.GuestStream
import Digitiz.Picture
import Digitiz.SenderSteps

/-!
The screen stream of one session, from the request to the picture.

Requests go one way and the messages of batches the other, both in order and without loss. The
guest asks, stops, loses its window and uploads what has arrived; the host keeps the last request
it was sent, applies it at its next tick, captures and sends. Every request is stamped with the
number of times the guest had thrown its picture away when it was sent, and the host remembers
the stamp of the request it applied last; neither is part of the program.
-/

namespace Digitiz

open FrameSender

structure ScreenStream (D : Type) where
  app : App := {}
  uplink : List (ℕ × ViewportReq) := []
  downlink : List Msg := []
  /-- The last request stored by the host and not applied yet. -/
  pending : Option (ℕ × ViewportReq) := none
  frames : FrameSender := {}
  /-- The desktop as it was last captured. -/
  desktop : D
  discards : ℕ := 0
  applied : Option ℕ := none

namespace ScreenStream

/-- What a view of the desktop is asked for with: nothing, or thirty frames of ETC2 in tiles of
64 pixels. -/
def isView (r : ViewportReq) : Bool :=
  r = {} ∨ r.fps = 30 ∧ r.format = .etc2Rgb8 ∧ r.tile = 64

inductive Act (D : Type)
  | update (enabled : Bool) (wanted : ViewportReq) (settled : Bool)
  | initWindow
  | termWindow
  | receive
  | reset
  | render
  | storeRequest
  | applyRequest
  | setPen (down : Bool) (x y : ℤ)
  | setBudgetTiles (tiles : ℤ)
  | capture (update : Option FrameUpdate) (desktop : D)
  | sendBatch

section step

variable {D : Type} (source : D → FrameSource) (compress : List UInt8 → Option (List UInt8))
  (decompress : List UInt8 → ℕ → Option (List UInt8))

/-- The app throws its picture away and says so. -/
def stop (s : ScreenStream D) : ScreenStream D :=
  { s with
    app := s.app.stopStream
    uplink := s.uplink ++ (s.app.farewell true).toList.map fun r => (s.discards, r)
    discards := s.discards + 1 }

def step (s : ScreenStream D) : Act D → Option (ScreenStream D)
  | .update enabled wanted settled =>
    if isView wanted then
      let want := s.app.want enabled wanted
      if s.app.frame true want settled = .stop then some s.stop
      else
        let (app, sent) := s.app.updateStream true want settled true true
        some { s with
          app := app, uplink := s.uplink ++ sent.toList.map fun r => (s.discards, r) }
    else none
  | .initWindow => some { s with app := { s.app with screen := s.app.screen.init } }
  | .termWindow =>
    some { s.stop with app := { s.stop.app with screen := s.stop.app.screen.release } }
  | .receive =>
    match s.downlink with
    | [] => none
    | m :: rest =>
      some { s with
        downlink := rest
        app := { s.app with frames := s.app.frames.onMessage decompress m } }
  | .reset => some { s with app := { s.app with frames := s.app.frames.reset } }
  | .render =>
    let (batches, frames) := s.app.frames.take
    some { s with
      app := { s.app with
        frames := frames, screen := batches.foldl ScreenRenderer.upload s.app.screen } }
  | .storeRequest =>
    match s.uplink with
    | [] => none
    | r :: rest => some { s with uplink := rest, pending := some r }
  | .applyRequest =>
    match s.pending with
    | none => none
    | some (stamp, request) =>
      let frames := s.frames.setViewport request
      some { s with
        pending := none, frames := frames
        applied := if request.starts then some stamp else s.applied }
  | .setPen down x y => some { s with frames := s.frames.setPen down x y }
  | .setBudgetTiles tiles => some { s with frames := s.frames.setBudgetTiles tiles }
  | .capture update desktop =>
    if s.frames.streaming ∧ s.frames.geometry.valid then
      some { s with frames := s.frames.capture update, desktop := desktop }
    else none
  | .sendBatch =>
    if s.frames.streaming ∧ s.frames.geometry.valid then
      let (frames, batch) := s.frames.sendBatch (source s.desktop) compress
      some { s with
        frames := frames, downlink := s.downlink ++ batch.toList.flatMap Batch.msgs }
    else none

end step

end ScreenStream

end Digitiz
