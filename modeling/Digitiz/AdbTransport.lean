import Mathlib.Logic.Function.Basic
import Digitiz.Runs
import Digitiz.SendQueue

/-!
The host's side of the link, as the threads that share it see it.

Every section that holds the send mutex is one step. The sender thread takes a chunk under the
lock, writes it with the lock released, and settles what came of it under the lock again; the
application queues messages and the transport thread opens and closes sessions in between.
Sessions are numbered from one and each has a socket of its own. What was taken for a session and
what was written to its socket are kept beside the state the program has.
-/

namespace Digitiz

/-- Where the sender thread is between its two locked sections. -/
inductive Sender
  | idle
  | writing (k : ℕ) (chunk : List UInt8)
  | wrote (k n : ℕ)
  | failed (k : ℕ)
  deriving DecidableEq, Repr

structure AdbTransport where
  queue : SendQueue := {}
  client : Option ℕ := none
  sessions : ℕ := 0
  sender : Sender := .idle
  txMessages : ℕ := 0
  txBytes : ℕ := 0
  /-- The messages `send` took while the session's socket was the client. -/
  accepted : ℕ → List Tagged := fun _ => []
  /-- The bytes written to the session's socket. -/
  wire : ℕ → List UInt8 := fun _ => []
  /-- A write to the session's socket has failed. -/
  failed : ℕ → Bool := fun _ => false
  /-- One has failed with a message half written. -/
  torn : ℕ → Bool := fun _ => false

namespace AdbTransport

def kWriteChunk : ℕ := 16 * 1024

def send (t : AdbTransport) (bytes : List UInt8) (p : SendPriority) : Bool × AdbTransport :=
  if bytes = [] then (true, t)
  else
    match t.client with
    | none => (false, t)
    | some k =>
      (true, { t with
        queue := t.queue.push p bytes
        txMessages := t.txMessages + 1
        txBytes := t.txBytes + bytes.length
        accepted := Function.update t.accepted k (t.accepted k ++ [(p, bytes)]) })

/-- The first locked section of the sender. -/
def takeChunk (t : AdbTransport) : AdbTransport :=
  match t.client with
  -- anything queued belongs to a socket that is gone
  | none => { t with queue := t.queue.clear }
  | some k =>
    let (chunk, queue) := t.queue.pending kWriteChunk
    if chunk = [] then { t with queue := queue }
    else { t with queue := queue, sender := .writing k chunk }

/-- The second one, after the write. -/
def settle (t : AdbTransport) : AdbTransport :=
  match t.sender with
  | .wrote _ n => { t with queue := t.queue.consume n, sender := .idle }
  | .failed _ => { t with queue := t.queue.clear, sender := .idle }
  | _ => t

def closeClient (t : AdbTransport) : AdbTransport := { t with client := none }

inductive Act
  | send (bytes : List UInt8) (p : SendPriority)
  | takeChunk
  /-- The system takes this many bytes of the chunk. -/
  | write (n : ℕ)
  | fail
  | settle
  | bulkIdle
  | connect
  | close

def step (t : AdbTransport) : Act → Option AdbTransport
  | .send bytes p => some (t.send bytes p).2
  | .takeChunk => if t.sender = .idle then some t.takeChunk else none
  | .write n =>
    match t.sender with
    | .writing k chunk =>
      if 0 < n ∧ n ≤ chunk.length then
        some { t with
          sender := .wrote k n, wire := Function.update t.wire k (t.wire k ++ chunk.take n) }
      else none
    | _ => none
  | .fail =>
    match t.sender with
    | .writing k _ =>
      some { t with
        sender := .failed k
        failed := Function.update t.failed k true
        torn := Function.update t.torn k (t.torn k || decide (0 < t.queue.offset)) }
    | _ => none
  | .settle => if t.sender = .idle then none else some t.settle
  | .bulkIdle => some t
  -- the transport thread serves one session after the other
  | .connect =>
    if t.client = none then
      some { t with client := some (t.sessions + 1), sessions := t.sessions + 1 }
    else none
  | .close => some t.closeClient

end AdbTransport

end Digitiz
