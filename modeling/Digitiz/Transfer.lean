import Digitiz.FramerRun
import Digitiz.Reassembly
import Digitiz.SendQueue

/-!
A batch on its way from the sender to the receiver.

Its messages are queued as bulk, with messages of other types in front of them, behind them and
between them. The queue hands out bytes, the socket takes some of what it is offered, and the
other side cuts what arrives into pieces of its own. None of that shows in what comes out: both
classes arrive whole and in their own order, and the receiver puts the batches back together.
-/

namespace Digitiz

open Digitiz.Wire

/-- The queue, what it last handed out, and the bytes taken so far. -/
structure Outgoing where
  queue : SendQueue := {}
  chunk : List UInt8 := []
  wire : List UInt8 := []

namespace Outgoing

/-- What is done to the queue on the sending side. -/
inductive Call
  | push (c : SendPriority) (m : Msg)
  | pending (maxBytes : ℕ)
  /-- The socket takes this many bytes of those it was offered last. -/
  | consume (n : ℕ)
  deriving DecidableEq

def step (o : Outgoing) : Call → Outgoing
  | .push c m => { o with queue := o.queue.push c m.bytes }
  | .pending maxBytes =>
    { o with queue := (o.queue.pending maxBytes).2, chunk := (o.queue.pending maxBytes).1 }
  | .consume n =>
    let n := min n o.chunk.length
    { queue := o.queue.consume n, chunk := o.chunk.drop n, wire := o.wire ++ o.chunk.take n }

def run (calls : List Call) : Outgoing := calls.foldl step {}

/-- The messages pushed in a class. -/
def pushed (c : SendPriority) : List Call → List Msg
  | [] => []
  | .push c' m :: calls => if c' = c then m :: pushed c calls else pushed c calls
  | _ :: calls => pushed c calls

lemma pushed_append (c : SendPriority) (calls calls' : List Call) :
    pushed c (calls ++ calls') = pushed c calls ++ pushed c calls' := by
  induction calls with
  | nil => rfl
  | cons a calls ih =>
    cases a with
    | push c' m =>
      simp only [List.cons_append, pushed, ih]
      split <;> rfl
    | pending n => simpa [pushed] using ih
    | consume n => simpa [pushed] using ih

/-- What was pushed is gone whole or waits, and what was taken is what is gone and the beginning
of the message in flight. -/
structure Inv (sent : SendPriority → List Msg) (o : Outgoing) : Prop where
  chunk : o.chunk <+: o.queue.current.drop o.queue.offset
  gone : ∃ fin : List Tagged, o.wire = Tagged.concat fin ++ o.queue.written ∧
    ∀ c, (sent c).map Msg.bytes = Tagged.ofClass c fin ++ o.queue.waiting c

variable {o : Outgoing} {sent : SendPriority → List Msg}

lemma inv_push (h : Inv sent o) (c : SendPriority) (m : Msg) :
    Inv (fun c' => sent c' ++ pushed c' [.push c m]) (o.step (.push c m)) := by
  obtain ⟨hc, ho, -⟩ := SendQueue.push_fields o.queue c m.bytes
  obtain ⟨fin, hw, hs⟩ := h.gone
  refine ⟨?_, fin, ?_, fun c' => ?_⟩
  · dsimp only [step]
    rw [hc, ho]
    exact h.chunk
  · dsimp only [step]
    rw [SendQueue.written_push]
    exact hw
  · dsimp only [step]
    rw [SendQueue.waiting_push _ _ _ _ m.bytes_ne_nil, List.map_append, hs c',
      List.append_assoc, Tagged.ofClass_singleton]
    simp only [pushed]
    split <;> rfl

lemma inv_pending (h : Inv sent o) (n : ℕ) : Inv sent (o.step (.pending n)) := by
  obtain ⟨fin, hw, hs⟩ := h.gone
  refine ⟨SendQueue.pending_fst _ _, fin, ?_, fun c => ?_⟩
  · dsimp only [step]
    rw [SendQueue.written_pending]
    exact hw
  · dsimp only [step]
    rw [SendQueue.waiting_pending]
    exact hs c

/-- What is left of a chunk is still the beginning of what is left of the message. -/
lemma consume_chunk {q : SendQueue} {chunk : List UInt8} (h : chunk <+: q.current.drop q.offset)
    (n : ℕ) : chunk.drop n <+: (q.consume n).current.drop (q.consume n).offset := by
  have hlen := h.length_le
  rw [List.length_drop] at hlen
  unfold SendQueue.consume
  split_ifs with hf
  · obtain ⟨hc, ho⟩ := SendQueue.not_inFlight q (by simpa using hf)
    rw [hc, List.drop_nil, List.prefix_nil] at h
    simp [h]
  · dsimp only
    split_ifs with hlast
    · rw [List.drop_of_length_le (by omega)]
      exact List.nil_prefix
    · have hmin : min (q.offset + n) q.current.length = q.offset + n := by omega
      dsimp only
      rw [hmin, ← List.drop_drop]
      exact h.drop n

lemma inv_consume (h : Inv sent o) (n : ℕ) : Inv sent (o.step (.consume n)) := by
  obtain ⟨fin, hw, hs⟩ := h.gone
  have hn : min n o.chunk.length ≤ o.chunk.length := min_le_right _ _
  obtain ⟨last, hwait, hwrote⟩ := o.queue.consume_spec (min n o.chunk.length)
  have htake : o.chunk.take (min n o.chunk.length)
      = (o.queue.current.drop o.queue.offset).take (min n o.chunk.length) := by
    obtain ⟨l, hl⟩ := h.chunk
    rw [← hl, List.take_append_of_le_length hn]
  refine ⟨consume_chunk h.chunk _, fin ++ last, ?_, fun c => ?_⟩
  · dsimp only [step]
    rw [htake, hw, List.append_assoc, hwrote, Tagged.concat_append, List.append_assoc]
  · dsimp only [step]
    rw [hs c, hwait c, Tagged.ofClass_append, List.append_assoc]

lemma run_inv (calls : List Call) : Inv (pushed · calls) (run calls) := by
  induction calls using List.reverseRecOn with
  | nil => exact ⟨List.nil_prefix, [], rfl, fun c => by cases c <;> rfl⟩
  | append_singleton calls a ih =>
    rw [run, List.foldl_append, ← run]
    simp only [pushed_append]
    cases a with
    | push c m => exact inv_push ih c m
    | pending n => simpa [pushed] using inv_pending ih n
    | consume n => simpa [pushed] using inv_consume ih n

/-! ### The other side -/

/-- The class a message is pushed in. -/
def classOf (m : Msg) : SendPriority := if m.isFrame then .bulk else .interactive

/-- The messages behind the bytes that are gone. -/
lemma exists_msgs (fin : List Tagged) (A : SendPriority → List Msg)
    (hA : ∀ c, Tagged.ofClass c fin = (A c).map Msg.bytes) (hc : ∀ c, ∀ m ∈ A c, classOf m = c) :
    ∃ ms : List Msg, Tagged.concat fin = ms.flatMap Msg.bytes ∧
      ∀ c, ms.filter (classOf · = c) = A c := by
  induction fin generalizing A with
  | nil =>
    refine ⟨[], rfl, fun c => ?_⟩
    exact (List.map_eq_nil_iff.mp (hA c).symm).symm
  | cons x fin ih =>
    obtain ⟨c₀, x⟩ := x
    have h₀ := hA c₀
    rw [← List.singleton_append, Tagged.ofClass_append, Tagged.ofClass_singleton, if_pos rfl] at h₀
    obtain ⟨m, A', hm, hx, hA'⟩ := List.map_eq_cons_iff.mp h₀.symm
    have hcm : classOf m = c₀ := hc c₀ m (by rw [hm]; exact List.mem_cons_self)
    -- the rest of the bytes, with that message taken off its class
    have hrest : ∀ c, Tagged.ofClass c fin = (Function.update A c₀ A' c).map Msg.bytes := by
      intro c
      by_cases h : c = c₀
      · subst h
        rw [Function.update_self]
        exact hA'.symm
      · have hc' := hA c
        rw [← List.singleton_append, Tagged.ofClass_append, Tagged.ofClass_singleton,
          if_neg (Ne.symm h)] at hc'
        rw [Function.update_of_ne h, ← hc', List.nil_append]
    have hcrest : ∀ c, ∀ n ∈ Function.update A c₀ A' c, classOf n = c := by
      intro c n hn
      by_cases h : c = c₀
      · subst h
        rw [Function.update_self] at hn
        exact hc c n (by rw [hm]; exact List.mem_cons_of_mem _ hn)
      · rw [Function.update_of_ne h] at hn
        exact hc c n hn
    obtain ⟨ms, hcat, hms⟩ := ih _ hrest hcrest
    refine ⟨m :: ms, ?_, fun c => ?_⟩
    · rw [List.flatMap_cons, ← hcat, hx]
      rfl
    · have hfil := hms c
      by_cases h : c = c₀
      · subst h
        rw [Function.update_self] at hfil
        rw [List.filter_cons_of_pos (by simpa using hcm), hfil, hm]
      · rw [Function.update_of_ne h] at hfil
        rw [List.filter_cons_of_neg (by simpa [hcm] using Ne.symm h), hfil]

/-- The message in flight is waited on. -/
lemma look_written (q : SendQueue) {ms : SendPriority → List Msg}
    (hw : ∀ c, q.waiting c = (ms c).map Msg.bytes) (hfits : ∀ c, ∀ m ∈ ms c, m.Fits) :
    Framer.scanner.look q.written = .wait := by
  cases hf : q.inFlight with
  | false => rw [q.written_of_not_inFlight hf]; rfl
  | true =>
    have hmem : q.current ∈ q.waiting q.currentClass := by
      simp [SendQueue.waiting, SendQueue.flight, hf, Tagged.ofClass_singleton]
    rw [hw, List.mem_map] at hmem
    obtain ⟨m, hm, hcur⟩ := hmem
    have hlt := q.inFlight_iff.mp hf
    have hlook := Msg.look_bytes (hfits _ m hm) []
    rw [List.append_nil, hcur, ← List.take_append_drop q.offset q.current] at hlook
    refine Scan.look_prefix _ hlook ?_
    rw [← Msg.length_bytes, hcur, SendQueue.written, List.length_take]
    omega

/-- **What has been taken.** Read as messages it is, class by class, the first of those pushed,
with nothing dropped on the way; and with the queue empty it is all of them. -/
lemma parse_wire {calls : List Call} (hc : ∀ c, ∀ m ∈ pushed c calls, classOf m = c ∧ m.Fits) :
    ∃ ms : List Msg, Scan.parse Framer.scanner (run calls).wire = ⟨ms, 0, (run calls).queue.written⟩ ∧
      ∀ c, ms.filter (classOf · = c) <+: pushed c calls ∧
        ((run calls).queue.empty = true → ms.filter (classOf · = c) = pushed c calls) := by
  obtain ⟨fin, hw, hs⟩ := (run_inv calls).gone
  -- cut each class where what is gone ends
  have hcut : ∀ c, Tagged.ofClass c fin
        = ((pushed c calls).take (Tagged.ofClass c fin).length).map Msg.bytes ∧
      (run calls).queue.waiting c
        = ((pushed c calls).drop (Tagged.ofClass c fin).length).map Msg.bytes := by
    intro c
    rw [List.map_take, List.map_drop, hs c, List.take_left, List.drop_left]
    exact ⟨rfl, rfl⟩
  obtain ⟨ms, hcat, hms⟩ := exists_msgs fin _ (fun c => (hcut c).1)
    fun c m hm => (hc c m (List.mem_of_mem_take hm)).1
  have hfits : ∀ m ∈ ms, m.Fits := by
    intro m hm
    have hmem : m ∈ ms.filter (classOf · = classOf m) := List.mem_filter.mpr ⟨hm, by simp⟩
    rw [hms] at hmem
    exact (hc _ m (List.mem_of_mem_take hmem)).2
  refine ⟨ms, ?_, fun c => ⟨hms c ▸ List.take_prefix _ _, fun he => ?_⟩⟩
  · rw [hw, hcat]
    refine Scan.parse_cut _ (fun m hm v => ⟨Msg.look_bytes (hfits m hm) v, m.length_bytes.symm⟩) ?_
    exact look_written _ (fun c => (hcut c).2) fun c m hm => (hc c m (List.mem_of_mem_drop hm)).2
  · have hnil := (hcut c).2
    rw [SendQueue.waiting_of_empty _ he, eq_comm, List.map_eq_nil_iff, List.drop_eq_nil_iff] at hnil
    rw [hms c, List.take_of_length_le hnil]

lemma filter_isFrame (ms : List Msg) :
    ms.filter Msg.isFrame = ms.filter (classOf · = .bulk) := by
  refine List.filter_congr fun m _ => ?_
  cases h : m.isFrame <;> simp [classOf, h]

lemma filter_not_isFrame (ms : List Msg) :
    ms.filter (!·.isFrame) = ms.filter (classOf · = .interactive) := by
  refine List.filter_congr fun m _ => ?_
  cases h : m.isFrame <;> simp [classOf, h]

/-- The messages of a batch are the receiver's, and fit. -/
lemma fits_msgs {b : Batch} (hb : b.Whole) {m : Msg} (hm : m ∈ b.msgs) :
    classOf m = .bulk ∧ m.Fits := by
  rcases List.mem_cons.mp hm with rfl | hm
  · exact ⟨rfl, hb.fits⟩
  · obtain ⟨d, hd, rfl⟩ := List.mem_map.mp hm
    refine ⟨rfl, ?_⟩
    have hlen := Batch.length_chunk hd
    unfold Msg.Fits Batch.dataMsg kMaxPayload
    dsimp only
    rw [FrameData.length_payload]
    unfold kFrameChunkBytes at hlen
    omega

/-- **Batches survive the whole stack.** Batches pushed as bulk among messages of other types,
bytes handed out and taken in any portions, and the stream cut in any way on the other side:
the receiver hands on the first of the batches as they were, the other messages are the first of
those pushed, no byte is dropped, no chunk is a stray, and only a complete batch can be refused.
Once the queue is empty, it is all of them. -/
theorem run_delivers (decompress : List UInt8 → ℕ → Option (List UInt8)) {calls : List Call}
    {bs : List Batch} {ops : List Framer.Op} (hbs : ∀ b ∈ bs, b.Whole)
    (hbulk : pushed .bulk calls = bs.flatMap Batch.msgs)
    (hother : ∀ m ∈ pushed .interactive calls, m.isFrame = false ∧ m.Fits)
    (hops : Framer.pushed ops = (run calls).wire) :
    let (ms, framer) := Framer.run Framer.drain (ops ++ [.drain])
    let (receiver, completed) := FrameReceiver.receive decompress ({}, []) ms
    (completed <+: bs ∧ ms.filter (!·.isFrame) <+: pushed .interactive calls) ∧
    framer.resyncBytes = 0 ∧ receiver.stats.straySeq = 0 ∧
    receiver.stats.malformed = completed.countP (FrameReceiver.refused decompress) ∧
    ((run calls).queue.empty = true →
      completed = bs ∧ ms.filter (!·.isFrame) = pushed .interactive calls) := by
  have hc : ∀ c, ∀ m ∈ pushed c calls, classOf m = c ∧ m.Fits := by
    intro c m hm
    cases c with
    | interactive =>
      obtain ⟨hf, hfits⟩ := hother m hm
      exact ⟨by simp [classOf, hf], hfits⟩
    | bulk =>
      rw [hbulk, List.mem_flatMap] at hm
      obtain ⟨b, hb, hm⟩ := hm
      exact fits_msgs (hbs b hb) hm
  obtain ⟨ms, hparse, hms⟩ := parse_wire hc
  have hrun := Framer.run_drain_eq Framer.drain_reads ops
  rw [hops, hparse] at hrun
  simp only [Scan.Parsed.mk.injEq] at hrun
  obtain ⟨hms', hsync, -⟩ := hrun
  -- the receiver sees the bulk messages only
  have hb := (hms .bulk).1
  rw [hbulk, ← filter_isFrame] at hb
  have hclean : FrameReceiver.Clean decompress ({}, []) := ⟨rfl, rfl⟩
  obtain ⟨⟨hstray, hmal⟩, j, hj, hall⟩ := FrameReceiver.receive_batches hbs hclean hb
  rw [← FrameReceiver.receive_filter] at hstray hmal hj
  rw [List.nil_append] at hj
  dsimp only
  rw [← hms', filter_not_isFrame, hj]
  rw [hj] at hmal
  refine ⟨⟨List.take_prefix _ _, (hms .interactive).1⟩, hsync.symm, hstray, hmal, fun he => ?_⟩
  refine ⟨hall ?_, (hms .interactive).2 he⟩
  rw [filter_isFrame, (hms .bulk).2 he, hbulk]

/-- A batch of one tile and three bytes. -/
def smallBatch : Batch :=
  ⟨{ seq := 1, payloadBytes := 3, tiles := [0] }, [7, 8, 9]⟩

lemma smallBatch_msgs :
    smallBatch.msgs = [smallBatch.infoMsg, Batch.dataMsg ⟨1, 0, [7, 8, 9]⟩] := by
  rw [Batch.msgs, Batch.chunks, Batch.chunksFrom_of_lt (by decide),
    Batch.chunksFrom_of_ge (by decide)]
  rfl

/-- A ping is pushed while the first message of the batch is half written. -/
def pingBetween : List Call :=
  [.push .bulk smallBatch.infoMsg, .pending 16, .consume 5, .push .interactive ⟨.ping, 0, [1]⟩,
    .push .bulk (Batch.dataMsg ⟨1, 0, [7, 8, 9]⟩), .pending 100, .consume 100, .pending 100,
    .consume 100, .pending 100, .consume 100]

theorem pingBetween_delivers :
    (FrameReceiver.receive (fun _ _ => none) ({}, [])
      (Framer.run Framer.drain [.push (run pingBetween).wire, .drain]).1).2 = [smallBatch] := by
  have hbs : ∀ b ∈ [smallBatch], b.Whole := by
    intro b hb
    obtain rfl := List.mem_singleton.mp hb
    exact ⟨by decide, rfl, by unfold Msg.Fits; decide⟩
  have hbulk : pushed .bulk pingBetween = [smallBatch].flatMap Batch.msgs := by
    rw [List.flatMap_singleton, smallBatch_msgs]
    rfl
  have hother : ∀ m ∈ pushed .interactive pingBetween, m.isFrame = false ∧ m.Fits := by
    unfold Msg.Fits
    decide
  have hops : Framer.pushed [.push (run pingBetween).wire] = (run pingBetween).wire :=
    List.append_nil _
  have hd := run_delivers (fun _ _ => none) hbs hbulk hother hops
  exact (hd.2.2.2.2 (by decide +kernel)).1

end Outgoing

end Digitiz
