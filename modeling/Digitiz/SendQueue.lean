import Mathlib.Algebra.BigOperators.Group.List.Basic
import Mathlib.Algebra.Ring.Nat
import Mathlib.Tactic.Common

/-!
The queue above the socket: what the user is waiting on goes before screen tiles.

It hands out the bytes of one message at a time, and a message that has begun to go out is
finished before another is picked. Nothing empty is ever queued, and the message in flight is
dropped the moment its last byte is gone, so between calls either a message is in flight with
bytes left or there is none.
-/

namespace Digitiz

inductive SendPriority
  | interactive | bulk
  deriving DecidableEq, Repr

/-- A message together with the class it was sent in. -/
abbrev Tagged := SendPriority × List UInt8

namespace Tagged

/-- The messages of one class, in order. -/
def ofClass (c : SendPriority) (ms : List Tagged) : List (List UInt8) :=
  (ms.filter (·.1 = c)).map Prod.snd

/-- The bytes of the messages, one after the other. -/
def concat (ms : List Tagged) : List UInt8 := ms.flatMap Prod.snd

@[simp] lemma ofClass_nil (c : SendPriority) : ofClass c [] = [] := rfl

@[simp] lemma ofClass_append (c : SendPriority) (ms ms' : List Tagged) :
    ofClass c (ms ++ ms') = ofClass c ms ++ ofClass c ms' := by
  simp [ofClass]

lemma ofClass_singleton (c c' : SendPriority) (m : List UInt8) :
    ofClass c [(c', m)] = if c' = c then [m] else [] := by
  by_cases h : c' = c <;> simp [ofClass, h]

@[simp] lemma concat_nil : concat [] = [] := rfl

@[simp] lemma concat_append (ms ms' : List Tagged) : concat (ms ++ ms') = concat ms ++ concat ms' :=
  List.flatMap_append

@[simp] lemma concat_singleton (t : Tagged) : concat [t] = t.2 := by simp [concat]

end Tagged

/-! ### The queue -/

namespace SendQueue

lemma bytes_of_none : 0 = (([] : List (List UInt8)).map List.length).sum := rfl

lemma none_inFlight : 0 < ([] : List UInt8).length ∨ ([] : List UInt8) = [] ∧ 0 = 0 :=
  .inr ⟨rfl, rfl⟩

lemma none_empty : ([] : List UInt8) ∉ ([] : List (List UInt8)) := List.not_mem_nil

end SendQueue

structure SendQueue where
  interactive : List (List UInt8) := []
  bulk : List (List UInt8) := []
  bulkBytes : ℕ := 0
  current : List UInt8 := []
  offset : ℕ := 0
  currentIsBulk : Bool := false
  bulkLimit : ℕ := 64 * 1024
  oversizeBulk : ℕ := 0
  interactive_ne : [] ∉ interactive := by exact SendQueue.none_empty
  bulk_ne : [] ∉ bulk := by exact SendQueue.none_empty
  bulkBytes_eq : bulkBytes = (bulk.map List.length).sum := by exact SendQueue.bytes_of_none
  current_or : offset < current.length ∨ current = [] ∧ offset = 0 := by
    exact SendQueue.none_inFlight

namespace SendQueue

def inFlight (q : SendQueue) : Bool := q.offset < q.current.length

def pushInteractive (q : SendQueue) (message : List UInt8) : SendQueue :=
  if h : message = [] then q
  else
    { q with
      interactive := q.interactive ++ [message]
      interactive_ne := by
        rw [List.mem_append, List.mem_singleton]
        exact fun hm => hm.elim q.interactive_ne (Ne.symm h) }

def pushBulk (q : SendQueue) (message : List UInt8) : SendQueue :=
  if h : message = [] then q
  else
    { q with
      oversizeBulk := if message.length > q.bulkLimit then q.oversizeBulk + 1 else q.oversizeBulk
      bulkBytes := q.bulkBytes + message.length
      bulk := q.bulk ++ [message]
      bulk_ne := by
        rw [List.mem_append, List.mem_singleton]
        exact fun hm => hm.elim q.bulk_ne (Ne.symm h)
      bulkBytes_eq := by simp [q.bulkBytes_eq] }

/-- Interactive first, always. The only thing that outranks it is a message already partly
written, and that is handled by not getting here. -/
def takeNext (q : SendQueue) : SendQueue :=
  match hi : q.interactive, hb : q.bulk with
  | m :: ms, _ =>
    { q with
      current := m, interactive := ms, currentIsBulk := false, offset := 0
      interactive_ne := fun h => q.interactive_ne (hi ▸ List.mem_cons_of_mem _ h)
      current_or := .inl (List.length_pos_iff.mpr fun h => q.interactive_ne (by simp [hi, h])) }
  | [], m :: ms =>
    { q with
      current := m, bulk := ms, bulkBytes := q.bulkBytes - m.length, currentIsBulk := true
      offset := 0
      bulk_ne := fun h => q.bulk_ne (hb ▸ List.mem_cons_of_mem _ h)
      bulkBytes_eq := by simp [q.bulkBytes_eq, hb]
      current_or := .inl (List.length_pos_iff.mpr fun h => q.bulk_ne (by simp [hb, h])) }
  | [], [] =>
    { q with current := [], currentIsBulk := false, offset := 0, current_or := .inr ⟨rfl, rfl⟩ }

/-- The next run of bytes for the socket. It never spans two messages. -/
def pending (q : SendQueue) (maxBytes : ℕ) : List UInt8 × SendQueue :=
  let q := if !q.inFlight then q.takeNext else q
  (if !q.inFlight ∨ maxBytes = 0 then []
    else (q.current.drop q.offset).take (min maxBytes (q.current.length - q.offset)), q)

/-- How many of those bytes the socket took. -/
def consume (q : SendQueue) (bytes : ℕ) : SendQueue :=
  if !q.inFlight then q
  else
    let offset := min (q.offset + bytes) q.current.length
    if h : offset ≥ q.current.length then
      { q with current := [], offset := 0, currentIsBulk := false, current_or := .inr ⟨rfl, rfl⟩ }
    else { q with offset := offset, current_or := .inl (Nat.lt_of_not_le h) }

def empty (q : SendQueue) : Bool := q.interactive.isEmpty && q.bulk.isEmpty && !q.inFlight

/-- No frame data is waiting or in flight. -/
def bulkIdle (q : SendQueue) : Bool := q.bulk.isEmpty && !(q.currentIsBulk && q.inFlight)

/-- What an interactive message pushed now would have to wait behind. -/
def inversionBytes (q : SendQueue) : ℕ := if q.inFlight then q.current.length - q.offset else 0

def dropQueuedBulk (q : SendQueue) : ℕ × SendQueue :=
  (q.bulk.length, { q with bulk := [], bulkBytes := 0, bulk_ne := by simp, bulkBytes_eq := rfl })

def clear (q : SendQueue) : SendQueue :=
  { q with
    interactive := [], bulk := [], bulkBytes := 0, current := [], offset := 0
    currentIsBulk := false
    interactive_ne := by simp, bulk_ne := by simp, bulkBytes_eq := rfl
    current_or := .inr ⟨rfl, rfl⟩ }

def push (q : SendQueue) : SendPriority → List UInt8 → SendQueue
  | .interactive, m => q.pushInteractive m
  | .bulk, m => q.pushBulk m

/-! ### What the queue holds -/

/-- The class of the message in flight. -/
def currentClass (q : SendQueue) : SendPriority := if q.currentIsBulk then .bulk else .interactive

/-- The message in flight, if there is one. -/
def flight (q : SendQueue) : List Tagged :=
  if q.inFlight then [(q.currentClass, q.current)] else []

def queued (q : SendQueue) : SendPriority → List (List UInt8)
  | .interactive => q.interactive
  | .bulk => q.bulk

/-- The messages of a class that have not gone out whole, in the order they will. -/
def waiting (q : SendQueue) (c : SendPriority) : List (List UInt8) :=
  Tagged.ofClass c q.flight ++ q.queued c

/-- The part of the message in flight that has gone out. -/
def written (q : SendQueue) : List UInt8 := q.current.take q.offset

variable (q : SendQueue)

lemma inFlight_iff : q.inFlight = true ↔ q.offset < q.current.length := decide_eq_true_iff

lemma not_inFlight (h : q.inFlight = false) : q.current = [] ∧ q.offset = 0 := by
  rcases q.current_or with hlt | h0
  · rw [(inFlight_iff q).mpr hlt] at h
    contradiction
  · exact h0

lemma written_of_not_inFlight (h : q.inFlight = false) : q.written = [] := by
  rw [written, (not_inFlight q h).1, List.take_nil]

/-- The bytes of the message in flight that are out, and some of the rest. -/
lemma written_append_prefix (bs : List UInt8) (h : bs <+: q.current.drop q.offset) :
    q.written ++ bs <+: Tagged.concat q.flight := by
  cases hf : q.inFlight with
  | false =>
    rw [(not_inFlight q hf).1, List.drop_nil, List.prefix_nil] at h
    rw [written_of_not_inFlight q hf, h]
    exact List.nil_prefix
  | true =>
    rw [flight, if_pos hf, Tagged.concat_singleton]
    have hc : q.written ++ q.current.drop q.offset = q.current := List.take_append_drop _ _
    rw [← hc, List.prefix_append_right_inj]
    exact h

lemma empty_iff : q.empty = true ↔ q.inFlight = false ∧ ∀ c, q.queued c = [] := by
  unfold empty
  simp only [Bool.and_eq_true, List.isEmpty_iff, Bool.not_eq_true']
  constructor
  · rintro ⟨⟨hi, hb⟩, hf⟩
    exact ⟨hf, fun c => by cases c <;> assumption⟩
  · rintro ⟨hf, hq⟩
    exact ⟨⟨hq .interactive, hq .bulk⟩, hf⟩

lemma waiting_of_empty (h : q.empty = true) (c : SendPriority) : q.waiting c = [] := by
  obtain ⟨hf, hq⟩ := (empty_iff q).mp h
  simp [waiting, flight, hf, hq]

@[simp] lemma waiting_clear (c : SendPriority) : q.clear.waiting c = [] := by
  cases c <;> rfl

@[simp] lemma written_clear : q.clear.written = [] := rfl

/-! ### One call at a time -/

lemma push_fields (c : SendPriority) (m : List UInt8) :
    (q.push c m).current = q.current ∧ (q.push c m).offset = q.offset ∧
      (q.push c m).currentIsBulk = q.currentIsBulk := by
  cases c <;> simp only [push, pushInteractive, pushBulk] <;> split <;> exact ⟨rfl, rfl, rfl⟩

lemma flight_push (c : SendPriority) (m : List UInt8) : (q.push c m).flight = q.flight := by
  obtain ⟨hc, ho, hb⟩ := push_fields q c m
  simp [flight, inFlight, currentClass, hc, ho, hb]

lemma written_push (c : SendPriority) (m : List UInt8) : (q.push c m).written = q.written := by
  obtain ⟨hc, ho, -⟩ := push_fields q c m
  simp only [written, hc, ho]

/-- A message is queued behind those of its class. -/
lemma waiting_push (c c' : SendPriority) (m : List UInt8) (hm : m ≠ []) :
    (q.push c m).waiting c' = q.waiting c' ++ Tagged.ofClass c' [(c, m)] := by
  rw [waiting, flight_push, waiting, Tagged.ofClass_singleton, List.append_assoc]
  congr 1
  cases c <;> cases c' <;> simp [push, pushInteractive, pushBulk, queued, hm]

/-- Picking the next message changes neither what waits nor what has gone out. -/
lemma waiting_takeNext (h : q.inFlight = false) (c : SendPriority) :
    q.takeNext.waiting c = q.waiting c := by
  have hne : ∀ m ∈ q.interactive ++ q.bulk, m ≠ [] := by
    rintro m hm rfl
    exact (List.mem_append.mp hm).elim q.interactive_ne q.bulk_ne
  have hq : q.waiting c = q.queued c := by simp [waiting, flight, h]
  rw [hq]
  unfold takeNext
  split
  · next m ms hi =>
    have hm : 0 < m.length := List.length_pos_iff.mpr (hne m (by simp [hi]))
    cases c <;>
      simp [waiting, flight, inFlight, currentClass, queued, Tagged.ofClass_singleton, hi, hm]
  · next m ms hi hb =>
    have hm : 0 < m.length := List.length_pos_iff.mpr (hne m (by simp [hb]))
    cases c <;>
      simp [waiting, flight, inFlight, currentClass, queued, Tagged.ofClass_singleton, hi, hb, hm]
  · next hi hb =>
    cases c <;> simp [waiting, flight, inFlight, queued, hi, hb]

lemma written_takeNext : q.takeNext.written = [] := by
  unfold takeNext
  split <;> rfl

lemma pending_snd (n : ℕ) : (q.pending n).2 = if !q.inFlight then q.takeNext else q := rfl

lemma waiting_pending (n : ℕ) (c : SendPriority) : (q.pending n).2.waiting c = q.waiting c := by
  rw [pending_snd]
  split
  · next h => exact waiting_takeNext q (by simpa using h) c
  · rfl

lemma written_pending (n : ℕ) : (q.pending n).2.written = q.written := by
  rw [pending_snd]
  split
  · next h => rw [written_takeNext, written_of_not_inFlight q (by simpa using h)]
  · rfl

/-- What is handed out is the beginning of what is left of the message in flight. -/
lemma pending_fst (n : ℕ) :
    (q.pending n).1 <+: (q.pending n).2.current.drop (q.pending n).2.offset := by
  unfold pending
  dsimp only
  generalize (if !q.inFlight then q.takeNext else q) = q'
  split
  · exact List.nil_prefix
  · exact List.take_prefix _ _

lemma pending_inFlight (n : ℕ) (h : (q.pending n).1 ≠ []) : (q.pending n).2.inFlight = true := by
  unfold pending at h ⊢
  dsimp only at h ⊢
  generalize (if !q.inFlight then q.takeNext else q) = q' at h ⊢
  split at h
  · contradiction
  · next hn => simpa using (not_or.mp hn).1

lemma consume_queued (n : ℕ) (c : SendPriority) : (q.consume n).queued c = q.queued c := by
  unfold consume
  split_ifs
  · rfl
  · dsimp only
    split_ifs <;> cases c <;> rfl

/-- Taking `n` more bytes of the message in flight finishes it or leaves it in flight. -/
lemma consume_flight (n : ℕ) :
    ∃ fin : List Tagged, q.flight = fin ++ (q.consume n).flight ∧
      q.written ++ (q.current.drop q.offset).take n
        = Tagged.concat fin ++ (q.consume n).written := by
  have hb : q.written ++ (q.current.drop q.offset).take n = q.current.take (q.offset + n) := by
    rw [written, List.take_add]
  rw [hb]
  unfold consume
  dsimp only
  split_ifs with hf hge
  · obtain ⟨hc, -⟩ := not_inFlight q (by simpa using hf)
    exact ⟨[], rfl, by simp [written, hc]⟩
  · -- the last byte went out
    have hfl : q.inFlight = true := by simpa using hf
    refine ⟨[(q.currentClass, q.current)], ?_, ?_⟩
    · rw [flight, if_pos hfl]
      rfl
    · rw [List.take_of_length_le (by omega)]
      simp [written]
  · have hlt : q.offset < q.current.length := (inFlight_iff q).mp (by simpa using hf)
    have hlt' : min (q.offset + n) q.current.length < q.current.length := Nat.lt_of_not_le hge
    refine ⟨[], ?_, ?_⟩
    · simp only [flight, inFlight, decide_eq_true hlt, decide_eq_true hlt', if_true]
      rfl
    · have hle : q.offset + n ≤ q.current.length := by omega
      simp only [Tagged.concat_nil, List.nil_append, written, Nat.min_eq_left hle]

/-- **Bytes are conserved.** Whether or not the message in flight is finished, every byte is
accounted for. -/
lemma consume_spec (n : ℕ) :
    ∃ fin : List Tagged, (∀ c, q.waiting c = Tagged.ofClass c fin ++ (q.consume n).waiting c) ∧
      q.written ++ (q.current.drop q.offset).take n
        = Tagged.concat fin ++ (q.consume n).written := by
  obtain ⟨fin, hfl, hw⟩ := q.consume_flight n
  refine ⟨fin, fun c => ?_, hw⟩
  rw [waiting, hfl, Tagged.ofClass_append, waiting, consume_queued, List.append_assoc]

end SendQueue

end Digitiz
