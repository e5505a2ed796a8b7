import Mathlib.Data.List.Perm.Basic
import Digitiz.SendQueue

/-!
The queue under any traffic.

Beside the queue goes its history: what was pushed, what was picked to go out, the bytes taken and
the messages dropped before they were picked. Every call keeps two things true. What has been
pushed is what was picked, what waits and what was dropped; and the bytes taken are those of the
messages picked, one after the other, up to somewhere in the last of them.
-/

namespace Digitiz

open Tagged

namespace SendQueue

/-- What is left of the message in flight. -/
def remaining (q : SendQueue) : List UInt8 := q.current.drop q.offset

variable (q : SendQueue)

lemma inFlight_eq_false_iff : q.inFlight = false ↔ q.remaining = [] := by
  rw [inFlight, decide_eq_false_iff_not, remaining, List.drop_eq_nil_iff, Nat.not_lt]

lemma length_remaining : q.remaining.length = q.inversionBytes := by
  rw [remaining, List.length_drop, inversionBytes]
  split_ifs with hf
  · rfl
  · rw [Bool.not_eq_true, inFlight_eq_false_iff] at hf
    rw [← List.length_drop, ← remaining, hf, List.length_nil]

/-! ### One call at a time -/

lemma remaining_push (c : SendPriority) (m : List UInt8) :
    (q.push c m).remaining = q.remaining := by
  obtain ⟨hc, ho, -⟩ := push_fields q c m
  rw [remaining, hc, ho, remaining]

lemma interactive_push (c : SendPriority) (m : List UInt8) :
    (q.push c m).interactive = q.interactive ++ if c = .interactive ∧ m ≠ [] then [m] else [] := by
  by_cases hm : m = [] <;> cases c <;> simp [push, pushInteractive, pushBulk, hm]

lemma bulk_push (c : SendPriority) (m : List UInt8) :
    (q.push c m).bulk = q.bulk ++ if c = .bulk ∧ m ≠ [] then [m] else [] := by
  by_cases hm : m = [] <;> cases c <;> simp [push, pushInteractive, pushBulk, hm]

lemma remaining_consume (n : ℕ) : (q.consume n).remaining = q.remaining.drop n := by
  unfold consume
  split_ifs with hf
  · have h : q.remaining = [] := (inFlight_eq_false_iff q).mp (by simpa using hf)
    rw [h, List.drop_nil]
  · dsimp only
    split_ifs with hge
    · rw [remaining.eq_1 q, List.drop_drop]
      exact (List.drop_of_length_le (by omega)).symm
    · have hle : min (q.offset + n) q.current.length = q.offset + n := by omega
      rw [remaining, remaining, List.drop_drop]
      dsimp only
      rw [hle]

/-- What is picked next, and what is left. -/
lemma takeNext_cases :
    (∃ m ms, q.interactive = m :: ms ∧ q.takeNext.interactive = ms ∧ q.takeNext.bulk = q.bulk ∧
      q.takeNext.remaining = m ∧ q.takeNext.flight = [(.interactive, m)]) ∨
    (∃ m ms, q.interactive = [] ∧ q.bulk = m :: ms ∧ q.takeNext.interactive = [] ∧
      q.takeNext.bulk = ms ∧ q.takeNext.remaining = m ∧ q.takeNext.flight = [(.bulk, m)]) ∨
    (q.interactive = [] ∧ q.bulk = [] ∧ q.takeNext.interactive = [] ∧ q.takeNext.bulk = [] ∧
      q.takeNext.remaining = [] ∧ q.takeNext.flight = []) := by
  unfold takeNext
  split
  · next m ms hi =>
    have hm : 0 < m.length :=
      List.length_pos_iff.mpr fun h => q.interactive_ne (by rw [hi, h]; exact List.mem_cons_self)
    refine .inl ⟨m, ms, hi, rfl, rfl, List.drop_zero, ?_⟩
    simp [flight, inFlight, currentClass, hm]
  · next m ms hi hb =>
    have hm : 0 < m.length :=
      List.length_pos_iff.mpr fun h => q.bulk_ne (by rw [hb, h]; exact List.mem_cons_self)
    refine .inr (.inl ⟨m, ms, hi, hb, hi, rfl, List.drop_zero, ?_⟩)
    simp [flight, inFlight, currentClass, hm]
  · next hi hb =>
    exact .inr (.inr ⟨hi, hb, hi, hb, rfl, rfl⟩)

lemma dropQueuedBulk_keeps :
    q.dropQueuedBulk.2.flight = q.flight ∧ q.dropQueuedBulk.2.written = q.written ∧
      q.dropQueuedBulk.2.remaining = q.remaining := ⟨rfl, rfl, rfl⟩

/-- No frame data is left exactly when none is queued and none is in flight. -/
lemma bulkIdle_iff : q.bulkIdle = true ↔ q.bulk = [] ∧ ofClass .bulk q.flight = [] := by
  unfold bulkIdle flight currentClass
  rw [Bool.and_eq_true, List.isEmpty_iff]
  refine and_congr_right fun _ => ?_
  cases q.inFlight <;> cases q.currentIsBulk <;> simp [ofClass_singleton]

end SendQueue

/-- The queue and its history. -/
structure Traffic where
  queue : SendQueue := {}
  /-- The messages pushed, without the empty ones. -/
  pushed : List Tagged := []
  /-- The messages picked to go out. -/
  started : List Tagged := []
  /-- The bytes consumed. -/
  taken : List UInt8 := []
  /-- The messages dropped, and what the calls that dropped them returned together. -/
  dropped : List (List UInt8) := []
  counted : ℕ := 0

namespace Traffic

inductive Call
  | push (c : SendPriority) (m : List UInt8)
  | pending (maxBytes : ℕ)
  | consume (bytes : ℕ)
  | dropQueuedBulk
  deriving DecidableEq, Repr

def step (t : Traffic) : Call → Traffic
  | .push c m =>
    { t with
      queue := t.queue.push c m
      pushed := t.pushed ++ if m = [] then [] else [(c, m)] }
  | .pending n =>
    { t with
      queue := (t.queue.pending n).2
      started := t.started ++ if t.queue.inFlight then [] else (t.queue.pending n).2.flight }
  | .consume n =>
    { t with queue := t.queue.consume n, taken := t.taken ++ t.queue.remaining.take n }
  | .dropQueuedBulk =>
    { t with
      queue := t.queue.dropQueuedBulk.2
      dropped := t.dropped ++ t.queue.bulk
      counted := t.counted + t.queue.dropQueuedBulk.1 }

def run (t : Traffic) (calls : List Call) : Traffic := calls.foldl step t

@[simp] lemma run_nil (t : Traffic) : t.run [] = t := rfl

@[simp] lemma run_cons (t : Traffic) (a : Call) (calls : List Call) :
    t.run (a :: calls) = (t.step a).run calls := rfl

lemma run_induction {I : Traffic → Prop} (hI : ∀ t a, I t → I (t.step a)) {t : Traffic} (h : I t)
    (calls : List Call) : I (t.run calls) := by
  induction calls generalizing t with
  | nil => exact h
  | cons a calls ih => exact ih (hI t a h)

/-! ### Nothing is lost -/

/-- What is promised of the stream. -/
structure Preserved (t : Traffic) : Prop where
  /-- The bytes taken are whole messages and the beginning of the one in flight. -/
  stream : ∃ gone, t.started = gone ++ t.queue.flight ∧
    t.taken = concat gone ++ t.queue.written ∧ t.queue.written <+: concat t.queue.flight
  /-- The bytes handed out are the bytes taken next. -/
  handedOut : ∀ n k, k ≤ (t.queue.pending n).1.length →
    (t.queue.pending n).2.remaining.take k = (t.queue.pending n).1.take k
  /-- Each class is picked in the order it was pushed, and what waits comes after. -/
  order : ∀ c, (ofClass c t.started ++ t.queue.queued c).Sublist (ofClass c t.pushed)
  /-- Every message pushed was picked, waits or was dropped, once; only frame data is dropped. -/
  once : ofClass .interactive t.pushed = ofClass .interactive t.started ++ t.queue.interactive ∧
    (ofClass .bulk t.pushed).Perm (ofClass .bulk t.started ++ t.queue.bulk ++ t.dropped)
  counted : t.dropped.length = t.counted
  /-- Dropping leaves the message in flight as it is. -/
  unbroken : t.queue.dropQueuedBulk.2.flight = t.queue.flight ∧
    t.queue.dropQueuedBulk.2.written = t.queue.written ∧
    t.queue.dropQueuedBulk.2.remaining = t.queue.remaining
  bulkBytes : t.queue.bulkBytes = (t.queue.bulk.map List.length).sum
  bulkIdle : t.queue.bulkIdle = true ↔ t.queue.bulk = [] ∧ ofClass .bulk t.queue.flight = []

/-- The part of it that a call has to keep. -/
structure Kept (t : Traffic) : Prop where
  stream : ∃ gone, t.started = gone ++ t.queue.flight ∧ t.taken = concat gone ++ t.queue.written
  interactive : ofClass .interactive t.pushed
    = ofClass .interactive t.started ++ t.queue.interactive
  order : (ofClass .bulk t.started ++ t.queue.bulk).Sublist (ofClass .bulk t.pushed)
  once : (ofClass .bulk t.pushed).Perm (ofClass .bulk t.started ++ t.queue.bulk ++ t.dropped)
  counted : t.dropped.length = t.counted

variable {t : Traffic}

lemma ofClass_pushed (c c' : SendPriority) (m : List UInt8) :
    ofClass c (if m = [] then [] else [(c', m)]) = if c' = c ∧ m ≠ [] then [m] else [] := by
  by_cases hm : m = []
  · simp [hm]
  · simp [hm, ofClass_singleton]

lemma kept_push (h : Kept t) (c : SendPriority) (m : List UInt8) : Kept (t.step (.push c m)) := by
  obtain ⟨gone, hs, ht⟩ := h.stream
  have hi := t.queue.interactive_push c m
  have hb := t.queue.bulk_push c m
  refine ⟨⟨gone, ?_, ?_⟩, ?_, ?_, ?_, h.counted⟩
  · rw [step, SendQueue.flight_push]
    exact hs
  · rw [step, SendQueue.written_push]
    exact ht
  · simp only [step, hi, ofClass_append, ofClass_pushed, h.interactive, List.append_assoc]
  · simp only [step, hb, ofClass_append, ofClass_pushed, ← List.append_assoc]
    exact h.order.append_right _
  · simp only [step, hb, ofClass_append, ofClass_pushed, ← List.append_assoc]
    refine (h.once.append_right _).trans ?_
    simp only [List.append_assoc]
    exact (List.perm_append_comm.append_left _).append_left _

lemma kept_pending (h : Kept t) (n : ℕ) : Kept (t.step (.pending n)) := by
  obtain ⟨gone, hs, ht⟩ := h.stream
  have hq := t.queue.pending_snd n
  cases hf : t.queue.inFlight with
  | true =>
    simp only [hf, Bool.not_true, Bool.false_eq_true, if_false] at hq
    simp only [step, hf, if_true, List.append_nil, hq]
    exact h
  | false =>
    simp only [hf, Bool.not_false, if_true] at hq
    have hnone : t.queue.flight = [] := by rw [SendQueue.flight, hf]; rfl
    have hw : t.queue.written = [] := t.queue.written_of_not_inFlight hf
    have hst : Tagged.concat gone = t.taken := by rw [ht, hw, List.append_nil]
    rw [hnone, List.append_nil] at hs
    simp only [step, hf, Bool.false_eq_true, if_false, hq]
    -- what was picked moves from what waits to what was started
    have hmove : ∀ c, ofClass c t.queue.takeNext.flight ++ t.queue.takeNext.queued c
        = t.queue.queued c := by
      intro c
      have hwait := t.queue.waiting_takeNext hf c
      rwa [SendQueue.waiting, SendQueue.waiting, hnone, ofClass_nil, List.nil_append] at hwait
    refine ⟨⟨gone, by rw [hs], ?_⟩, ?_, ?_, ?_, h.counted⟩
    · rw [SendQueue.written_takeNext, List.append_nil, hst]
    · rw [ofClass_append, List.append_assoc]
      exact h.interactive.trans (congrArg _ (hmove .interactive).symm)
    · rw [ofClass_append, List.append_assoc]
      exact (hmove .bulk).symm ▸ h.order
    · rw [ofClass_append, List.append_assoc (ofClass .bulk t.started)]
      exact (hmove .bulk).symm ▸ h.once

lemma kept_consume (h : Kept t) (n : ℕ) : Kept (t.step (.consume n)) := by
  obtain ⟨gone, hs, ht⟩ := h.stream
  obtain ⟨fin, hfl, hw⟩ := t.queue.consume_flight n
  have hi : (t.queue.consume n).interactive = t.queue.interactive :=
    t.queue.consume_queued n .interactive
  have hb : (t.queue.consume n).bulk = t.queue.bulk := t.queue.consume_queued n .bulk
  refine ⟨⟨gone ++ fin, ?_, ?_⟩, ?_, ?_, ?_, h.counted⟩
  · rw [step, List.append_assoc, ← hfl]
    exact hs
  · rw [step, SendQueue.remaining, ht, List.append_assoc, hw, concat_append, List.append_assoc]
  · rw [step, hi]
    exact h.interactive
  · rw [step, hb]
    exact h.order
  · rw [step, hb]
    exact h.once

lemma kept_dropQueuedBulk (h : Kept t) : Kept (t.step .dropQueuedBulk) := by
  refine ⟨h.stream, h.interactive, ?_, ?_, ?_⟩
  · simp only [step, SendQueue.dropQueuedBulk, List.append_nil]
    exact (List.sublist_append_left _ _).trans h.order
  · have hperm := h.once
    simp only [step, SendQueue.dropQueuedBulk, List.append_nil, List.append_assoc] at hperm ⊢
    exact hperm.trans (List.perm_append_comm.append_left _)
  · rw [step, List.length_append, h.counted]
    rfl

lemma kept_run (calls : List Call) : Kept (run {} calls) := by
  refine run_induction (fun t a h => ?_) ⟨⟨[], rfl, rfl⟩, rfl, .refl _, .refl _, rfl⟩ calls
  cases a with
  | push c m => exact kept_push h c m
  | pending n => exact kept_pending h n
  | consume n => exact kept_consume h n
  | dropQueuedBulk => exact kept_dropQueuedBulk h

lemma take_pending (q : SendQueue) {n k : ℕ} (hk : k ≤ (q.pending n).1.length) :
    (q.pending n).2.remaining.take k = (q.pending n).1.take k := by
  obtain ⟨l, hl⟩ := q.pending_fst n
  rw [SendQueue.remaining, ← hl, List.take_append_of_le_length hk]

/-- **The queue preserves the stream.** Whatever is pushed, handed out, consumed and dropped, in
whatever order, from an empty queue on. -/
theorem run_preserved (calls : List Call) : Preserved (run {} calls) := by
  have h := kept_run calls
  obtain ⟨gone, hs, ht⟩ := h.stream
  have hpre := (run {} calls).queue.written_append_prefix [] List.nil_prefix
  rw [List.append_nil] at hpre
  refine ⟨⟨gone, hs, ht, hpre⟩, fun n k hk => take_pending _ hk, fun c => ?_,
    ⟨h.interactive, h.once⟩, h.counted, SendQueue.dropQueuedBulk_keeps _,
    (run {} calls).queue.bulkBytes_eq, SendQueue.bulkIdle_iff _⟩
  cases c with
  | interactive => exact h.interactive ▸ .refl _
  | bulk => exact h.order

/-! ### How long an interactive message waits -/

/-- What has to go out before an interactive message pushed now. -/
def ahead (t : Traffic) : List UInt8 := t.queue.remaining ++ t.queue.interactive.flatten

/-- The bytes taken and the messages picked since an earlier moment. -/
def takenSince (s t : Traffic) : List UInt8 := t.taken.drop s.taken.length

def startedSince (s t : Traffic) : List Tagged := t.started.drop s.started.length

/-- Interactive messages, as they are picked. -/
def asPicked (ms : List (List UInt8)) : List Tagged := ms.map fun m => (.interactive, m)

/-- The message is still waited for, with the messages `rest` to be picked up to it and `done`
picked since; or it has gone out. -/
inductive Line (s : Traffic) (m : List UInt8) (t : Traffic) : Prop
  | waits (done rest behind : List (List UInt8)) (x : List UInt8)
      (hline : s.queue.interactive ++ [m] = done ++ rest)
      (hqueue : t.queue.interactive = rest ++ behind)
      (hstarted : t.started = s.started ++ asPicked done)
      (htaken : t.taken = s.taken ++ x)
      (hbytes : x ++ t.queue.remaining = s.queue.remaining ++ done.flatten)
      (hlast : done = [] ∨ ∃ d a, done = d ++ [a] ∧ s.queue.remaining ++ d.flatten <+: x)
  | gone (l : List Tagged) (x : List UInt8)
      (hstarted : t.started = s.started ++ asPicked (s.queue.interactive ++ [m]) ++ l)
      (htaken : t.taken = s.taken ++ x) (hbytes : s.ahead ++ m <+: x)

variable {s : Traffic} {m : List UInt8}

lemma line_push (hm : m ≠ []) : Line s m (s.step (.push .interactive m)) := by
  refine .waits [] (s.queue.interactive ++ [m]) [] [] rfl ?_ (List.append_nil _).symm
    (List.append_nil _).symm ?_ (.inl rfl)
  · rw [List.append_nil, step, SendQueue.interactive_push, if_pos ⟨rfl, hm⟩]
  · rw [step, SendQueue.remaining_push, List.nil_append, List.flatten_nil, List.append_nil]

/-- A message that is gone stays gone. -/
lemma line_of_gone {l : List Tagged} {x : List UInt8} {t' : Traffic}
    (hstarted : t.started = s.started ++ asPicked (s.queue.interactive ++ [m]) ++ l)
    (htaken : t.taken = s.taken ++ x) (hbytes : s.ahead ++ m <+: x)
    (hs : t.started <+: t'.started) (ht : t.taken <+: t'.taken) : Line s m t' := by
  obtain ⟨l', hl'⟩ := hs
  obtain ⟨x', hx'⟩ := ht
  refine .gone (l ++ l') (x ++ x') ?_ ?_ (hbytes.trans (List.prefix_append _ _))
  · rw [← hl', hstarted, List.append_assoc]
  · rw [← hx', htaken, List.append_assoc]

lemma line_pending (h : Line s m t) (n : ℕ) : Line s m (t.step (.pending n)) := by
  cases h with
  | gone l x hstarted htaken hbytes =>
    exact line_of_gone hstarted htaken hbytes (List.prefix_append _ _) (List.prefix_refl _)
  | waits done rest behind x hline hqueue hstarted htaken hbytes hlast =>
    have hq := t.queue.pending_snd n
    cases hf : t.queue.inFlight with
    | true =>
      simp only [hf, Bool.not_true, Bool.false_eq_true, if_false] at hq
      simp only [step, hf, if_true, List.append_nil, hq]
      exact .waits done rest behind x hline hqueue hstarted htaken hbytes hlast
    | false =>
      simp only [hf, Bool.not_false, if_true] at hq
      simp only [step, hf, Bool.false_eq_true, if_false, hq]
      rw [(SendQueue.inFlight_eq_false_iff _).mp hf, List.append_nil] at hbytes
      cases rest with
      | nil =>
        -- the message itself was the last to go out
        rw [List.append_nil] at hline
        have hall : s.ahead ++ m = x := by
          rw [hbytes, ← hline, ahead, List.flatten_append, List.flatten_singleton,
            List.append_assoc]
        exact .gone _ x (by rw [hstarted, hline]) htaken (hall ▸ List.prefix_refl _)
      | cons a rest =>
        rcases t.queue.takeNext_cases with ⟨m', ms, hi, hi', -, hrem, hfl⟩ | ⟨m', ms, hi, -⟩ | ⟨hi, -⟩
        · rw [hi, List.cons_append] at hqueue
          obtain ⟨rfl, rfl⟩ := List.cons.inj hqueue
          refine .waits (done ++ [m']) rest behind x ?_ hi' ?_ htaken ?_
            (.inr ⟨done, m', rfl, hbytes ▸ List.prefix_refl _⟩)
          · rw [hline, List.append_assoc, List.singleton_append]
          · rw [hfl, hstarted, asPicked, asPicked, List.map_append, List.append_assoc]
            rfl
          · rw [hrem, hbytes, List.flatten_append, List.flatten_singleton, List.append_assoc]
        · rw [hi] at hqueue
          contradiction
        · rw [hi] at hqueue
          contradiction

lemma line_consume (h : Line s m t) (n : ℕ) : Line s m (t.step (.consume n)) := by
  cases h with
  | gone l x hstarted htaken hbytes =>
    exact line_of_gone hstarted htaken hbytes (List.prefix_refl _) (List.prefix_append _ _)
  | waits done rest behind x hline hqueue hstarted htaken hbytes hlast =>
    refine .waits done rest behind (x ++ t.queue.remaining.take n) hline ?_ hstarted ?_ ?_ ?_
    · exact (t.queue.consume_queued n .interactive).trans hqueue
    · rw [step, htaken, List.append_assoc]
    · rw [step, SendQueue.remaining_consume, List.append_assoc, List.take_append_drop, hbytes]
    · refine hlast.imp_right fun ⟨d, a, hd, hpre⟩ => ⟨d, a, hd, ?_⟩
      exact hpre.trans (List.prefix_append _ _)

lemma line_step (h : Line s m t) (a : Call) : Line s m (t.step a) := by
  cases a with
  | pending n => exact line_pending h n
  | consume n => exact line_consume h n
  | push c m' =>
    cases h with
    | gone l x hstarted htaken hbytes => exact .gone l x hstarted htaken hbytes
    | waits done rest behind x hline hqueue hstarted htaken hbytes hlast =>
      refine .waits done rest (behind ++ if c = .interactive ∧ m' ≠ [] then [m'] else []) x hline
        ?_ hstarted htaken ?_ hlast
      · rw [step, SendQueue.interactive_push, hqueue, List.append_assoc]
      · rw [step, SendQueue.remaining_push]
        exact hbytes
  | dropQueuedBulk =>
    cases h with
    | gone l x hstarted htaken hbytes => exact .gone l x hstarted htaken hbytes
    | waits done rest behind x hline hqueue hstarted htaken hbytes hlast =>
      exact .waits done rest behind x hline hqueue hstarted htaken hbytes hlast

/-- What is promised of an interactive message pushed in `s`, when `t` has been reached. -/
structure Bounded (s : Traffic) (m : List UInt8) (t : Traffic) : Prop where
  /-- Until it is picked, no more is taken than was ahead of it. -/
  waits : (s.startedSince t).length ≤ s.queue.interactive.length → s.takenSince t <+: s.ahead
  /-- When it has been picked, all of that is out, and its own bytes come next. -/
  follows : s.queue.interactive.length < (s.startedSince t).length →
    (s.startedSince t)[s.queue.interactive.length]? = some (.interactive, m) ∧
      s.ahead <+: s.takenSince t ∧
      (s.takenSince t <+: s.ahead ++ m ∨ s.ahead ++ m <+: s.takenSince t)
  /-- Until it is out, nothing is picked but the interactive messages before it. -/
  first : (s.takenSince t).length < s.ahead.length + m.length →
    s.startedSince t <+: asPicked (s.queue.interactive ++ [m])

lemma length_ahead (s : Traffic) :
    s.ahead.length = s.queue.inversionBytes + (s.queue.interactive.map List.length).sum := by
  rw [ahead, List.length_append, SendQueue.length_remaining, List.length_flatten]

lemma Line.bounded (h : Line s m t) : Bounded s m t := by
  cases h with
  | gone l x hstarted htaken hbytes =>
    have hx : s.takenSince t = x := by rw [takenSince, htaken, List.drop_left]
    have hl : s.startedSince t = asPicked (s.queue.interactive ++ [m]) ++ l := by
      rw [startedSince, hstarted, List.append_assoc, List.drop_left]
    have hlen : (asPicked (s.queue.interactive ++ [m])).length = s.queue.interactive.length + 1 := by
      rw [asPicked, List.length_map, List.length_append, List.length_singleton]
    refine ⟨fun hno => ?_, fun _ => ⟨?_, ?_, .inr (hx ▸ hbytes)⟩, fun hno => ?_⟩
    · rw [hl, List.length_append] at hno
      omega
    · rw [hl, List.getElem?_append_left (by omega)]
      simp [asPicked]
    · exact hx ▸ (List.prefix_append _ _).trans hbytes
    · have := hbytes.length_le
      rw [List.length_append] at this
      rw [hx] at hno
      omega
  | waits done rest behind x hline hqueue hstarted htaken hbytes hlast =>
    have hx : s.takenSince t = x := by rw [takenSince, htaken, List.drop_left]
    have hl : s.startedSince t = asPicked done := by rw [startedSince, hstarted, List.drop_left]
    have hlen : (asPicked done).length = done.length := List.length_map _
    have hpre : x <+: s.queue.remaining ++ done.flatten := ⟨_, hbytes⟩
    refine ⟨fun hle => ?_, fun hlt => ?_, fun _ => ?_⟩
    · rw [hl, hlen] at hle
      rw [hx]
      refine hpre.trans ?_
      have hd : done <+: s.queue.interactive := by
        refine List.prefix_of_prefix_length_le (hline ▸ List.prefix_append done rest)
          (List.prefix_append _ _) hle
      obtain ⟨later, hlater⟩ := hd
      rw [ahead, ← hlater, List.flatten_append, ← List.append_assoc]
      exact List.prefix_append _ _
    · -- all of the line has been picked, the message last
      have hall : done = s.queue.interactive ++ [m] := by
        refine (List.IsPrefix.eq_of_length_le (hline ▸ List.prefix_append done rest) ?_)
        rw [List.length_append, List.length_singleton]
        rw [hl, hlen] at hlt
        exact hlt
      rw [hl, hx]
      subst hall
      refine ⟨by simp [asPicked], ?_, .inl ?_⟩
      · rcases hlast with hno | ⟨d, a, hd, hpre'⟩
        · simp at hno
        · rw [ahead, (List.append_inj' hd rfl).1]
          exact hpre'
      · rw [ahead, List.append_assoc, ← List.flatten_concat]
        exact hpre
    · rw [hl, hline]
      exact (List.prefix_append done rest).map _

/-- **Priority inversion is exactly bounded.** An interactive message goes out behind what is left
of the message in flight and the interactive messages queued before it, and behind nothing else,
whatever is pushed, handed out, consumed and dropped meanwhile. -/
theorem push_bounded (s : Traffic) (hm : m ≠ []) (calls : List Call) :
    s.ahead.length = s.queue.inversionBytes + (s.queue.interactive.map List.length).sum ∧
      Bounded s m ((s.step (.push .interactive m)).run calls) :=
  ⟨length_ahead s,
    (run_induction (I := Line s m) (fun _ a h => line_step h a) (line_push hm) calls).bounded⟩

/-- A pen event behind two bytes of a frame and one other event. -/
def midFrame : Traffic :=
  run {} [.push .bulk [1, 2, 3], .pending 8, .consume 1, .push .bulk [4], .push .interactive [5]]

/-- Three bytes go before it, and it is out before the rest of the frames. -/
theorem midFrame_bounded :
    let t := (midFrame.step (.push .interactive [6, 7])).run
      [.pending 8, .consume 2, .pending 8, .consume 1, .pending 8, .consume 1]
    midFrame.ahead.length = 3 ∧ midFrame.ahead <+: midFrame.takenSince t ∧
      midFrame.takenSince t = [2, 3, 5, 6] := by
  intro t
  obtain ⟨hlen, hb⟩ := push_bounded midFrame (m := [6, 7]) (by decide)
    [.pending 8, .consume 2, .pending 8, .consume 1, .pending 8, .consume 1]
  exact ⟨hlen.trans (by decide), (hb.follows (by decide)).2.1, by decide⟩

end Traffic

end Digitiz
