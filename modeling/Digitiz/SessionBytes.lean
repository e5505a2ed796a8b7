import Digitiz.AdbTransport

/-!
Which session a byte on a socket belongs to.

The queue outlives the sessions, so nothing in it says whom a message was meant for. The bytes of
one session stay its own in every run in which a session is opened on an empty queue and a socket
is given up once a message was torn on it; both are needed.
-/

namespace Digitiz.AdbTransport

/-! ### What belongs to a session -/

/-- The bytes written are the beginning of whole messages among those taken, each class in
order. -/
def Whole (taken : List Tagged) (wire : List UInt8) : Prop :=
  ∃ ms : List Tagged, (∀ c, (Tagged.ofClass c ms).Sublist (Tagged.ofClass c taken)) ∧
    wire <+: Tagged.concat ms

/-- Every message taken has been written whole or is still in the queue. -/
def Kept (taken : List Tagged) (wire : List UInt8) (q : SendQueue) : Prop :=
  ∃ gone : List Tagged, Tagged.concat gone <+: wire ∧
    ∀ c, Tagged.ofClass c taken = Tagged.ofClass c gone ++ q.waiting c

/-- What has been written of the chunk in hand and not been settled yet. -/
def unsettled (q : SendQueue) : Sender → List UInt8
  | .wrote _ n => (q.current.drop q.offset).take n
  | _ => []

/-- The sender works on session `k`, with the message it writes in flight. -/
def SenderOk (k : ℕ) (q : SendQueue) : Sender → Prop
  | .idle => True
  | .writing k' chunk => k' = k ∧ q.inFlight = true ∧ chunk <+: q.current.drop q.offset
  | .wrote k' _ => k' = k ∧ q.inFlight = true
  | .failed k' => k' = k ∧ q.inFlight = true

/-- A session in good order: its socket has the messages that are gone, and the queue the rest,
all of it while the session is `intact`. -/
def Live (taken : List Tagged) (wire : List UInt8) (q : SendQueue) (s : Sender) (intact : Prop) :
    Prop :=
  ∃ gone : List Tagged, wire = Tagged.concat gone ++ (q.written ++ unsettled q s) ∧
    (∀ c, (Tagged.ofClass c gone ++ q.waiting c).Sublist (Tagged.ofClass c taken)) ∧
    (intact → ∀ c, Tagged.ofClass c taken = Tagged.ofClass c gone ++ q.waiting c)

section live

variable {taken : List Tagged} {wire : List UInt8} {q : SendQueue} {s : Sender} {k : ℕ}
  {intact intact' : Prop}

lemma Whole.snoc (h : Whole taken wire) (m : Tagged) : Whole (taken ++ [m]) wire := by
  obtain ⟨ms, hms, hpre⟩ := h
  refine ⟨ms, fun c => (hms c).trans ?_, hpre⟩
  rw [Tagged.ofClass_append]
  exact List.sublist_append_left _ _

/-- With nothing taken, nothing is written. -/
lemma Whole.eq_nil (h : Whole [] wire) : wire = [] := by
  obtain ⟨ms, hms, hpre⟩ := h
  cases ms with
  | nil => exact List.prefix_nil.mp hpre
  | cons m r =>
    have hm := hms m.1
    simp [Tagged.ofClass] at hm

lemma append_unsettled (q : SendQueue) (s : Sender) :
    unsettled q s <+: q.current.drop q.offset := by
  cases s with
  | wrote k n => exact List.take_prefix _ _
  | _ => exact List.nil_prefix

lemma Live.whole (h : Live taken wire q s intact) : Whole taken wire := by
  obtain ⟨gone, hw, hsub, -⟩ := h
  refine ⟨gone ++ q.flight, fun c => ?_, ?_⟩
  · refine List.Sublist.trans ?_ (hsub c)
    rw [Tagged.ofClass_append, SendQueue.waiting, ← List.append_assoc]
    exact List.sublist_append_left _ _
  · rw [hw, Tagged.concat_append, List.prefix_append_right_inj]
    exact q.written_append_prefix _ (append_unsettled q s)

lemma Live.kept (h : Live taken wire q s intact) (hi : intact) : Kept taken wire q := by
  obtain ⟨gone, hw, -, heq⟩ := h
  exact ⟨gone, hw ▸ List.prefix_append _ _, heq hi⟩

lemma Live.weaken (h : Live taken wire q s intact) (hi : intact' → intact) :
    Live taken wire q s intact' := by
  obtain ⟨gone, hw, hsub, heq⟩ := h
  exact ⟨gone, hw, hsub, fun h => heq (hi h)⟩

lemma live_empty (h : q.empty = true) : Live [] [] q .idle intact := by
  obtain ⟨hf, -⟩ := (q.empty_iff).mp h
  refine ⟨[], ?_, fun c => ?_, fun _ c => ?_⟩
  · rw [q.written_of_not_inFlight hf]
    rfl
  · simp [q.waiting_of_empty h c]
  · simp [q.waiting_of_empty h c]

/-- The message in flight and the sender are all that `unsettled` looks at. -/
lemma unsettled_push (p : SendPriority) (m : List UInt8) :
    unsettled (q.push p m) s = unsettled q s := by
  obtain ⟨hc, ho, -⟩ := q.push_fields p m
  cases s <;> simp only [unsettled, hc, ho]

lemma senderOk_push (p : SendPriority) (m : List UInt8) (h : SenderOk k q s) :
    SenderOk k (q.push p m) s := by
  obtain ⟨hc, ho, -⟩ := q.push_fields p m
  cases s <;> simp only [SenderOk, SendQueue.inFlight_iff, hc, ho] at h ⊢ <;> exact h

/-- A sender that is at work keeps the queue from being empty. -/
lemma SenderOk.idle (h : SenderOk k q s) (he : q.empty = true) : s = .idle := by
  have hf : q.inFlight ≠ true := by
    rw [((q.empty_iff).mp he).1]
    exact Bool.false_ne_true
  cases s with
  | idle => rfl
  | writing k' chunk => exact absurd h.2.1 hf
  | wrote k' n => exact absurd h.2 hf
  | failed k' => exact absurd h.2 hf

lemma Live.push (h : Live taken wire q s intact) (p : SendPriority) (m : List UInt8)
    (hm : m ≠ []) : Live (taken ++ [(p, m)]) wire (q.push p m) s intact := by
  obtain ⟨gone, hw, hsub, heq⟩ := h
  refine ⟨gone, ?_, fun c => ?_, fun hi c => ?_⟩
  · rw [q.written_push, unsettled_push]
    exact hw
  · rw [q.waiting_push _ _ _ hm, ← List.append_assoc, Tagged.ofClass_append]
    exact (hsub c).append_right _
  · rw [q.waiting_push _ _ _ hm, ← List.append_assoc, Tagged.ofClass_append, heq hi c]

lemma Live.pending (h : Live taken wire q .idle intact) (n : ℕ)
    (hs : unsettled (q.pending n).2 s = []) :
    Live taken wire (q.pending n).2 s intact := by
  obtain ⟨gone, hw, hsub, heq⟩ := h
  refine ⟨gone, ?_, fun c => ?_, fun hi c => ?_⟩
  · rw [q.written_pending, hs]
    exact hw
  · rw [q.waiting_pending]
    exact hsub c
  · rw [q.waiting_pending]
    exact heq hi c

lemma Live.write {chunk : List UInt8} {n : ℕ} (h : Live taken wire q (.writing k chunk) intact)
    (hc : chunk <+: q.current.drop q.offset) (hn : n ≤ chunk.length) :
    Live taken (wire ++ chunk.take n) q (.wrote k n) intact := by
  obtain ⟨gone, hw, hsub, heq⟩ := h
  refine ⟨gone, ?_, hsub, heq⟩
  obtain ⟨r, hr⟩ := hc
  have ht : unsettled q (.wrote k n) = chunk.take n := by
    rw [unsettled, ← hr, List.take_append_of_le_length hn]
  rw [hw, ht]
  simp [unsettled]

/-- What was written is settled: the message in flight moves on, or is gone. -/
lemma Live.consume {n : ℕ} (h : Live taken wire q (.wrote k n) intact) :
    Live taken wire (q.consume n) .idle intact := by
  obtain ⟨gone, hw, hsub, heq⟩ := h
  obtain ⟨fin, hwait, hbytes⟩ := q.consume_spec n
  refine ⟨gone ++ fin, ?_, fun c => ?_, fun hi c => ?_⟩
  · rw [hw, unsettled, hbytes]
    simp [unsettled]
  · rw [Tagged.ofClass_append, List.append_assoc, ← hwait c]
    exact hsub c
  · rw [Tagged.ofClass_append, List.append_assoc, ← hwait c]
    exact heq hi c

/-- A write failed between two messages: those that waited are lost, and nothing else. -/
lemma Live.clear (h : Live taken wire q (.failed k) intact) (ho : q.offset = 0) :
    Live taken wire q.clear .idle False := by
  obtain ⟨gone, hw, hsub, -⟩ := h
  refine ⟨gone, ?_, fun c => ?_, False.elim⟩
  · have h0 : q.written = [] := by rw [SendQueue.written, ho, List.take_zero]
    rw [hw, h0, q.written_clear]
    rfl
  · rw [q.waiting_clear, List.append_nil]
    exact (List.sublist_append_left _ _).trans (hsub c)

end live

/-! ### Every step keeps it -/

/-- The latest session is intact: it is open and no write to it has failed. -/
def Intact (t : AdbTransport) : Prop := t.client ≠ none ∧ t.failed t.sessions = false

structure Inv (t : AdbTransport) : Prop where
  client : ∀ k, t.client = some k → k = t.sessions
  sender : SenderOk t.sessions t.queue t.sender
  fresh : ∀ k, t.sessions < k → t.accepted k = [] ∧ t.wire k = [] ∧ t.torn k = false
  past : ∀ k, k < t.sessions → Whole (t.accepted k) (t.wire k)
  torn : t.torn t.sessions = true → t.failed t.sessions = true
  failing : ∀ k, t.sender = .failed k →
    t.failed t.sessions = true ∧ (0 < t.queue.offset → t.torn t.sessions = true)
  /-- The latest session is in good order, or nothing more is written to it: a message was torn,
  or it is closed and the queue has been cleared. -/
  latest :
    Live (t.accepted t.sessions) (t.wire t.sessions) t.queue t.sender t.Intact ∨
    Whole (t.accepted t.sessions) (t.wire t.sessions) ∧
      (t.torn t.sessions = true ∨ t.client = none ∧ t.sender = .idle ∧ t.queue.empty = true)

variable {t t' : AdbTransport}

/-- The latest session's bytes are whole either way. -/
lemma Inv.whole (h : t.Inv) : Whole (t.accepted t.sessions) (t.wire t.sessions) :=
  h.latest.elim Live.whole And.left

/-- While the session is open, the latter case is that of a torn message. -/
lemma Inv.latest_open (h : t.Inv) (hc : t.client ≠ none) :
    Live (t.accepted t.sessions) (t.wire t.sessions) t.queue t.sender t.Intact ∨
      t.torn t.sessions = true :=
  h.latest.imp_right fun ho => ho.2.resolve_right fun hn => hc hn.1

/-- What `send` can do: nothing, or queue the message for the session that is connected. -/
lemma send_cases (t : AdbTransport) (bytes : List UInt8) (p : SendPriority) :
    (t.send bytes p).2 = t ∨ ∃ k, t.client = some k ∧ bytes ≠ [] ∧
      (t.send bytes p).2 = { t with
        queue := t.queue.push p bytes
        txMessages := t.txMessages + 1
        txBytes := t.txBytes + bytes.length
        accepted := Function.update t.accepted k (t.accepted k ++ [(p, bytes)]) } := by
  unfold send
  split_ifs with hb
  · exact .inl rfl
  · split
    · exact .inl rfl
    · next k hc => exact .inr ⟨k, hc, hb, rfl⟩

lemma inv_send (h : t.Inv) (bytes : List UInt8) (p : SendPriority) : (t.send bytes p).2.Inv := by
  rcases send_cases t bytes p with he | ⟨k, hc, hb, he⟩ <;> rw [he]
  · exact h
  obtain rfl := h.client k hc
  obtain ⟨-, hoff, -⟩ := t.queue.push_fields p bytes
  have hself : Function.update t.accepted t.sessions (t.accepted t.sessions ++ [(p, bytes)])
      t.sessions = t.accepted t.sessions ++ [(p, bytes)] := Function.update_self ..
  have hother : ∀ k, k ≠ t.sessions → Function.update t.accepted t.sessions
      (t.accepted t.sessions ++ [(p, bytes)]) k = t.accepted k :=
    fun k hk => Function.update_of_ne hk ..
  refine
    { client := h.client
      sender := senderOk_push p bytes h.sender
      fresh := fun k hk => ⟨(hother k (Nat.ne_of_gt hk)).trans (h.fresh k hk).1, (h.fresh k hk).2⟩
      past := fun k hk => (congrArg (Whole · _) (hother k (Nat.ne_of_lt hk))).mpr (h.past k hk)
      torn := h.torn
      failing := fun k hs => ⟨(h.failing k hs).1, fun ho => (h.failing k hs).2 (hoff ▸ ho)⟩
      latest := ?_ }
  dsimp only
  rw [hself]
  rcases h.latest_open (by simp [hc]) with hl | ht
  · exact .inl (hl.push p bytes hb)
  · exact .inr ⟨h.whole.snoc _, .inl ht⟩

lemma inv_takeChunk (h : t.Inv) (hidle : t.sender = .idle) : t.takeChunk.Inv := by
  unfold takeChunk
  split
  · next hc =>
    -- no session: what is left of the last one is over
    refine ⟨h.client, ?_, h.fresh, h.past, h.torn, ?_, .inr ⟨h.whole, .inr ⟨hc, hidle, rfl⟩⟩⟩
    · rw [hidle]
      trivial
    · intro k hk
      rw [hidle] at hk
      contradiction
  · next k hc =>
    obtain rfl := h.client k hc
    have hl : ∀ s, unsettled (t.queue.pending kWriteChunk).2 s = [] →
        Live (t.accepted t.sessions) (t.wire t.sessions) (t.queue.pending kWriteChunk).2 s
          t.Intact ∨ t.torn t.sessions = true := by
      intro s hs
      refine (h.latest_open (by simp [hc])).imp_left fun hl => ?_
      rw [hidle] at hl
      exact hl.pending kWriteChunk hs
    dsimp only
    split_ifs with hch
    · refine ⟨h.client, ?_, h.fresh, h.past, h.torn, ?_, ?_⟩
      · rw [hidle]
        trivial
      · intro k hk
        rw [hidle] at hk
        contradiction
      · rw [hidle]
        exact (hl .idle rfl).imp_right fun ht => ⟨h.whole, .inl ht⟩
    · refine ⟨h.client, ?_, h.fresh, h.past, h.torn, ?_, ?_⟩
      · exact ⟨rfl, t.queue.pending_inFlight _ hch, t.queue.pending_fst _⟩
      · intro k hk
        contradiction
      · exact (hl _ rfl).imp_right fun ht => ⟨h.whole, .inl ht⟩

lemma inv_write {k n : ℕ} {chunk : List UInt8} (h : t.Inv) (hs : t.sender = .writing k chunk)
    (hn : n ≤ chunk.length) (ht : t.torn k = false) :
    ({ t with
      sender := .wrote k n, wire := Function.update t.wire k (t.wire k ++ chunk.take n) } :
      AdbTransport).Inv := by
  have hok := h.sender
  rw [hs] at hok
  obtain ⟨rfl, hfl, hch⟩ := hok
  refine ⟨h.client, ⟨rfl, hfl⟩, fun k hk => ?_, fun k hk => ?_, h.torn, ?_, .inl ?_⟩
  · obtain ⟨ha, hw, hto⟩ := h.fresh k hk
    exact ⟨ha, (Function.update_of_ne (Nat.ne_of_gt hk) ..).trans hw, hto⟩
  · dsimp only
    rw [Function.update_of_ne (Nat.ne_of_lt hk)]
    exact h.past k hk
  · intro k hk
    contradiction
  · dsimp only
    rw [Function.update_self]
    rcases h.latest with hl | ⟨-, hd⟩
    · rw [hs] at hl
      exact hl.write hch hn
    · rcases hd with hd | ⟨-, hi, -⟩
      · rw [ht] at hd
        contradiction
      · rw [hs] at hi
        contradiction

lemma inv_fail {k : ℕ} {chunk : List UInt8} (h : t.Inv) (hs : t.sender = .writing k chunk) :
    ({ t with
      sender := .failed k
      failed := Function.update t.failed k true
      torn := Function.update t.torn k (t.torn k || decide (0 < t.queue.offset)) } :
      AdbTransport).Inv := by
  have hok := h.sender
  rw [hs] at hok
  obtain ⟨rfl, hfl, -⟩ := hok
  refine ⟨h.client, ⟨rfl, hfl⟩, fun k hk => ?_, h.past, ?_, ?_, ?_⟩
  · obtain ⟨ha, hw, hto⟩ := h.fresh k hk
    exact ⟨ha, hw, (Function.update_of_ne (Nat.ne_of_gt hk) ..).trans hto⟩
  · exact fun _ => Function.update_self ..
  · refine fun k _ => ⟨Function.update_self .., fun ho => ?_⟩
    dsimp only
    rw [Function.update_self, decide_eq_true ho, Bool.or_true]
  · dsimp only
    rw [Function.update_self]
    rcases h.latest with hl | ⟨hw, hd⟩
    · rw [hs] at hl
      -- the write itself left nothing behind, and the session is not intact any more
      refine .inl (Live.weaken hl fun hi => ?_)
      have hf := hi.2
      dsimp only at hf
      rw [Function.update_self] at hf
      contradiction
    · refine .inr ⟨hw, .inl ?_⟩
      rcases hd with hd | ⟨-, hi, -⟩
      · rw [hd, Bool.true_or]
      · rw [hs] at hi
        contradiction

lemma inv_settle (h : t.Inv) (hne : t.sender ≠ .idle) : t.settle.Inv := by
  have hd : ∀ x : Whole (t.accepted t.sessions) (t.wire t.sessions) ∧ (t.torn t.sessions = true ∨
      t.client = none ∧ t.sender = .idle ∧ t.queue.empty = true), t.torn t.sessions = true :=
    fun x => x.2.resolve_right fun hi => hne hi.2.1
  unfold settle
  split
  · next k n hs =>
    refine ⟨h.client, trivial, h.fresh, h.past, h.torn, fun k hk => by contradiction, ?_⟩
    rcases h.latest with hl | ho
    · rw [hs] at hl
      exact .inl hl.consume
    · exact .inr ⟨h.whole, .inl (hd ho)⟩
  · next k hs =>
    refine ⟨h.client, trivial, h.fresh, h.past, h.torn, fun k hk => by contradiction, ?_⟩
    rcases h.latest with hl | ho
    · by_cases hoff : 0 < t.queue.offset
      · exact .inr ⟨h.whole, .inl ((h.failing k hs).2 hoff)⟩
      · rw [hs] at hl
        refine .inl ((hl.clear (Nat.eq_zero_of_not_pos hoff)).weaken fun hi => ?_)
        have hf : t.failed t.sessions = false := hi.2
        rw [(h.failing k hs).1] at hf
        contradiction
    · exact .inr ⟨h.whole, .inl (hd ho)⟩
  · exact h

lemma inv_connect (h : t.Inv) (hq : t.queue.empty = true) :
    ({ t with client := some (t.sessions + 1), sessions := t.sessions + 1 } :
      AdbTransport).Inv := by
  have hidle := h.sender.idle hq
  have hnew := h.fresh (t.sessions + 1) (Nat.lt_succ_self _)
  refine ⟨fun k hk => (Option.some.inj hk).symm, ?_, fun k hk => h.fresh k (Nat.lt_of_succ_lt hk),
    fun k hk => ?_, ?_, ?_, .inl ?_⟩
  · rw [hidle]
    trivial
  · rcases Nat.lt_succ_iff_lt_or_eq.mp hk with hk | rfl
    · exact h.past k hk
    · exact h.whole
  · intro ht
    dsimp only at ht
    rw [hnew.2.2] at ht
    contradiction
  · intro k hk
    rw [hidle] at hk
    contradiction
  · dsimp only
    rw [hnew.1, hnew.2.1, hidle]
    exact live_empty hq

lemma inv_close (h : t.Inv) : t.closeClient.Inv := by
  refine ⟨fun k hk => by contradiction, h.sender, h.fresh, h.past, h.torn, h.failing, ?_⟩
  rcases h.latest with hl | ⟨hw, hd⟩
  · exact .inl (hl.weaken fun hi => absurd rfl hi.1)
  · exact .inr ⟨hw, hd.imp_right fun hd => ⟨rfl, hd.2⟩⟩

/-- What keeps the sessions apart: a session is opened with nothing queued, and nothing is
written to a socket after a write to it failed in the middle of a message. -/
def Apart (t : AdbTransport) : Act → Prop
  | .connect => t.queue.empty = true
  | .write _ => ∀ k chunk, t.sender = .writing k chunk → t.torn k = false
  | _ => True

instance (t : AdbTransport) (a : Act) : Decidable (t.Apart a) :=
  match a with
  | .connect => inferInstanceAs (Decidable (t.queue.empty = true))
  | .write _ =>
    match hs : t.sender with
    | .writing k chunk =>
      decidable_of_iff (t.torn k = false)
        ⟨fun h k' chunk' hs' => by cases hs.symm.trans hs'; exact h, fun h => h k chunk hs⟩
    | .idle => .isTrue fun _ _ hs' => by cases hs.symm.trans hs'
    | .wrote _ _ => .isTrue fun _ _ hs' => by cases hs.symm.trans hs'
    | .failed _ => .isTrue fun _ _ hs' => by cases hs.symm.trans hs'
  | .send _ _ => .isTrue trivial
  | .takeChunk => .isTrue trivial
  | .fail => .isTrue trivial
  | .settle => .isTrue trivial
  | .bulkIdle => .isTrue trivial
  | .close => .isTrue trivial

lemma step_inv (h : t.Inv) {a : Act} (hok : t.Apart a) (hs : t.step a = some t') : t'.Inv := by
  cases a with
  | send bytes p =>
    obtain rfl := Option.some.inj hs
    exact inv_send h bytes p
  | takeChunk =>
    simp only [step, Option.ite_none_right_eq_some] at hs
    obtain ⟨hidle, hs⟩ := hs
    obtain rfl := Option.some.inj hs
    exact inv_takeChunk h hidle
  | write n =>
    simp only [step] at hs
    split at hs
    · next k chunk hsend =>
      split_ifs at hs with hn
      obtain rfl := Option.some.inj hs
      exact inv_write h hsend hn.2 (hok k chunk hsend)
    · contradiction
  | fail =>
    simp only [step] at hs
    split at hs
    · next k chunk hsend =>
      obtain rfl := Option.some.inj hs
      exact inv_fail h hsend
    · contradiction
  | settle =>
    simp only [step] at hs
    split_ifs at hs with hidle
    obtain rfl := Option.some.inj hs
    exact inv_settle h hidle
  | bulkIdle =>
    obtain rfl := Option.some.inj hs
    exact h
  | connect =>
    simp only [step] at hs
    split_ifs at hs with hc
    obtain rfl := Option.some.inj hs
    exact inv_connect h hok
  | close =>
    obtain rfl := Option.some.inj hs
    exact inv_close h

lemma inv_init : ({} : AdbTransport).Inv where
  client k hk := by contradiction
  sender := trivial
  fresh k _ := ⟨rfl, rfl, rfl⟩
  past k hk := absurd hk (Nat.not_lt_zero k)
  torn h := by contradiction
  failing k hk := by contradiction
  latest := .inl (live_empty rfl)

/-- **Every byte on a session's socket belongs to that session.** In any run that keeps the
sessions apart, what is on a socket is the beginning of whole messages taken for its session;
and while the session is open and no write to its socket has failed, a message that was taken is
written whole or still in the queue. -/
theorem run_session_bytes {as : List Act} (h : Run step Apart {} as t) (k : ℕ) :
    Whole (t.accepted k) (t.wire k) ∧
      (t.client = some k → t.failed k = false → Kept (t.accepted k) (t.wire k) t.queue) := by
  have hinv : t.Inv := h.invariant Inv (fun _ _ _ hi hok hs => step_inv hi hok hs) inv_init
  constructor
  · rcases Nat.lt_trichotomy k t.sessions with hk | rfl | hk
    · exact hinv.past k hk
    · exact hinv.whole
    · obtain ⟨ha, hw, -⟩ := hinv.fresh k hk
      rw [ha, hw]
      exact ⟨[], fun c => List.Sublist.refl _, List.nil_prefix⟩
  · intro hc hf
    obtain rfl := hinv.client k hc
    have hopen : t.client ≠ none := by simp [hc]
    rcases hinv.latest_open hopen with hl | ht
    · exact hl.kept ⟨hopen, hf⟩
    · rw [hinv.torn ht] at hf
      contradiction

/-- A message that is half out when the session is closed. -/
def cutShort : List Act :=
  [.connect, .send [1, 2, 3] .bulk, .takeChunk, .write 2, .settle, .close]

theorem cutShort_session_bytes :
    Whole ((Run.final step Apart {} (cutShort ++ [.takeChunk, .connect])).accepted 1)
        ((Run.final step Apart {} (cutShort ++ [.takeChunk, .connect])).wire 1) ∧
      (Run.final step Apart {} (cutShort ++ [.takeChunk, .connect])).wire 1 = [1, 2] :=
  ⟨(run_session_bytes (Run.to_final (by decide +kernel)) 1).1, by decide +kernel⟩

/-- The rest of that message is the first thing on the socket of a guest that connects before
the sender has noticed. -/
theorem cutShort_reaches_next_session :
    ¬∀ (as : List Act) (t : AdbTransport), Run step (fun _ _ => True) {} as t →
      ∀ k, Whole (t.accepted k) (t.wire k) := by
  intro hall
  have h := hall (cutShort ++ [.connect, .takeChunk, .write 1]) _
    (Run.to_final (by decide +kernel)) 2
  have ha : (Run.final step (fun _ _ => True) {}
      (cutShort ++ [.connect, .takeChunk, .write 1])).accepted 2 = [] := by decide +kernel
  rw [ha] at h
  exact absurd h.eq_nil (by decide +kernel)

end Digitiz.AdbTransport
