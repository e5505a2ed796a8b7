import Mathlib.Data.List.Induction
import Digitiz.Framer

/-!
The framer over a whole stream: pushes of any size with drains anywhere between them.

What carries the induction is one equation. At every moment the reference reading of all bytes
pushed so far is the messages already given out and the bytes already dropped, followed by the
reference reading of what is still unread.
-/

namespace Digitiz.Framer

open Digitiz.Wire

inductive Op
  | push (data : List UInt8)
  | drain

/-- All bytes pushed, in order. -/
def pushed : List Op → List UInt8
  | [] => []
  | .push data :: ops => data ++ pushed ops
  | .drain :: ops => pushed ops

/-- One call; `dr` is the drain in use. -/
def step (dr : Framer → List Msg × Framer) (s : List Msg × Framer) : Op → List Msg × Framer
  | .push data => (s.1, s.2.push data)
  | .drain => (s.1 ++ (dr s.2).1, (dr s.2).2)

/-- Everything given out over a run from a fresh framer, and the framer after it. -/
def run (dr : Framer → List Msg × Framer) (ops : List Op) : List Msg × Framer :=
  ops.foldl (step dr) ([], init)

lemma run_snoc (dr : Framer → List Msg × Framer) (ops : List Op) (o : Op) :
    run dr (ops ++ [o]) = step dr (run dr ops) o := by
  simp [run, List.foldl_append]

lemma pushed_append (ops ops' : List Op) : pushed (ops ++ ops') = pushed ops ++ pushed ops' := by
  induction ops with
  | nil => rfl
  | cons o ops ih => cases o <;> simp [pushed, ih]

lemma drain_reads (f : Framer) : Reads f f.drain := by
  obtain ⟨h1, h2, h3⟩ := drainLoop_reads f
  obtain ⟨hu, hr⟩ := compact_unread f.drainLoop.2
  exact ⟨h1, hr.trans h2, hu.trans h3⟩

/-- **The invariant.** The reading of all bytes pushed is what was given out and dropped, then
the reading of what is unread. -/
def Inv (bytes : List UInt8) (s : List Msg × Framer) : Prop :=
  Scan.parse scanner bytes =
    (⟨s.1, s.2.resyncBytes, []⟩ : Scan.Parsed UInt8 Msg).andThen (Scan.parse scanner s.2.unread)

lemma inv_push {bytes : List UInt8} {s : List Msg × Framer} (h : Inv bytes s)
    (data : List UInt8) : Inv (bytes ++ data) (s.1, s.2.push data) := by
  have hrest : (Scan.parse scanner bytes).rest = (Scan.parse scanner s.2.unread).rest := by
    rw [h]; rfl
  unfold Inv at h ⊢
  rw [Scan.parse_append, hrest, h, Scan.andThen_assoc, ← Scan.parse_append, ← unread_push]
  rfl

lemma inv_drain {bytes : List UInt8} {s r : List Msg × Framer} (h : Inv bytes s)
    (hr : Reads s.2 r) : Inv bytes (s.1 ++ r.1, r.2) := by
  obtain ⟨h1, h2, h3⟩ := hr
  unfold Inv at h ⊢
  rw [h, h1, h2, h3, Scan.parse_wait scanner (Scan.look_rest scanner _)]
  simp [Scan.Parsed.andThen]

variable {dr : Framer → List Msg × Framer}

/-- The invariant holds over every run, for any drain that reads as the scanner does. -/
theorem run_inv (hdr : ∀ f, Reads f (dr f)) (ops : List Op) : Inv (pushed ops) (run dr ops) := by
  induction ops using List.reverseRecOn with
  | nil => simp [Inv, run, pushed, init, unread, Scan.Parsed.andThen]
  | append_singleton ops o ih =>
    rw [run_snoc, pushed_append]
    cases o with
    | push data => simpa [pushed, step] using inv_push ih data
    | drain => simpa [pushed, step] using inv_drain ih (hdr _)

/-- After a last drain nothing readable is left, so the run is the reference reading. -/
theorem run_drain_eq (hdr : ∀ f, Reads f (dr f)) (ops : List Op) :
    let r := run dr (ops ++ [.drain])
    Scan.parse scanner (pushed ops) = ⟨r.1, r.2.resyncBytes, r.2.unread⟩ := by
  have h := run_inv hdr (ops ++ [.drain])
  have hw : look (run dr (ops ++ [.drain])).2.unread = .wait := by
    rw [run_snoc]
    obtain ⟨-, -, h3⟩ := hdr (run dr ops).2
    simp only [step, h3]
    exact Scan.look_rest scanner _
  unfold Inv at h
  rw [pushed_append, Scan.parse_wait scanner hw] at h
  simpa [pushed, Scan.Parsed.andThen] using h

/-- Every byte pushed is in a message, dropped, or still buffered. -/
theorem run_balance (hdr : ∀ f, Reads f (dr f)) (ops : List Op) :
    (pushed ops).length =
      ((run dr ops).1.map fun m => kHeaderSize + m.payload.length).sum
        + (run dr ops).2.resyncBytes + (run dr ops).2.buffered := by
  have h := run_inv hdr ops
  have hb := Scan.parse_balance scanner (pushed ops)
  have hu := Scan.parse_balance scanner (run dr ops).2.unread
  unfold Inv at h
  rw [h] at hb
  simp only [Scan.Parsed.andThen, List.map_append, List.sum_append] at hb
  have hs : scanner.size = fun m => kHeaderSize + m.payload.length := rfl
  rw [hs] at hb hu
  rw [length_unread] at hu
  omega

/-- **Framing does not depend on how the stream is cut.** Any pushes and drains that end with a
drain give out the messages, drop the bytes and leave the suffix that one push of the whole
stream and one drain do, which are those of the left-to-right reference; every byte is accounted
for throughout; and leaving compaction out of the drain changes none of it. -/
theorem run_cut_independent (ops : List Op) :
    let r := run drain (ops ++ [.drain])
    let one := run drain [.push (pushed ops), .drain]
    let loose := run drainLoop (ops ++ [.drain])
    let ref := Scan.parse scanner (pushed ops)
    (r.1 = one.1 ∧ r.2.resyncBytes = one.2.resyncBytes ∧ r.2.unread = one.2.unread) ∧
    (r.1 = ref.items ∧ r.2.resyncBytes = ref.skipped ∧ r.2.unread = ref.rest) ∧
    (pushed ops).length = (r.1.map fun m => kHeaderSize + m.payload.length).sum
      + r.2.resyncBytes + r.2.buffered ∧
    (loose.1 = r.1 ∧ loose.2.resyncBytes = r.2.resyncBytes ∧ loose.2.unread = r.2.unread) := by
  have hr := run_drain_eq drain_reads ops
  have hone := run_drain_eq drain_reads [.push (pushed ops)]
  have hloose := run_drain_eq drainLoop_reads ops
  have hb := run_balance drain_reads (ops ++ [.drain])
  simp only [pushed, List.append_nil, List.singleton_append] at hone
  rw [pushed_append] at hb
  simp only [pushed, List.append_nil] at hb
  dsimp only at hr hone hloose ⊢
  rw [hr] at hone hloose
  simp only [Scan.Parsed.mk.injEq] at hone hloose
  refine ⟨hone, by simp [hr], hb, ?_⟩
  exact ⟨hloose.1.symm, hloose.2.1.symm, hloose.2.2.symm⟩

end Digitiz.Framer

/-! ### What was written is read back -/

namespace Digitiz.Msg

open Digitiz.Wire Digitiz.Bytes

/-- The message on the wire. -/
def bytes (m : Msg) : List UInt8 := message m.type m.flags m.payload

/-- The framer takes a longer payload for noise. -/
def Fits (m : Msg) : Prop := m.payload.length ≤ kMaxPayload

lemma bytes_ne_nil (m : Msg) : m.bytes ≠ [] := by
  simp [bytes, message_eq]

lemma length_bytes (m : Msg) : m.bytes.length = Framer.scanner.size m := by
  rw [bytes, length_message, Framer.scanner_size]

lemma look_bytes {m : Msg} (hm : m.Fits) (v : List UInt8) :
    Framer.scanner.look (m.bytes ++ v) = .emit m := by
  have hmax : m.payload.length < 2 ^ 32 := lt_of_le_of_lt hm (by decide)
  have hle : ofLe (toLe 4 m.payload.length) = m.payload.length := ofLe_toLe_of_lt (by omega)
  obtain ⟨l0, l1, l2, l3, hl⟩ : ∃ l0 l1 l2 l3, toLe 4 m.payload.length = [l0, l1, l2, l3] :=
    ⟨_, _, _, _, rfl⟩
  rw [hl] at hle
  rw [bytes, message_eq, Nat.mod_eq_of_lt hmax, hl]
  simp only [Framer.scanner, Framer.look, List.cons_append, List.nil_append, hle]
  rw [if_neg (by simp), if_neg (by unfold Fits at hm; omega),
    if_neg (by rw [List.length_append]; omega), List.take_left]

end Digitiz.Msg

/-! ### What is built is what is framed -/

namespace Digitiz.Framer

open Digitiz.Wire

/-- The messages that lie wholly within the first `n` bytes of the stream. -/
def wholeIn : List Msg → ℕ → List Msg
  | [], _ => []
  | m :: ms, n => if m.bytes.length ≤ n then m :: wholeIn ms (n - m.bytes.length) else []

lemma wholeIn_all (ms : List Msg) : wholeIn ms (ms.flatMap Msg.bytes).length = ms := by
  induction ms with
  | nil => rfl
  | cons m ms ih =>
    rw [wholeIn, List.flatMap_cons, List.length_append, if_pos (Nat.le_add_right _ _),
      Nat.add_sub_cancel_left, ih]

/-- A stream cut anywhere is read up to the last whole message. -/
lemma parse_cut_short {ms : List Msg} (hms : ∀ m ∈ ms, m.Fits) {u : List UInt8}
    (hu : u <+: ms.flatMap Msg.bytes) :
    (Scan.parse scanner u).items = wholeIn ms u.length ∧ (Scan.parse scanner u).skipped = 0 ∧
      u = (wholeIn ms u.length).flatMap Msg.bytes ++ (Scan.parse scanner u).rest := by
  induction ms generalizing u with
  | nil =>
    obtain rfl := List.prefix_nil.mp hu
    rw [Scan.parse_wait scanner rfl]
    exact ⟨rfl, rfl, rfl⟩
  | cons m ms ih =>
    have hm := hms m List.mem_cons_self
    rw [List.flatMap_cons] at hu
    rw [wholeIn]
    split_ifs with hlen
    · -- the first message is there, and the rest of the stream behind it
      obtain ⟨v, rfl⟩ := List.prefix_of_prefix_length_le (List.prefix_append _ _) hu hlen
      rw [List.prefix_append_right_inj] at hu
      obtain ⟨hitems, hskip, hrest⟩ := ih (fun m' h => hms m' (List.mem_cons_of_mem _ h)) hu
      rw [Scan.parse_emit scanner (Msg.look_bytes hm v), ← Msg.length_bytes, List.drop_left,
        List.length_append, Nat.add_sub_cancel_left]
      refine ⟨by simp [Scan.Parsed.andThen, hitems], by simp [Scan.Parsed.andThen, hskip], ?_⟩
      rw [List.flatMap_cons, List.append_assoc]
      exact congrArg _ hrest
    · -- only the beginning of it is
      obtain ⟨v, hv⟩ := List.prefix_of_prefix_length_le hu (List.prefix_append _ _)
        (Nat.le_of_not_le hlen)
      have hlook := Msg.look_bytes hm []
      rw [List.append_nil, ← hv] at hlook
      have hwait := Scan.look_prefix scanner hlook (by rw [← Msg.length_bytes]; omega)
      rw [Scan.parse_wait scanner hwait]
      exact ⟨rfl, rfl, rfl⟩

/-- **What is built is what is framed.** With any part of the stream delivered in any pieces and
drained at any time, no byte is dropped and nothing is given out but messages that have wholly
arrived; after a drain it is all of these, and what is buffered is what follows them. -/
theorem run_built {ms : List Msg} (hms : ∀ m ∈ ms, m.Fits) {ops : List Op}
    (hops : pushed ops <+: ms.flatMap Msg.bytes) :
    let r := run drain ops
    let d := run drain (ops ++ [.drain])
    (r.1 <+: wholeIn ms (pushed ops).length ∧ r.2.resyncBytes = 0) ∧
    (d.1 = wholeIn ms (pushed ops).length ∧ d.2.resyncBytes = 0 ∧
      pushed ops = d.1.flatMap Msg.bytes ++ d.2.unread) ∧
    (pushed ops = ms.flatMap Msg.bytes → d.1 = ms ∧ d.2.buffered = 0) := by
  obtain ⟨hitems, hskip, hrest⟩ := parse_cut_short hms hops
  have hinv := run_inv drain_reads ops
  have hd := run_drain_eq drain_reads ops
  unfold Inv at hinv
  dsimp only at hd ⊢
  have hsame : (run drain (ops ++ [.drain])).1 = wholeIn ms (pushed ops).length :=
    (congrArg Scan.Parsed.items hd).symm.trans hitems
  have hsync : (run drain (ops ++ [.drain])).2.resyncBytes = 0 :=
    (congrArg Scan.Parsed.skipped hd).symm.trans hskip
  rw [hinv] at hitems hskip
  rw [hd] at hrest
  simp only [Scan.Parsed.andThen] at hitems hskip
  refine ⟨⟨hitems ▸ List.prefix_append _ _, by omega⟩, ⟨hsame, hsync, ?_⟩, fun hall => ?_⟩
  · rw [hsame]
    exact hrest
  · rw [hall, wholeIn_all] at hrest
    have hnil : (run drain (ops ++ [.drain])).2.unread = [] := List.self_eq_append_right.mp hrest
    refine ⟨by rw [hsame, hall, wholeIn_all], ?_⟩
    rw [← length_unread, hnil, List.length_nil]

/-- Two messages, the first of which carries what looks like a header. -/
def decoys : List Msg := [⟨⟨0xFE⟩, 3, [0x44, 0x49, 1, 0, 0, 0, 0, 0]⟩, ⟨.ping, 0, []⟩]

/-- Cut inside the false header, and drained there. -/
theorem decoys_framed :
    let d := run drain ([.push ((decoys.flatMap Msg.bytes).take 11), .drain,
      .push ((decoys.flatMap Msg.bytes).drop 11)] ++ [.drain])
    d.1 = decoys ∧ d.2.buffered = 0 := by
  have hfits : ∀ m ∈ decoys, m.Fits := by
    unfold Msg.Fits
    decide
  have hall : pushed [.push ((decoys.flatMap Msg.bytes).take 11), .drain,
      .push ((decoys.flatMap Msg.bytes).drop 11)] = decoys.flatMap Msg.bytes := by decide
  exact (run_built hfits (hall ▸ List.prefix_refl _)).2.2 hall

end Digitiz.Framer
