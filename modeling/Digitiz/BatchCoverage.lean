import Digitiz.Runs
import Digitiz.SafeBatches
import Digitiz.Spans

/-!
Whether a batch that counts as complete is.

The receiver adds up the bytes that came, and calls a batch complete when they are as many as it
has. A chunk that comes twice is added twice, so a batch may be handed on with bytes that never
came. Beside the receiver it is written down here which chunks the batch at hand was given.
-/

namespace Digitiz

open Spans StreamReset

/-- The bytes of the buffer a chunk is written over. -/
def FrameData.span (c : FrameData) : Span := (c.offset.toNat, c.bytes.length)

/-- The chunk a message brings. -/
def arriving (m : Msg) : Option FrameData :=
  if m.type = .frameData then FrameData.decode m.payload else none

namespace FrameReceiver

/-- The chunk is for the batch at hand, and there is room for it. -/
def accepts (r : FrameReceiver) (c : FrameData) : Bool :=
  r.haveInfo ∧ c.seq = r.info.seq ∧ c.offset.toNat + c.bytes.length ≤ r.compressed.length

/-- The chunks accepted since the last frame info, once the message is in; the last one first. -/
def chunksAfter (r : FrameReceiver) (chunks : List FrameData) (m : Msg) : List FrameData :=
  if opens m then [] else ((arriving m).filter r.accepts).toList ++ chunks

/-- What was added up is what the chunks brought, each of them in its place. -/
def Tallied (r : FrameReceiver) (chunks : List FrameData) : Prop :=
  r.haveInfo = true → r.received = total (chunks.map FrameData.span) ∧
    ∀ c ∈ chunks, c.seq = r.info.seq ∧ c.span.1 + c.span.2 ≤ r.compressed.length

variable {r r' : FrameReceiver} {chunks : List FrameData} {c : FrameData} {m : Msg}

lemma length_overwrite {buffer bytes : List UInt8} {offset : ℕ}
    (h : offset + bytes.length ≤ buffer.length) :
    (overwrite buffer offset bytes).length = buffer.length := by
  rw [overwrite, List.length_append, List.length_append, List.length_take, List.length_drop]
  omega

lemma accepts_iff : r.accepts c = true ↔
    r.haveInfo = true ∧ c.seq = r.info.seq ∧
      c.offset.toNat + c.bytes.length ≤ r.compressed.length := decide_eq_true_iff

/-- A chunk that is not accepted changes nothing but the counters. -/
lemma append_of_refused (h : r.accepts c = false) :
    (r.append c).2 = none ∧ SamePoint (r.append c).1 r := by
  have h' : ¬(r.haveInfo = true ∧ c.seq = r.info.seq ∧
      c.offset.toNat + c.bytes.length ≤ r.compressed.length) := of_decide_eq_false h
  unfold append
  split_ifs with h1 h2 h3
  · exact ⟨rfl, .inl ⟨rfl, rfl, rfl, rfl⟩⟩
  · exact ⟨rfl, .inl ⟨rfl, rfl, rfl, rfl⟩⟩
  · exact ⟨rfl, .inl ⟨rfl, rfl, rfl, rfl⟩⟩
  · exact absurd ⟨by simpa using h1, not_not.mp h2, not_lt.mp h3⟩ h'

/-- One that is accepted is counted, and completes the batch when the count says so. -/
lemma append_of_accepted (h : r.accepts c = true) :
    (r.append c).2 = (if r.received + c.bytes.length < r.compressed.length then none
      else some ⟨r.info, overwrite r.compressed c.offset.toNat c.bytes⟩) ∧
    ((r.append c).1.haveInfo = true → (r.append c).1.info = r.info ∧
      (r.append c).1.received = r.received + c.bytes.length ∧
      (r.append c).1.compressed.length = r.compressed.length) := by
  obtain ⟨hh, hseq, hroom⟩ := accepts_iff.mp h
  unfold append
  rw [if_neg (by simp [hh]), if_neg (by simp [hseq]), if_neg (by omega)]
  dsimp only
  rw [length_overwrite hroom]
  split_ifs
  · exact ⟨rfl, fun _ => ⟨rfl, rfl, length_overwrite hroom⟩⟩
  · exact ⟨rfl, by simp⟩

lemma Tallied.congr (hs : SamePoint r' r) (h : r.Tallied chunks) : r'.Tallied chunks := by
  intro hh
  rcases hs with ⟨hi, hc, hr, hh'⟩ | ⟨hno, -⟩
  · rw [hi, hc, hr]
    exact h (hh' ▸ hh)
  · exact absurd hh (by simp [hno])

/-- A message, by what it is: the start of a batch, a chunk, or neither. -/
lemma assemble_cases (r : FrameReceiver) (m : Msg) :
    (opens m = true ∧ arriving m = none ∧ ∃ info, r.assemble m = (r.begin info, none)) ∨
    (opens m = false ∧ ∃ c, arriving m = some c ∧ r.assemble m = r.append c) ∨
    (opens m = false ∧ arriving m = none ∧ (r.assemble m).2 = none ∧
      SamePoint (r.assemble m).1 r) := by
  unfold assemble opens arriving
  by_cases hinfo : m.type = .frameInfo
  · have hdata : m.type ≠ .frameData := by rw [hinfo]; exact nofun
    rw [if_pos hinfo, if_neg hdata]
    cases hd : FrameInfo.decode m.payload with
    | none => exact .inr (.inr ⟨by simp, rfl, rfl, .inl ⟨rfl, rfl, rfl, rfl⟩⟩)
    | some info => exact .inl ⟨by simp [hinfo], rfl, info, rfl⟩
  · rw [if_neg hinfo]
    by_cases hdata : m.type = .frameData
    · rw [if_pos hdata, if_pos hdata]
      cases hd : FrameData.decode m.payload with
      | none => exact .inr (.inr ⟨by simp [hinfo], rfl, rfl, .inl ⟨rfl, rfl, rfl, rfl⟩⟩)
      | some c => exact .inr (.inl ⟨by simp [hinfo], c, rfl, rfl⟩)
    · rw [if_neg hdata, if_neg hdata]
      exact .inr (.inr ⟨by simp [hinfo], rfl, rfl, .inl ⟨rfl, rfl, rfl, rfl⟩⟩)

/-- The tally stays right. -/
lemma Tallied.assemble (h : r.Tallied chunks) (m : Msg) :
    (r.assemble m).1.Tallied (r.chunksAfter chunks m) := by
  unfold chunksAfter
  obtain ⟨ho, -, info, he⟩ | ⟨ho, c, hc, he⟩ | ⟨ho, hc, -, hsame⟩ := assemble_cases r m
  · rw [if_pos ho, he]
    exact fun _ => ⟨rfl, fun c hc => absurd hc List.not_mem_nil⟩
  · rw [if_neg (by simp [ho]), he, hc]
    cases hacc : r.accepts c with
    | false =>
      rw [Option.filter_some_neg (by simp [hacc])]
      exact h.congr (append_of_refused hacc).2
    | true =>
      rw [Option.filter_some_pos hacc]
      intro hh
      obtain ⟨hhave, hseq, hroom⟩ := accepts_iff.mp hacc
      obtain ⟨hinfo, hrec, hlen⟩ := (append_of_accepted hacc).2 hh
      obtain ⟨htotal, hin⟩ := h hhave
      rw [hinfo, hrec, hlen, htotal]
      refine ⟨Nat.add_comm _ _, fun d hd => ?_⟩
      rcases List.mem_cons.mp hd with rfl | hd
      · exact ⟨hseq, hroom⟩
      · exact hin d hd
  · rw [if_neg (by simp [ho]), hc]
    exact h.congr hsame

end FrameReceiver

open FrameReceiver

structure BatchCoverage where
  receiver : FrameReceiver := {}
  chunks : List FrameData := []
  /-- The batches handed on, each with the chunks accepted for it. -/
  handed : List (Batch × List FrameData) := []

namespace BatchCoverage

def step (s : BatchCoverage) : Event → BatchCoverage
  | .message decompress m =>
    let chunks := s.receiver.chunksAfter s.chunks m
    { receiver := s.receiver.onMessage decompress m
      chunks := chunks
      handed := s.handed ++ (s.receiver.assemble m).2.toList.map fun b => (b, chunks) }
  | e => { s with receiver := s.receiver.event e }

def run (es : List Event) : BatchCoverage := es.foldl step {}

/-- Every byte of the batch was brought by one of the chunks, under the number of the batch. -/
def Brought (b : Batch) (chunks : List FrameData) : Prop :=
  ∀ i < b.compressed.length, ∃ c ∈ chunks, c.seq = b.info.seq ∧
    c.offset.toNat ≤ i ∧ i < c.offset.toNat + c.bytes.length

def Covered (s : BatchCoverage) : Prop := ∀ p ∈ s.handed, Brought p.1 p.2

/-- The chunk does not bring the count to the size of the batch, or the bytes that came again by
then are no more than those the count is past it. -/
def FillsUp (s : BatchCoverage) : Event → Prop
  | .message _ m => ∀ c, arriving m = some c → s.receiver.accepts c = true →
      s.receiver.compressed.length ≤ s.receiver.received + c.bytes.length →
      again ((c :: s.chunks).map FrameData.span) ≤
        s.receiver.received + c.bytes.length - s.receiver.compressed.length
  | _ => True

variable {s : BatchCoverage}

lemma fillsUp_message (d : List UInt8 → ℕ → Option (List UInt8)) (m : Msg) :
    s.FillsUp (.message d m) ↔ ∀ c, arriving m = some c → s.receiver.accepts c = true →
      s.receiver.compressed.length ≤ s.receiver.received + c.bytes.length →
      again ((c :: s.chunks).map FrameData.span) ≤
        s.receiver.received + c.bytes.length - s.receiver.compressed.length := Iff.rfl

/-- The chunks of a batch bring all of it exactly when their count makes up for what came again. -/
lemma brought_iff {b : Batch} {chunks : List FrameData}
    (h : ∀ c ∈ chunks, c.seq = b.info.seq ∧ c.span.1 + c.span.2 ≤ b.compressed.length) :
    Brought b chunks ↔ again (chunks.map FrameData.span) + b.compressed.length ≤
      total (chunks.map FrameData.span) := by
  rw [← covers_iff (by simpa using fun c hc => (h c hc).2)]
  refine forall₂_congr fun i hi => ⟨?_, ?_⟩
  · rintro ⟨c, hc, -, hle, hlt⟩
    exact ⟨c.span, List.mem_map_of_mem hc, hle, hlt⟩
  · rintro ⟨sp, hsp, hle, hlt⟩
    obtain ⟨c, hc, rfl⟩ := List.mem_map.mp hsp
    exact ⟨c, hc, (h c hc).1, hle, hlt⟩

lemma covered_append {l : List (Batch × List FrameData)} :
    (∀ p ∈ s.handed ++ l, Brought p.1 p.2) ↔ s.Covered ∧ ∀ p ∈ l, Brought p.1 p.2 := by
  simp only [List.mem_append, or_imp, forall_and]
  rfl

lemma tallied_step (h : s.receiver.Tallied s.chunks) (e : Event) :
    (s.step e).receiver.Tallied (s.step e).chunks := by
  cases e with
  | message d m => exact (h.assemble m).congr (samePoint_onMessage _ _)
  | take => exact h.congr (.inl ⟨rfl, rfl, rfl, rfl⟩)
  | reset => exact fun hh => absurd hh Bool.false_ne_true

/-- A chunk that is accepted, and what it is worth. -/
lemma handed_iff {c : FrameData} (ht : s.receiver.Tallied s.chunks)
    (hacc : s.receiver.accepts c = true) :
    (∀ b, (s.receiver.append c).2 = some b → Brought b (c :: s.chunks)) ↔
      (s.receiver.compressed.length ≤ s.receiver.received + c.bytes.length →
        again ((c :: s.chunks).map FrameData.span) ≤
          s.receiver.received + c.bytes.length - s.receiver.compressed.length) := by
  obtain ⟨hh, hseq, hroom⟩ := accepts_iff.mp hacc
  obtain ⟨htotal, hin⟩ := ht hh
  rw [(append_of_accepted hacc).1]
  split_ifs with hfull
  · exact iff_of_true (fun b hb => absurd hb (by simp)) (fun h => absurd h (not_le.mpr hfull))
  · have hlen := length_overwrite hroom
    have hcount : total ((c :: s.chunks).map FrameData.span) =
        s.receiver.received + c.bytes.length := by
      rw [htotal]
      exact Nat.add_comm _ _
    have hall : ∀ d ∈ c :: s.chunks, d.seq = s.receiver.info.seq ∧
        d.span.1 + d.span.2 ≤ s.receiver.compressed.length := by
      intro d hd
      rcases List.mem_cons.mp hd with rfl | hd
      · exact ⟨hseq, hroom⟩
      · exact hin d hd
    have hb := brought_iff (b := ⟨s.receiver.info,
      overwrite s.receiver.compressed c.offset.toNat c.bytes⟩) (by rwa [hlen])
    rw [hlen, hcount] at hb
    simp only [Option.some.injEq, forall_eq', hb]
    omega

/-- **One event.** -/
lemma covered_step_iff (ht : s.receiver.Tallied s.chunks) (h : s.Covered) (e : Event) :
    (s.step e).Covered ↔ s.FillsUp e := by
  cases e with
  | take => exact iff_of_true h trivial
  | reset => exact iff_of_true h trivial
  | message d m =>
    refine covered_append.trans ((and_iff_right h).trans ?_)
    rw [fillsUp_message]
    obtain ⟨-, hc, info, he⟩ | ⟨ho, c, hc, he⟩ | ⟨-, hc, hnone, -⟩ :=
      assemble_cases s.receiver m
    · rw [he, hc]
      exact iff_of_true (fun p hp => absurd hp List.not_mem_nil)
        (fun c hc => absurd hc.symm (Option.some_ne_none c))
    · rw [he, chunksAfter, if_neg (by simp [ho])]
      simp only [hc, Option.some.injEq, forall_eq']
      cases hacc : s.receiver.accepts c with
      | false =>
        rw [(append_of_refused hacc).1]
        exact iff_of_true (fun p hp => absurd hp List.not_mem_nil)
          (fun h => absurd h Bool.false_ne_true)
      | true =>
        rw [Option.filter_some_pos hacc]
        simpa using handed_iff ht hacc
    · rw [hnone, hc]
      exact iff_of_true (fun p hp => absurd hp List.not_mem_nil)
        (fun c hc => absurd hc.symm (Option.some_ne_none c))

/-- **A batch is whole when it is handed on exactly as long as, whenever a chunk brings the count
to the size of its batch, no more bytes came again than the count is past it.** -/
theorem run_covered_iff (es : List Event) :
    (∀ n, (run (es.take n)).Covered) ↔
      ∀ n e, es[n]? = some e → (run (es.take n)).FillsUp e := by
  have htally : ∀ es, (run es).receiver.Tallied (run es).chunks := by
    intro es
    induction es using List.reverseRecOn with
    | nil => exact fun hh => absurd hh Bool.false_ne_true
    | append_singleton es e ih =>
      rw [run, List.foldl_append]
      exact tallied_step ih e
  have hstep (s : BatchCoverage) (e : Event) (h : s.receiver.Tallied s.chunks ∧ s.Covered) :
      ((s.step e).receiver.Tallied (s.step e).chunks ∧ (s.step e).Covered) ↔ s.FillsUp e :=
    (and_iff_right (tallied_step h.1 e)).trans (covered_step_iff h.1 h.2 e)
  have hexact := holds_along_iff hstep (s := {})
    ⟨htally [], fun p hp => absurd hp List.not_mem_nil⟩ es
  exact Iff.trans (forall_congr' fun n => (and_iff_right (htally (es.take n))).symm) hexact

/-! ### The same byte twice -/

/-- Two bytes announced, and the first of them sent twice. -/
def sameByteTwice : List Event :=
  let b : Batch := ⟨{ seq := 1, payloadBytes := 2 }, []⟩
  let c : FrameData := { seq := 1, bytes := [7] }
  [b.infoMsg, Batch.dataMsg c, Batch.dataMsg c].map (.message fun _ _ => none)

lemma step_infoMsg (s : BatchCoverage) (d : List UInt8 → ℕ → Option (List UInt8)) (b : Batch) :
    s.step (.message d b.infoMsg) =
      { receiver := s.receiver.begin b.info, chunks := [], handed := s.handed } := by
  have ho : opens b.infoMsg = true := by simp [opens, Batch.infoMsg, FrameInfo.decode_payload]
  simp [step, onMessage, assemble_info, chunksAfter, ho]

lemma step_dataMsg (s : BatchCoverage) (d : List UInt8 → ℕ → Option (List UInt8))
    (c : FrameData) :
    s.step (.message d (Batch.dataMsg c)) =
      let chunks := ((some c).filter s.receiver.accepts).toList ++ s.chunks
      { receiver := s.receiver.onMessage d (Batch.dataMsg c)
        chunks := chunks
        handed := s.handed ++ (s.receiver.append c).2.toList.map fun b => (b, chunks) } := by
  have ho : opens (Batch.dataMsg c) = false :=
    decide_eq_false fun h => absurd h.1 nofun
  have hc : arriving (Batch.dataMsg c) = some c := by
    simp [arriving, Batch.dataMsg, FrameData.decode_payload]
  simp [step, assemble_data, chunksAfter, ho, hc]

/-- The batch is handed on without its second byte. -/
theorem not_covered_sameByteTwice :
    ¬∀ es : List Event, ∀ n, (run (es.take n)).Covered := by
  intro h
  have hhanded : (run (sameByteTwice.take 3)).handed =
      [(⟨{ seq := 1, payloadBytes := 2 }, [7, 0]⟩,
        [{ seq := 1, bytes := [7] }, { seq := 1, bytes := [7] }])] := by
    simp only [run, sameByteTwice, List.map_cons, List.map_nil, List.take_succ_cons, List.take_zero,
      List.foldl_cons, List.foldl_nil, step_infoMsg, step_dataMsg, onMessage, assemble_data]
    rfl
  have hcov := h sameByteTwice 3
  rw [Covered, hhanded] at hcov
  obtain ⟨c, hc, -, -, hlt⟩ := hcov _ (List.mem_singleton_self _) 1 (show 1 < 2 by omega)
  simp only [List.mem_cons, List.not_mem_nil, or_false, or_self] at hc
  subst hc
  exact absurd hlt (by simp)

end BatchCoverage

end Digitiz
