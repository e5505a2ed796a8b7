import Digitiz.FrameReceiver
import Digitiz.FramerRun

/-!
What the receiver makes of the messages of a batch.

The chunks of a batch fill its buffer from the front, each where the one before it ended, so the
buffer is at every moment a beginning of the batch followed by zeros. The last chunk hands the
batch on exactly as it was. Messages of other types in between change nothing.
-/

namespace Digitiz

open Digitiz.Wire

namespace Msg

/-- The receiver is for these. -/
def isFrame (m : Msg) : Bool := m.type = .frameInfo ∨ m.type = .frameData

end Msg

namespace Batch

def infoMsg (b : Batch) : Msg := ⟨.frameInfo, 0, b.info.payload⟩

def dataMsg (d : FrameData) : Msg := ⟨.frameData, 0, d.payload⟩

/-- The messages of a batch before they are written out. -/
def msgs (b : Batch) : List Msg := b.infoMsg :: b.chunks.map dataMsg

lemma messages_eq (b : Batch) : b.messages = b.msgs.map Msg.bytes := by
  simp only [messages, msgs, List.map_cons, List.map_map]
  rfl

/-- A batch that says how long it is, is not empty, and whose tiles fit one message. -/
structure Whole (b : Batch) : Prop where
  pos : 0 < b.compressed.length
  size : b.info.payloadBytes.toNat = b.compressed.length
  fits : b.infoMsg.Fits

lemma chunksFrom_of_lt {seq : UInt32} {bytes : List UInt8} {n : ℕ} (h : n < bytes.length) :
    chunksFrom seq bytes n = ⟨seq, UInt32.ofNat n,
      (bytes.drop n).take (min kFrameChunkBytes (bytes.length - n))⟩
        :: chunksFrom seq bytes (n + kFrameChunkBytes) := by
  rw [chunksFrom, dif_pos h]

lemma chunksFrom_of_ge {seq : UInt32} {bytes : List UInt8} {n : ℕ} (h : bytes.length ≤ n) :
    chunksFrom seq bytes n = [] := by
  rw [chunksFrom, dif_neg (by omega)]

lemma length_chunk {b : Batch} {d : FrameData} (hd : d ∈ b.chunks) :
    d.bytes.length ≤ kFrameChunkBytes := by
  unfold chunks at hd
  generalize 0 = n at hd
  fun_induction chunksFrom b.info.seq b.compressed n with
  | case1 n h ih =>
    rcases List.mem_cons.mp hd with rfl | hd
    · simp only [List.length_take]
      omega
    · exact ih hd
  | case2 => exact absurd hd List.not_mem_nil

end Batch

namespace FrameReceiver

variable (decompress : List UInt8 → ℕ → Option (List UInt8))

/-- One message, keeping a record of the batches handed on. -/
def step (s : FrameReceiver × List Batch) (m : Msg) : FrameReceiver × List Batch :=
  (s.1.onMessage decompress m, s.2 ++ (s.1.assemble m).2.toList)

def receive (s : FrameReceiver × List Batch) (ms : List Msg) : FrameReceiver × List Batch :=
  ms.foldl (step decompress) s

/-- The batch would not be shown. -/
def refused (b : Batch) : Bool := (accept decompress b).isNone

/-- Nothing went wrong but with batches that were complete. -/
def Clean (s : FrameReceiver × List Batch) : Prop :=
  s.1.stats.straySeq = 0 ∧ s.1.stats.malformed = s.2.countP (refused decompress)

/-- The first `n` bytes of the batch are there. -/
structure Filling (b : Batch) (n : ℕ) (r : FrameReceiver) : Prop where
  haveInfo : r.haveInfo = true
  info : r.info = b.info
  compressed : r.compressed = b.compressed.take n ++ List.replicate (b.compressed.length - n) 0
  received : r.received = n

variable {decompress} {b : Batch} {s : FrameReceiver × List Batch}

@[simp] lemma receive_nil : receive decompress s [] = s := rfl

@[simp] lemma receive_cons (m : Msg) (ms : List Msg) :
    receive decompress s (m :: ms) = receive decompress (step decompress s m) ms := rfl

lemma receive_append (ms ms' : List Msg) : receive decompress s (ms ++ ms')
    = receive decompress (receive decompress s ms) ms' := List.foldl_append

lemma step_none {m : Msg} {r : FrameReceiver} (h : s.1.assemble m = (r, none)) :
    step decompress s m = (r, s.2) := by
  simp [step, onMessage, h]

lemma step_some {m : Msg} {r : FrameReceiver} (h : s.1.assemble m = (r, some b)) :
    step decompress s m = (r.finish decompress b, s.2 ++ [b]) := by
  simp [step, onMessage, h]

/-- A message of another type is not for the receiver. -/
lemma step_other {m : Msg} (hm : m.isFrame = false) : step decompress s m = s := by
  have hm' : ¬(m.type = .frameInfo ∨ m.type = .frameData) := by simpa [Msg.isFrame] using hm
  refine step_none ?_
  rw [assemble, if_neg (fun h => hm' (.inl h)), if_neg (fun h => hm' (.inr h))]

/-- So it can be left out. -/
lemma receive_filter (ms : List Msg) :
    receive decompress s ms = receive decompress s (ms.filter Msg.isFrame) := by
  induction ms generalizing s with
  | nil => rfl
  | cons m ms ih =>
    cases hm : m.isFrame with
    | true => rw [List.filter_cons_of_pos hm, receive_cons, receive_cons, ih]
    | false =>
      rw [List.filter_cons_of_neg (by simp [hm]), receive_cons, step_other hm, ih]

/-- A complete batch is counted only if it is refused. -/
lemma clean_finish {r : FrameReceiver} (hr : r.stats = s.1.stats) (hs : Clean decompress s) :
    Clean decompress (r.finish decompress b, s.2 ++ [b]) := by
  obtain ⟨h1, h2⟩ := hs
  unfold Clean finish refused at *
  rw [List.countP_append, List.countP_singleton]
  cases accept decompress b <;> simp [countMalformed, hr, h1, h2]

/-! ### One batch -/

lemma assemble_info (r : FrameReceiver) (b : Batch) :
    r.assemble b.infoMsg = (r.begin b.info, none) := by
  unfold assemble Batch.infoMsg
  dsimp only
  rw [if_pos rfl, FrameInfo.decode_payload]

lemma assemble_data (r : FrameReceiver) (d : FrameData) :
    r.assemble (Batch.dataMsg d) = r.append d := by
  unfold assemble Batch.dataMsg
  dsimp only
  rw [if_neg (by decide), if_pos rfl, FrameData.decode_payload]

/-- The first message of a batch: nothing is there yet. -/
lemma step_info (hb : b.Whole) (hs : Clean decompress s) :
    let t := step decompress s b.infoMsg
    Filling b 0 t.1 ∧ Clean decompress t ∧ t.2 = s.2 := by
  rw [step_none (assemble_info s.1 b)]
  refine ⟨⟨?_, rfl, ?_, rfl⟩, hs, rfl⟩
  · have hpos := hb.size ▸ hb.pos
    exact decide_eq_true hpos
  · simp [begin, hb.size]

/-- Filling in the next bytes. -/
lemma overwrite_next (l : List UInt8) {n c : ℕ} (hn : n + c ≤ l.length) :
    overwrite (l.take n ++ List.replicate (l.length - n) 0) n ((l.drop n).take c)
      = l.take (n + c) ++ List.replicate (l.length - (n + c)) 0 := by
  have hlen : (l.take n).length = n := List.length_take_of_le (by omega)
  have hc : ((l.drop n).take c).length = c :=
    List.length_take_of_le (by rw [List.length_drop]; omega)
  unfold overwrite
  rw [List.take_left' hlen, hc, List.drop_append, hlen, List.take_add,
    List.drop_of_length_le (l := l.take n) (by omega), List.nil_append, List.drop_replicate]
  congr 2
  omega

variable {n : ℕ} {r : FrameReceiver}

/-- A chunk that begins where the last one ended is taken. -/
lemma append_next (hb : b.Whole) (hn : n < b.compressed.length) (hf : Filling b n r) :
    let c := min kFrameChunkBytes (b.compressed.length - n)
    let d : FrameData := ⟨b.info.seq, UInt32.ofNat n, (b.compressed.drop n).take c⟩
    if n + c < b.compressed.length then
      ∃ r', r.append d = (r', none) ∧ Filling b (n + c) r' ∧ r'.stats = r.stats
    else ∃ r', r.append d = (r', some b) ∧ r'.stats = r.stats := by
  intro c d
  have hc : d.bytes.length = c := List.length_take_of_le (by rw [List.length_drop]; omega)
  have hsize := hb.size ▸ b.info.payloadBytes.toNat_lt
  have hoff : d.offset.toNat = n :=
    UInt32.toNat_ofNat_of_lt' (by simpa [UInt32.size] using by omega)
  have hlen : r.compressed.length = b.compressed.length := by
    rw [hf.compressed, List.length_append, List.length_replicate, List.length_take]
    omega
  have hover : overwrite r.compressed n d.bytes = b.compressed.take (n + c)
      ++ List.replicate (b.compressed.length - (n + c)) 0 := by
    rw [hf.compressed]
    exact overwrite_next _ (by omega)
  have hover' : (overwrite r.compressed n d.bytes).length = b.compressed.length := by
    rw [hover, List.length_append, List.length_replicate, List.length_take]
    omega
  have happ : r.append d = if n + c < b.compressed.length then
      ({ r with compressed := overwrite r.compressed n d.bytes, received := n + c }, none)
      else ({ r with compressed := [], received := n + c, haveInfo := false },
        some ⟨r.info, overwrite r.compressed n d.bytes⟩) := by
    have hseq : ¬d.seq ≠ r.info.seq := by simp [d, hf.info]
    have hin : ¬n + c > b.compressed.length := by omega
    unfold append
    simp only [hf.haveInfo, hseq, hoff, hc, hlen, hin, hover', hf.received, Bool.not_true,
      Bool.false_eq_true, if_false]
  split_ifs with hlast
  · rw [if_pos hlast] at happ
    exact ⟨_, happ, ⟨hf.haveInfo, hf.info, hover, rfl⟩, rfl⟩
  · rw [if_neg hlast, hover, hf.info, show n + c = b.compressed.length by omega] at happ
    rw [List.take_length, Nat.sub_self, List.replicate_zero, List.append_nil] at happ
    exact ⟨_, happ, rfl⟩

/-- **The chunks of a batch.** Any number of them, from where the last one ended: if they are
all that were missing, the batch is handed on as it was sent. -/
lemma receive_chunks (hb : b.Whole) (hn : n < b.compressed.length) (hf : Filling b n s.1)
    (hs : Clean decompress s) {ms : List Msg}
    (hp : ms <+: (Batch.chunksFrom b.info.seq b.compressed n).map Batch.dataMsg) :
    Clean decompress (receive decompress s ms) ∧ (receive decompress s ms).2 = s.2 ++
      if ms = (Batch.chunksFrom b.info.seq b.compressed n).map Batch.dataMsg then [b] else [] := by
  induction hm : b.compressed.length - n using Nat.strong_induction_on generalizing n s ms with
  | _ k ih =>
    rw [Batch.chunksFrom_of_lt hn, List.map_cons] at hp ⊢
    rcases ms with - | ⟨m, ms⟩
    · exact ⟨hs, by simp⟩
    obtain ⟨rfl, hrest⟩ := List.cons_prefix_cons.mp hp
    have happ := append_next hb hn hf
    dsimp only at happ
    rw [← assemble_data] at happ
    have hk : 0 < kFrameChunkBytes := by decide
    split_ifs at happ with hlast
    · obtain ⟨r', ha, hf', hst⟩ := happ
      have hmin : min kFrameChunkBytes (b.compressed.length - n) = kFrameChunkBytes := by omega
      rw [hmin] at hf' hlast ha ⊢
      rw [receive_cons, step_none ha]
      obtain ⟨hc, he⟩ := ih (b.compressed.length - (n + kFrameChunkBytes)) (by omega) hlast
        (s := (r', s.2)) hf' (by unfold Clean at hs ⊢; rw [hst]; exact hs) hrest rfl
      refine ⟨hc, he.trans ?_⟩
      simp
    · obtain ⟨r', ha, hst⟩ := happ
      rw [Batch.chunksFrom_of_ge (by omega)] at hrest ⊢
      obtain rfl := List.prefix_nil.mp hrest
      rw [receive_cons, step_some ha, receive_nil]
      exact ⟨clean_finish hst hs, by simp⟩

lemma receive_batch (hb : b.Whole) (hs : Clean decompress s) {ms : List Msg} (hp : ms <+: b.msgs) :
    Clean decompress (receive decompress s ms) ∧
      (receive decompress s ms).2 = s.2 ++ if ms = b.msgs then [b] else [] := by
  rcases ms with - | ⟨m, ms⟩
  · exact ⟨hs, by simp [Batch.msgs]⟩
  obtain ⟨rfl, hrest⟩ := List.cons_prefix_cons.mp hp
  obtain ⟨hf, hs', hsame⟩ := step_info hb hs
  obtain ⟨hc, he⟩ := receive_chunks hb hb.pos hf hs' hrest
  rw [receive_cons]
  refine ⟨hc, he.trans ?_⟩
  rw [hsame]
  simp [Batch.msgs, Batch.chunks]

/-- **Batch after batch.** However far the messages have come, the batches handed on are the
first of those sent, nothing else was counted, and once all messages are there so are all
batches. -/
theorem receive_batches {bs : List Batch} (hbs : ∀ b ∈ bs, b.Whole) (hs : Clean decompress s)
    {ms : List Msg} (hp : ms <+: bs.flatMap Batch.msgs) :
    Clean decompress (receive decompress s ms) ∧
      ∃ j, (receive decompress s ms).2 = s.2 ++ bs.take j ∧
        (ms = bs.flatMap Batch.msgs → bs.take j = bs) := by
  induction bs generalizing s ms with
  | nil =>
    obtain rfl := List.prefix_nil.mp hp
    exact ⟨hs, 0, by simp, by simp⟩
  | cons b bs ih =>
    have hb := hbs b List.mem_cons_self
    rw [List.flatMap_cons] at hp ⊢
    by_cases hpre : b.msgs <+: ms
    · obtain ⟨u, rfl⟩ := hpre
      obtain ⟨hc, he⟩ := receive_batch hb hs (List.prefix_refl b.msgs)
      obtain ⟨hc', j, he', hall⟩ := ih (fun c h => hbs c (List.mem_cons_of_mem _ h)) hc
        ((List.prefix_append_right_inj _).mp hp)
      rw [receive_append]
      refine ⟨hc', j + 1, ?_, fun h => ?_⟩
      · rw [he', he, if_pos rfl, List.append_assoc, List.take_succ_cons]
        rfl
      · rw [List.take_succ_cons, hall (List.append_cancel_left h)]
    · -- the batch is not all there yet
      have hms : ms <+: b.msgs :=
        (List.prefix_or_prefix_of_prefix hp (List.prefix_append _ _)).resolve_right hpre
      have hne : ms ≠ b.msgs := fun h => hpre (h ▸ List.prefix_refl _)
      obtain ⟨hc, he⟩ := receive_batch hb hs hms
      refine ⟨hc, 0, ?_, fun h => absurd (h ▸ List.prefix_append _ _) hpre⟩
      rw [he, if_neg hne, List.take_zero]

/-! ### The batches still to come -/

/-- The batches that will be handed on when these messages arrive. -/
def toCome (r : FrameReceiver) : List Msg → List Batch
  | [] => []
  | m :: ms => (r.assemble m).2.toList ++ toCome (r.assemble m).1 ms

/-- The two are at the same point of the same batch, or both between batches. -/
def SamePoint (r r' : FrameReceiver) : Prop :=
  (r.info = r'.info ∧ r.compressed = r'.compressed ∧ r.received = r'.received ∧
    r.haveInfo = r'.haveInfo) ∨ (r.haveInfo = false ∧ r'.haveInfo = false)

variable {r r' : FrameReceiver}

lemma samePoint_append (h : SamePoint r r') (d : FrameData) :
    (r.append d).2 = (r'.append d).2 ∧ SamePoint (r.append d).1 (r'.append d).1 := by
  rcases h with ⟨hi, hc, hr, hh⟩ | ⟨hh, hh'⟩
  · unfold append
    simp only [hi, hc, hr, hh]
    split_ifs
    · exact ⟨rfl, .inl ⟨hi, hc, hr, hh⟩⟩
    · exact ⟨rfl, .inl ⟨rfl, rfl, rfl, rfl⟩⟩
    · exact ⟨rfl, .inl ⟨hi, hc, hr, hh⟩⟩
    · exact ⟨rfl, .inl ⟨rfl, rfl, rfl, rfl⟩⟩
    · exact ⟨rfl, .inl ⟨rfl, rfl, rfl, rfl⟩⟩
  · unfold append
    rw [if_pos (by simp [hh]), if_pos (by simp [hh'])]
    exact ⟨rfl, .inr ⟨hh, hh'⟩⟩

lemma samePoint_assemble (h : SamePoint r r') (m : Msg) :
    (r.assemble m).2 = (r'.assemble m).2 ∧ SamePoint (r.assemble m).1 (r'.assemble m).1 := by
  unfold assemble
  split_ifs
  · cases FrameInfo.decode m.payload with
    | none => exact ⟨rfl, h⟩
    | some info => exact ⟨rfl, .inl ⟨rfl, rfl, rfl, rfl⟩⟩
  · cases FrameData.decode m.payload with
    | none => exact ⟨rfl, h⟩
    | some d => exact samePoint_append h d
  · exact ⟨rfl, h⟩

lemma toCome_congr (h : SamePoint r r') (ms : List Msg) : r.toCome ms = r'.toCome ms := by
  induction ms generalizing r r' with
  | nil => rfl
  | cons m ms ih =>
    obtain ⟨he, hs⟩ := samePoint_assemble h m
    rw [toCome, toCome, he, ih hs]

/-- A complete batch does not touch what is being assembled. -/
lemma samePoint_finish (r : FrameReceiver) (b : Batch) : SamePoint (r.finish decompress b) r := by
  unfold finish
  split <;> exact .inl ⟨rfl, rfl, rfl, rfl⟩

lemma samePoint_onMessage (r : FrameReceiver) (m : Msg) :
    SamePoint (r.onMessage decompress m) (r.assemble m).1 := by
  unfold onMessage
  split
  · next he => rw [he]; exact .inl ⟨rfl, rfl, rfl, rfl⟩
  · next he => rw [he]; exact samePoint_finish _ _

lemma ready_append (r : FrameReceiver) (d : FrameData) : (r.append d).1.ready = r.ready := by
  unfold append
  dsimp only
  split_ifs <;> rfl

/-- Assembling queues nothing. -/
lemma ready_assemble (r : FrameReceiver) (m : Msg) : (r.assemble m).1.ready = r.ready := by
  unfold assemble
  split_ifs
  · cases FrameInfo.decode m.payload <;> rfl
  · cases FrameData.decode m.payload with
    | none => rfl
    | some d => exact ready_append r d
  · rfl

/-- These are the batches the record of a run gains. -/
lemma receive_snd (s : FrameReceiver × List Batch) (ms : List Msg) :
    (receive decompress s ms).2 = s.2 ++ s.1.toCome ms := by
  induction ms generalizing s with
  | nil => simp [toCome]
  | cons m ms ih =>
    rw [receive_cons, ih, toCome, step, toCome_congr (samePoint_onMessage _ _), List.append_assoc]

lemma toCome_append (r : FrameReceiver) (ms ms' : List Msg) :
    ∃ r' : FrameReceiver, r.toCome (ms ++ ms') = r.toCome ms ++ r'.toCome ms' := by
  induction ms generalizing r with
  | nil => exact ⟨r, rfl⟩
  | cons m ms ih =>
    obtain ⟨r', hr'⟩ := ih (r.assemble m).1
    exact ⟨r', by rw [List.cons_append, toCome, toCome, hr', List.append_assoc]⟩

/-- **A batch sent is a batch to come**, whatever is on its way before it. -/
lemma toCome_msgs (hb : b.Whole) (r : FrameReceiver) (ms : List Msg) :
    r.toCome (ms ++ b.msgs) = r.toCome ms ++ [b] := by
  obtain ⟨r', hr'⟩ := toCome_append r ms b.msgs
  -- only the assembly matters, so the counters may as well be new
  have hclean : Clean (fun _ _ => none) ({ r' with stats := {} }, []) := ⟨rfl, rfl⟩
  have hrec := (receive_batch hb hclean (List.prefix_refl b.msgs)).2
  rw [receive_snd, if_pos rfl, List.nil_append, List.nil_append] at hrec
  have hsame : SamePoint r' { r' with stats := {} } := .inl ⟨rfl, rfl, rfl, rfl⟩
  rw [hr', toCome_congr hsame, hrec]

end FrameReceiver

end Digitiz
