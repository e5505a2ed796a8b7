import Digitiz.FrameReceiver
import Digitiz.Runs

/-!
The receiver between its threads.

Every step is one locked section. The network thread assembles a message; when that completes a
batch it lifts the batch out, lets go of the lock to decompress it, and takes the lock once more to
put it on the queue. The render thread and the handler of a lost link reset and empty the queue
whenever they like. For every batch it is written down how many resets came before its first
message, and for every batch handed out how many came before that.
-/

namespace Digitiz

structure StreamReset where
  receiver : FrameReceiver := {}
  resets : ℕ := 0
  /-- The resets before the first message of the batch being assembled. -/
  infoAt : ℕ := 0
  /-- The batch the network thread has lifted out, and the resets before its first message. -/
  lifted : Option (Batch × ℕ) := none
  /-- The resets before the first messages of the batches on the queue. -/
  readyAt : List ℕ := []
  /-- The batches handed out: the resets before the first message, and those before the batch was
  handed out. -/
  taken : List (FrameBatch × ℕ × ℕ) := []

namespace StreamReset

inductive Act
  | onMessage (m : Msg)
  /-- The end of a message that completed a batch. -/
  | finish
  | reset
  | take

/-- The message opens a batch. -/
def opens (m : Msg) : Bool := m.type = .frameInfo ∧ (FrameInfo.decode m.payload).isSome

variable (decompress : List UInt8 → ℕ → Option (List UInt8))

def step (s : StreamReset) : Act → Option StreamReset
  | .onMessage m =>
    match s.lifted with
    | some _ => none
    | none =>
      let (receiver, b) := s.receiver.assemble m
      some { s with
        receiver := receiver
        infoAt := if opens m then s.resets else s.infoAt
        lifted := b.map fun b => (b, s.infoAt) }
  | .finish =>
    match s.lifted with
    | none => none
    | some (b, at_) =>
      let kept := if s.receiver.ready.length ≥ FrameReceiver.kMaxQueued then s.readyAt.drop 1
        else s.readyAt
      some { s with
        receiver := s.receiver.finish decompress b
        lifted := none
        readyAt := if (FrameReceiver.accept decompress b).isSome then kept ++ [at_] else s.readyAt }
  | .reset => some { s with receiver := s.receiver.reset, resets := s.resets + 1, readyAt := [] }
  | .take =>
    let (out, receiver) := s.receiver.take
    some { s with
      receiver := receiver
      readyAt := []
      taken := s.taken ++ (out.zip s.readyAt).map fun p => (p.1, p.2, s.resets) }

/-- No reset comes between the moment a batch that will be queued is lifted out and the moment it
is queued. -/
def Unhurried (s : StreamReset) (a : Act) : Prop :=
  a = .reset → ∀ b at_, s.lifted = some (b, at_) → FrameReceiver.accept decompress b = none

/-- No batch was handed out after a reset that came after its first message. -/
def Isolated (s : StreamReset) : Prop := ∀ p ∈ s.taken, p.2.1 = p.2.2

/-- All that is under way belongs to the time since the last reset. -/
structure Current (s : StreamReset) : Prop where
  assembling : s.receiver.haveInfo = true → s.infoAt = s.resets
  lifted : ∀ b at_, s.lifted = some (b, at_) → (FrameReceiver.accept decompress b).isSome = true →
    at_ = s.resets
  ready : ∀ at_ ∈ s.readyAt, at_ = s.resets
  length : s.readyAt.length = s.receiver.ready.length
  taken : s.Isolated

/-- Assembling leaves the queue alone; a batch is under way only if it was or the message opens it,
and is completed only where one is under way. -/
lemma assemble_spec (r : FrameReceiver) (m : Msg) :
    (r.assemble m).1.ready = r.ready ∧
    ((r.assemble m).1.haveInfo = true → opens m = true ∨ r.haveInfo = true) ∧
    ((r.assemble m).2.isSome = true → r.haveInfo = true) := by
  unfold FrameReceiver.assemble
  split_ifs with hinfo hdata
  · cases hd : FrameInfo.decode m.payload with
    | none => exact ⟨rfl, fun h => .inr h, by simp⟩
    | some info => exact ⟨rfl, fun _ => .inl (by simp [opens, hinfo, hd]), by simp⟩
  · cases FrameData.decode m.payload with
    | none => exact ⟨rfl, fun h => .inr h, by simp⟩
    | some chunk =>
      dsimp only
      unfold FrameReceiver.append
      cases hh : r.haveInfo with
      | false => simp [hh]
      | true =>
        dsimp only
        split_ifs <;> simp_all [FrameReceiver.countMalformed]
  · exact ⟨rfl, fun h => .inr h, by simp⟩

lemma finish_of_refused {r : FrameReceiver} {b : Batch}
    (h : FrameReceiver.accept decompress b = none) : r.finish decompress b = r.countMalformed := by
  simp [FrameReceiver.finish, h]

lemma finish_of_accepted {r : FrameReceiver} {b : Batch} {batch : FrameBatch}
    (h : FrameReceiver.accept decompress b = some batch) :
    (r.finish decompress b).haveInfo = r.haveInfo ∧ (r.finish decompress b).ready =
      (if r.ready.length ≥ FrameReceiver.kMaxQueued then r.ready.drop 1 else r.ready) ++ [batch] := by
  simp [FrameReceiver.finish, h]

variable {decompress}

/-- A message that comes in is put to the batch it belongs to. -/
lemma onMessage_current {s t : StreamReset} {m : Msg}
    (hs : s.step decompress (.onMessage m) = some t) (h : s.Current decompress) :
    t.Current decompress := by
  cases hl : s.lifted with
  | some p => simp [step, hl] at hs
  | none =>
    obtain ⟨hready, hinfo, hdone⟩ := assemble_spec s.receiver m
    obtain rfl : t = { s with
        receiver := (s.receiver.assemble m).1
        infoAt := if opens m then s.resets else s.infoAt
        lifted := (s.receiver.assemble m).2.map fun b => (b, s.infoAt) } := by
      simpa [step, hl] using hs.symm
    refine ⟨fun hi => ?_, fun b at_ hb _ => ?_, h.ready, by rw [hready]; exact h.length, h.taken⟩
    · dsimp only
      split_ifs with ho
      · rfl
      · exact h.assembling ((hinfo hi).resolve_left ho)
    · obtain ⟨b', hb', hpair⟩ := Option.map_eq_some_iff.mp hb
      obtain ⟨-, rfl⟩ := Prod.mk.inj hpair
      exact h.assembling (hdone (by rw [hb']; rfl))

/-- A batch that was lifted out under this count is queued under it. -/
lemma finish_current {s t : StreamReset} (hs : s.step decompress .finish = some t)
    (h : s.Current decompress) : t.Current decompress := by
  cases hl : s.lifted with
  | none => simp [step, hl] at hs
  | some p =>
    obtain ⟨b, at_⟩ := p
    cases hacc : FrameReceiver.accept decompress b with
    | none =>
      obtain rfl : t = { s with receiver := s.receiver.countMalformed, lifted := none } := by
        simpa [step, hl, hacc, finish_of_refused] using hs.symm
      exact ⟨h.assembling, by simp, h.ready, h.length, h.taken⟩
    | some batch =>
      obtain ⟨hinfo, hready⟩ := finish_of_accepted decompress hacc (r := s.receiver)
      have hat : at_ = s.resets := h.lifted b at_ hl (by rw [hacc]; rfl)
      obtain rfl : t = { s with
          receiver := s.receiver.finish decompress b
          lifted := none
          readyAt := (if s.receiver.ready.length ≥ FrameReceiver.kMaxQueued
            then s.readyAt.drop 1 else s.readyAt) ++ [at_] } := by
        simpa [step, hl, hacc] using hs.symm
      refine ⟨by rw [hinfo]; exact h.assembling, by simp, fun i hi => ?_, ?_, h.taken⟩
      · obtain hi | hi := List.mem_append.mp hi
        · refine h.ready i ?_
          split_ifs at hi
          · exact List.mem_of_mem_drop hi
          · exact hi
        · rw [List.mem_singleton.mp hi, hat]
      · have hlen := h.length
        rw [hready]
        split_ifs <;> simp [hlen]

/-- **One locked section.** -/
theorem step_current {s t : StreamReset} {a : Act} (hs : s.step decompress a = some t)
    (hok : s.Unhurried decompress a) (h : s.Current decompress) : t.Current decompress := by
  cases a with
  | onMessage m => exact onMessage_current hs h
  | finish => exact finish_current hs h
  | reset =>
    obtain rfl := Option.some.inj hs
    refine ⟨by simp [FrameReceiver.reset], fun b at_ hb hacc => ?_, by simp, rfl, h.taken⟩
    rw [hok rfl b at_ hb] at hacc
    contradiction
  | take =>
    obtain rfl := Option.some.inj hs
    refine ⟨h.assembling, h.lifted, by simp, rfl, fun p hp => ?_⟩
    obtain hp | hp := List.mem_append.mp hp
    · exact h.taken p hp
    · obtain ⟨q, hq, rfl⟩ := List.mem_map.mp hp
      exact h.ready _ (List.of_mem_zip hq).2

/-- **A reset separates streams.** As long as no reset comes while a batch that will be queued is
between the lock it was lifted out under and the one it is queued under, a batch whose first message
came before a reset is never handed out after it. -/
theorem run_isolated {acts : List Act} {s : StreamReset}
    (hr : Run (step decompress) (Unhurried decompress) {} acts s) :
    s.Isolated ∧ s.readyAt.length = s.receiver.ready.length := by
  have hinit : Current decompress {} :=
    ⟨by simp, by simp, by simp, rfl, by simp [Isolated]⟩
  have h := hr.invariant (Current decompress) (fun _ _ _ h hok hs => step_current hs hok h) hinit
  exact ⟨h.taken, h.length⟩

/-! ### One tile, one reset -/

instance (s : StreamReset) (a : Act) : Decidable (s.Unhurried decompress a) :=
  match a with
  | .onMessage _ | .finish | .take => isTrue fun h => by simp at h
  | .reset =>
    match h : s.lifted with
    | none => isTrue fun _ b at_ hb => by simp [h] at hb
    | some (b, at_) =>
      if hacc : (FrameReceiver.accept decompress b).isNone = true then
        isTrue fun _ b' at' hb' => by
          obtain ⟨rfl, -⟩ := Prod.mk.inj (Option.some.inj (h.symm.trans hb'))
          exact Option.isNone_iff_eq_none.mp hacc
      else isFalse fun hno => hacc (Option.isNone_iff_eq_none.mpr (hno rfl b at_ h))

/-- What opens a zstd frame of one stored block of eight bytes. -/
def storedHeader : List UInt8 := [0x28, 0xb5, 0x2f, 0xfd, 0x20, 0x08, 0x41, 0x00, 0x00]

/-- The content of such a frame. -/
def unpackStored (bytes : List UInt8) (_ : ℕ) : Option (List UInt8) :=
  if bytes.take 9 = storedHeader then some (bytes.drop 9) else none

/-- A batch of the only tile of a small region. -/
def tileInfo : FrameInfo :=
  { w := 4, h := 4, outW := 4, outH := 4, format := .etc2Rgb8, tile := 4, rawBytes := 8,
    payloadBytes := 17, tiles := [0] }

def tileMessages : List Act :=
  [.onMessage ⟨.frameInfo, 0, tileInfo.payload⟩,
    .onMessage ⟨.frameData, 0, (⟨0, 0, storedHeader ++ [1, 2, 3, 4, 5, 6, 7, 8]⟩ : FrameData).payload⟩]

/-- A tile is queued and thrown away, and another one is queued and handed out. -/
def resetThenTake : List Act :=
  tileMessages ++ [.finish, .reset] ++ tileMessages ++ [.finish, .take]

theorem run_isolated_resetThenTake :
    let s := Run.final (step unpackStored) (Unhurried unpackStored) {} resetThenTake
    s.taken.map (fun p => (p.1.blocks, p.2)) = [([1, 2, 3, 4, 5, 6, 7, 8], 1, 1)] ∧ s.Isolated := by
  intro s
  have hrun : Run (step unpackStored) (Unhurried unpackStored) {} resetThenTake s :=
    Run.to_final (by decide +kernel)
  exact ⟨by decide +kernel, (run_isolated hrun).1⟩

/-- The reset comes while the tile is being decompressed. -/
def resetInBetween : List Act := tileMessages ++ [.reset, .finish, .take]

/-- The tile of the old stream is queued after the reset and handed out. -/
theorem reset_in_between_leaks :
    let s := Run.final (step unpackStored) (fun _ _ => True) {} resetInBetween
    Run (step unpackStored) (fun _ _ => True) {} resetInBetween s ∧
      s.taken.map (fun p => p.2) = [(0, 1)] ∧ ¬s.Isolated := by
  intro s
  have htaken : s.taken.map (fun p => p.2) = [(0, 1)] := by decide +kernel
  refine ⟨Run.to_final (by decide +kernel), htaken, fun h => ?_⟩
  have hmem : ((0, 1) : ℕ × ℕ) ∈ s.taken.map fun p => p.2 := by
    rw [htaken]; exact List.mem_singleton_self _
  obtain ⟨p, hp, he⟩ := List.mem_map.mp hmem
  have hsame := h p hp
  rw [he] at hsame
  exact Nat.zero_ne_one hsame

end StreamReset

end Digitiz
