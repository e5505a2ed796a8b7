import Mathlib.Algebra.BigOperators.Group.List.Basic
import Digitiz.Etc2Compute

/-!
The buffers the encoder keeps on the graphics card.

They come in two groups, one for the jobs and one for the blocks. A group is made anew when a call
needs more than its capacity, and the capacity is raised first; the card may refuse any of it. A
refused buffer takes the capacity back. A refused view does not, nor does the buffer the blocks
are read back through, and the next call that fits takes the group for made.
-/

namespace Digitiz

/-- What the card answers during one call: what it creates, what it maps, and the bytes that are
then read. -/
structure CardAnswers where
  jobs : Bool
  jobsSrv : Bool
  out : Bool
  outUav : Bool
  readback : Bool
  mapJobs : Bool
  mapReadback : Bool
  got : ℕ → UInt8

/-- A call of the encoder: whether there is a source, the jobs, and the caller's vector. -/
structure EncodeCall where
  source : Bool
  jobs : List TileJob
  blocks : List UInt8
  answers : CardAnswers

/-- The encoder's buffers with their width in bytes, and its views with the elements they show. -/
structure EncoderBuffers where
  shader : Bool := true
  jobs : Option ℕ := none
  jobsSrv : Option ℕ := none
  jobsCapacity : ℕ := 0
  out : Option ℕ := none
  outUav : Option ℕ := none
  readback : Option ℕ := none
  outCapacity : ℕ := 0

namespace EncoderBuffers

open Etc2ComputeEncoder

/-- What 64 bits hold of a size, and what 32 hold. -/
def sizeT (v : ℕ) : ℕ := v % 18446744073709551616
def uint (v : ℕ) : ℕ := v % 4294967296

variable (s : EncoderBuffers)

def ensureJobs (jobCount : ℕ) (a : CardAnswers) : EncoderBuffers × Bool :=
  if jobCount > s.jobsCapacity then
    let s := { s with
      jobsSrv := none, jobs := none, jobsCapacity := sizeT (jobCount + 32) }
    if !a.jobs then ({ s with jobsCapacity := 0 }, false)
    else
      -- two `int4` a job
      let s := { s with jobs := some (uint (s.jobsCapacity * 32)) }
      if !a.jobsSrv then (s, false)
      else ({ s with jobsSrv := some (uint (s.jobsCapacity * 2)) }, true)
  else (s, true)

def ensureOut (blockBytes : ℕ) (a : CardAnswers) : EncoderBuffers × Bool :=
  if blockBytes > s.outCapacity then
    let s := { s with
      outUav := none, out := none, readback := none
      outCapacity := sizeT (sizeT (blockBytes * 2) + 4095) / 4096 * 4096 }
    if !a.out then ({ s with outCapacity := 0 }, false)
    else
      let s := { s with out := some (uint s.outCapacity) }
      if !a.outUav then (s, false)
      else
        let s := { s with outUav := some (uint (s.outCapacity / 4)) }
        if !a.readback then (s, false)
        else ({ s with readback := some (uint s.outCapacity) }, true)
  else (s, true)

def ensureBuffers (jobCount blockBytes : ℕ) (a : CardAnswers) : EncoderBuffers × Bool :=
  match s.ensureJobs jobCount a with
  | (s, true) => s.ensureOut blockBytes a
  | (s, false) => (s, false)

/-- A call: the buffers it leaves, the caller's vector, and what it returns. -/
def encode (c : EncodeCall) : EncoderBuffers × List UInt8 × Bool :=
  if !c.source ∨ c.jobs = [] ∨ !s.shader then (s, c.blocks, false)
  else if c.jobs.any fun j => !takes j then (s, c.blocks, false)
  else
    let total := sizeT (totalBytes c.jobs)
    let (s, ready) := s.ensureBuffers c.jobs.length total c.answers
    if !ready then (s, c.blocks, false)
    else if !c.answers.mapJobs then (s, c.blocks, false)
    else if !c.answers.mapReadback then (s, c.blocks, false)
    else (s, (List.range total).map c.answers.got, true)

/-- The buffers after some calls. -/
def after (cs : List EncodeCall) : EncoderBuffers := cs.foldl (fun s c => (s.encode c).1) s

/-! ### What is asked of a call -/

/-- The capacity of the jobs once a call is done with it, and that of the blocks. -/
def growJobs (capacity jobCount : ℕ) : ℕ :=
  if jobCount > capacity then sizeT (jobCount + 32) else capacity

def growOut (capacity blockBytes : ℕ) : ℕ :=
  if blockBytes > capacity then sizeT (sizeT (blockBytes * 2) + 4095) / 4096 * 4096 else capacity

/-- Everything is there, and large enough for so many jobs and bytes. -/
structure Ready (jobCount blockBytes : ℕ) : Prop where
  jobs : ∃ w, s.jobs = some w ∧ jobCount * 32 ≤ w
  jobsSrv : ∃ k, s.jobsSrv = some k ∧ jobCount * 2 ≤ k
  out : ∃ w, s.out = some w ∧ blockBytes ≤ w
  outUav : ∃ k, s.outUav = some k ∧ blockBytes ≤ k * 4
  readback : ∃ w, s.readback = some w ∧ blockBytes ≤ w

/-- The call gets as far as the buffers. -/
def Reaches (c : EncodeCall) : Prop :=
  c.source = true ∧ c.jobs ≠ [] ∧ s.shader = true ∧ ∀ j ∈ c.jobs, takes j = true

instance (c : EncodeCall) : Decidable (s.Reaches c) := inferInstanceAs (Decidable (_ ∧ _))

/-- What `ensureBuffers` answers in a call. -/
def ensured (c : EncodeCall) : EncoderBuffers × Bool :=
  s.ensureBuffers c.jobs.length (sizeT (totalBytes c.jobs)) c.answers

structure CallSound (c : EncodeCall) : Prop where
  ready : s.Reaches c → (s.ensured c).2 = true →
    (s.ensured c).1.Ready c.jobs.length (sizeT (totalBytes c.jobs))
  unchanged : (s.encode c).2.2 = false → (s.encode c).2.1 = c.blocks

/-- Nothing a call asks for is refused. -/
def Granted (jobCount blockBytes : ℕ) (a : CardAnswers) : Prop :=
  (jobCount > s.jobsCapacity → a.jobs = true ∧ a.jobsSrv = true) ∧
    (blockBytes > s.outCapacity → a.out = true ∧ a.outUav = true ∧ a.readback = true)

/-- A call does not rely on what was refused to an earlier one, and its sizes fit in 32 bits. -/
structure Safe (jobCount blockBytes : ℕ) : Prop where
  jobs : jobCount ≤ s.jobsCapacity → s.jobsSrv.isSome = true
  out : blockBytes ≤ s.outCapacity → s.outUav.isSome = true ∧ s.readback.isSome = true
  jobsFit : jobCount ≤ growJobs s.jobsCapacity jobCount % 134217728
  outFits : blockBytes ≤ growOut s.outCapacity blockBytes % 4294967296

/-! ### The invariant -/

/-- What is there has the size of the capacity, and no view is without its buffer. -/
structure Sized : Prop where
  jobs : ∀ w, s.jobs = some w → w = uint (s.jobsCapacity * 32)
  jobsSrv : ∀ k, s.jobsSrv = some k → k = uint (s.jobsCapacity * 2) ∧ s.jobs.isSome = true
  out : ∀ w, s.out = some w → w = uint s.outCapacity
  outUav : ∀ k, s.outUav = some k → k = uint (s.outCapacity / 4) ∧ s.out.isSome = true
  readback : ∀ w, s.readback = some w → w = uint s.outCapacity
  aligned : s.outCapacity % 4 = 0

variable {s} {jobCount blockBytes : ℕ} {a : CardAnswers} {c : EncodeCall}

/-! ### One call -/

/-- A group that is refused nothing is there afterwards, made now or before. -/
lemma ensureJobs_of_granted (h : jobCount > s.jobsCapacity → a.jobs = true ∧ a.jobsSrv = true) :
    s.ensureJobs jobCount a = ({ s with
      jobs := if jobCount > s.jobsCapacity then
        some (uint (growJobs s.jobsCapacity jobCount * 32)) else s.jobs
      jobsSrv := if jobCount > s.jobsCapacity then
        some (uint (growJobs s.jobsCapacity jobCount * 2)) else s.jobsSrv
      jobsCapacity := growJobs s.jobsCapacity jobCount }, true) := by
  unfold ensureJobs
  by_cases hgrow : jobCount > s.jobsCapacity
  · obtain ⟨hj, hv⟩ := h hgrow
    simp [hgrow, growJobs, hj, hv]
  · simp [hgrow, growJobs]

lemma ensureOut_of_granted
    (h : blockBytes > s.outCapacity → a.out = true ∧ a.outUav = true ∧ a.readback = true) :
    s.ensureOut blockBytes a = ({ s with
      out := if blockBytes > s.outCapacity then
        some (uint (growOut s.outCapacity blockBytes)) else s.out
      outUav := if blockBytes > s.outCapacity then
        some (uint (growOut s.outCapacity blockBytes / 4)) else s.outUav
      readback := if blockBytes > s.outCapacity then
        some (uint (growOut s.outCapacity blockBytes)) else s.readback
      outCapacity := growOut s.outCapacity blockBytes }, true) := by
  unfold ensureOut
  by_cases hgrow : blockBytes > s.outCapacity
  · obtain ⟨ho, hu, hr⟩ := h hgrow
    simp [hgrow, growOut, ho, hu, hr]
  · simp [hgrow, growOut]

/-- It is there exactly if it is refused nothing. -/
lemma ensureJobs_iff : (s.ensureJobs jobCount a).2 = true ↔
    (jobCount > s.jobsCapacity → a.jobs = true ∧ a.jobsSrv = true) := by
  refine ⟨fun h hgrow => ?_, fun h => by rw [ensureJobs_of_granted h]⟩
  unfold ensureJobs at h
  rw [if_pos hgrow] at h
  split_ifs at h with hj hv
  simpa using And.intro hj hv

lemma ensureOut_iff : (s.ensureOut blockBytes a).2 = true ↔
    (blockBytes > s.outCapacity → a.out = true ∧ a.outUav = true ∧ a.readback = true) := by
  refine ⟨fun h hgrow => ?_, fun h => by rw [ensureOut_of_granted h]⟩
  unfold ensureOut at h
  rw [if_pos hgrow] at h
  split_ifs at h with ho hu hr
  simpa using And.intro ho (And.intro hu hr)

/-- The group of the jobs leaves that of the blocks alone. -/
lemma ensureJobs_out (s : EncoderBuffers) (jobCount : ℕ) (a : CardAnswers) :
    ((s.ensureJobs jobCount a).1.out = s.out ∧ (s.ensureJobs jobCount a).1.outUav = s.outUav) ∧
      (s.ensureJobs jobCount a).1.readback = s.readback ∧
      (s.ensureJobs jobCount a).1.outCapacity = s.outCapacity := by
  unfold ensureJobs
  split_ifs <;> exact ⟨⟨rfl, rfl⟩, rfl, rfl⟩

lemma ensureBuffers_iff : (s.ensureBuffers jobCount blockBytes a).2 = true ↔
    s.Granted jobCount blockBytes a := by
  have hframe := (ensureJobs_out s jobCount a).2.2
  have hjobs : (s.ensureJobs jobCount a).2 = true ↔ _ := ensureJobs_iff
  unfold ensureBuffers Granted
  rw [← hjobs]
  rcases hs : s.ensureJobs jobCount a with ⟨t, ok⟩
  rw [hs] at hframe
  cases ok with
  | false => simp
  | true => simp only [true_and, ensureOut_iff, show t.outCapacity = s.outCapacity from hframe]

lemma ensureBuffers_of_granted (h : s.Granted jobCount blockBytes a) :
    s.ensureBuffers jobCount blockBytes a = ({ s with
      jobs := if jobCount > s.jobsCapacity then
        some (uint (growJobs s.jobsCapacity jobCount * 32)) else s.jobs
      jobsSrv := if jobCount > s.jobsCapacity then
        some (uint (growJobs s.jobsCapacity jobCount * 2)) else s.jobsSrv
      jobsCapacity := growJobs s.jobsCapacity jobCount
      out := if blockBytes > s.outCapacity then
        some (uint (growOut s.outCapacity blockBytes)) else s.out
      outUav := if blockBytes > s.outCapacity then
        some (uint (growOut s.outCapacity blockBytes / 4)) else s.outUav
      readback := if blockBytes > s.outCapacity then
        some (uint (growOut s.outCapacity blockBytes)) else s.readback
      outCapacity := growOut s.outCapacity blockBytes }, true) := by
  unfold ensureBuffers
  rw [ensureJobs_of_granted h.1]
  exact ensureOut_of_granted h.2

/-- What is there after a call that is refused nothing: all that was made now, and what was there
of the rest. -/
lemma isSome_of_granted (h : s.Granted jobCount blockBytes a) :
    ((s.ensureBuffers jobCount blockBytes a).1.jobsSrv.isSome = true ↔
      (jobCount ≤ s.jobsCapacity → s.jobsSrv.isSome = true)) ∧
    ((s.ensureBuffers jobCount blockBytes a).1.outUav.isSome = true ∧
        (s.ensureBuffers jobCount blockBytes a).1.readback.isSome = true ↔
      (blockBytes ≤ s.outCapacity → s.outUav.isSome = true ∧ s.readback.isSome = true)) := by
  rw [ensureBuffers_of_granted h]
  constructor
  · by_cases hgrow : jobCount > s.jobsCapacity
    · simp [hgrow]
    · simp [hgrow, not_lt.mp hgrow]
  · by_cases hgrow : blockBytes > s.outCapacity
    · simp [hgrow]
    · simp [hgrow, not_lt.mp hgrow]

/-- What a call can come to: it leaves the buffers alone, or as `ensureBuffers` does, and then may
have read the blocks. -/
lemma encode_cases (s : EncoderBuffers) (c : EncodeCall) :
    s.encode c = (s, c.blocks, false) ∨ s.encode c = ((s.ensured c).1, c.blocks, false) ∨
      s.encode c = ((s.ensured c).1,
        (List.range (sizeT (totalBytes c.jobs))).map c.answers.got, true) := by
  unfold encode ensured
  dsimp only
  split_ifs
  · exact Or.inl rfl
  · exact Or.inl rfl
  · exact Or.inr (Or.inl rfl)
  · exact Or.inr (Or.inl rfl)
  · exact Or.inr (Or.inl rfl)
  · exact Or.inr (Or.inr rfl)

/-! ### What a call keeps -/

lemma ensureBuffers_keeps {P : EncoderBuffers → Prop} (hj : P (s.ensureJobs jobCount a).1)
    (ho : ∀ t, P t → P (t.ensureOut blockBytes a).1) :
    P (s.ensureBuffers jobCount blockBytes a).1 := by
  unfold ensureBuffers
  rcases hs : s.ensureJobs jobCount a with ⟨t, ok⟩
  rw [hs] at hj
  cases ok with
  | false => exact hj
  | true => exact ho t hj

lemma encode_keeps {P : EncoderBuffers → Prop} (h : P s) (he : P (s.ensured c).1) :
    P (s.encode c).1 := by
  rcases encode_cases s c with hc | hc | hc
  · rw [hc]
    exact h
  · rw [hc]
    exact he
  · rw [hc]
    exact he

/-! ### Sizes -/

lemma Sized.ensureJobs (h : s.Sized) : (s.ensureJobs jobCount a).1.Sized := by
  obtain ⟨hj, hv, ho, hu, hr, ha⟩ := h
  unfold EncoderBuffers.ensureJobs
  split_ifs
  case pos => exact ⟨by simp, by simp, ho, hu, hr, ha⟩
  case pos => exact ⟨by simp, by simp, ho, hu, hr, ha⟩
  case neg => exact ⟨by simp, by simp, ho, hu, hr, ha⟩
  case neg => exact ⟨hj, hv, ho, hu, hr, ha⟩

lemma Sized.ensureOut (h : s.Sized) : (s.ensureOut blockBytes a).1.Sized := by
  obtain ⟨hj, hv, ho, hu, hr, ha⟩ := h
  have haligned : sizeT (sizeT (blockBytes * 2) + 4095) / 4096 * 4096 % 4 = 0 := by omega
  unfold EncoderBuffers.ensureOut
  split_ifs
  case pos => exact ⟨hj, hv, by simp, by simp, by simp, rfl⟩
  case pos => exact ⟨hj, hv, by simp, by simp, by simp, haligned⟩
  case pos => exact ⟨hj, hv, by simp, by simp, by simp, haligned⟩
  case neg => exact ⟨hj, hv, by simp, by simp, by simp, haligned⟩
  case neg => exact ⟨hj, hv, ho, hu, hr, ha⟩

/-- What is there is large enough if the capacity is, as far as 32 bits hold it. -/
lemma Sized.ready_iff (h : s.Sized) : s.Ready jobCount blockBytes ↔
    (s.jobsSrv.isSome = true ∧ jobCount ≤ s.jobsCapacity % 134217728) ∧
      (s.outUav.isSome = true ∧ s.readback.isSome = true) ∧
        blockBytes ≤ s.outCapacity % 4294967296 := by
  constructor
  · rintro ⟨⟨w, hw, hwide⟩, ⟨k, hk, -⟩, ⟨o, ho, hout⟩, ⟨u, hu, -⟩, ⟨r, hr, -⟩⟩
    have hjobs := h.jobs w hw
    have hbytes := h.out o ho
    unfold uint at hjobs hbytes
    exact ⟨⟨by rw [hk]; rfl, by omega⟩, ⟨by rw [hu]; rfl, by rw [hr]; rfl⟩, by omega⟩
  · rintro ⟨⟨hv, hfit⟩, ⟨hu, hr⟩, hbytes⟩
    obtain ⟨k, hk⟩ := Option.isSome_iff_exists.mp hv
    obtain ⟨u, hu⟩ := Option.isSome_iff_exists.mp hu
    obtain ⟨r, hr⟩ := Option.isSome_iff_exists.mp hr
    obtain ⟨hksize, hj⟩ := h.jobsSrv k hk
    obtain ⟨husize, ho⟩ := h.outUav u hu
    obtain ⟨w, hw⟩ := Option.isSome_iff_exists.mp hj
    obtain ⟨o, ho⟩ := Option.isSome_iff_exists.mp ho
    have hwsize := h.jobs w hw
    have hosize := h.out o ho
    have hrsize := h.readback r hr
    have haligned := h.aligned
    unfold uint at *
    exact ⟨⟨w, hw, by omega⟩, ⟨k, hk, by omega⟩, ⟨o, ho, by omega⟩, ⟨u, hu, by omega⟩,
      r, hr, by omega⟩

lemma Sized.ensureBuffers (h : s.Sized) : (s.ensureBuffers jobCount blockBytes a).1.Sized :=
  ensureBuffers_keeps h.ensureJobs fun _ ht => ht.ensureOut

lemma Sized.encode (h : s.Sized) (c : EncodeCall) : (s.encode c).1.Sized :=
  encode_keeps h h.ensureBuffers

lemma Sized.after (h : s.Sized) (cs : List EncodeCall) : (s.after cs).Sized :=
  List.foldlRecOn cs _ h fun _ ht c _ => ht.encode c

/-! ### Calls one after the other -/

/-- A call that returns false has not touched the caller's vector. -/
lemma encode_unchanged (h : (s.encode c).2.2 = false) : (s.encode c).2.1 = c.blocks := by
  rcases encode_cases s c with he | he | he
  · rw [he]
  · rw [he]
  · rw [he] at h
    contradiction

/-- The step: what a call is answered can be trusted exactly if it is safe. -/
lemma callSound_iff (h : s.Sized) : s.CallSound c ↔
    (s.Reaches c → s.Granted c.jobs.length (sizeT (totalBytes c.jobs)) c.answers →
      s.Safe c.jobs.length (sizeT (totalBytes c.jobs))) := by
  have hsafe (hg : s.Granted c.jobs.length (sizeT (totalBytes c.jobs)) c.answers) :
      (s.ensured c).1.Ready c.jobs.length (sizeT (totalBytes c.jobs)) ↔
        s.Safe c.jobs.length (sizeT (totalBytes c.jobs)) := by
    obtain ⟨hjobs, hout⟩ := isSome_of_granted hg
    have hbuffers := ensureBuffers_of_granted hg
    have hjc := congrArg (fun r => r.1.jobsCapacity) hbuffers
    have hoc := congrArg (fun r => r.1.outCapacity) hbuffers
    unfold ensured
    rw [h.ensureBuffers.ready_iff, hjobs, hout, hjc, hoc]
    exact ⟨fun ⟨⟨hv, hj⟩, hu, ho⟩ => ⟨hv, hu, hj, ho⟩, fun ⟨hv, hu, hj, ho⟩ => ⟨⟨hv, hj⟩, hu, ho⟩⟩
  constructor
  · intro hs hr hg
    exact (hsafe hg).mp (hs.ready hr (ensureBuffers_iff.mpr hg))
  · intro hs
    refine ⟨fun hr hok => ?_, encode_unchanged⟩
    have hg := ensureBuffers_iff.mp hok
    exact (hsafe hg).mpr (hs hr hg)

/-- **When a refused buffer is not taken for a ready one.** In any sequence of calls of a new
encoder, whatever the card refuses: everything is there and large enough whenever it is said to be,
and no call that fails touches the caller's vector, exactly if every call that is refused nothing
and fits a capacity finds the views and the readback that belong to it, and no size is cut to
32 bits on the way. -/
theorem calls_sound_iff (cs : List EncodeCall) :
    (∀ n c, cs[n]? = some c → (({} : EncoderBuffers).after (cs.take n)).CallSound c) ↔
      ∀ n c, cs[n]? = some c →
        let s := ({} : EncoderBuffers).after (cs.take n)
        s.Reaches c → s.Granted c.jobs.length (sizeT (totalBytes c.jobs)) c.answers →
          s.Safe c.jobs.length (sizeT (totalBytes c.jobs)) := by
  have hinit : Sized {} := ⟨by simp, by simp, by simp, by simp, by simp, rfl⟩
  exact forall_congr' fun n => forall_congr' fun c =>
    imp_congr_right fun _ => callSound_iff (hinit.after (cs.take n))

/-- One block, asked for twice; the first time the card has a buffer for the jobs and no view of
it. -/
def oneBlock (jobsSrv : Bool) : EncodeCall where
  source := true
  jobs := [⟨⟨0, 0, 4, 4⟩, 4, 4⟩]
  blocks := []
  answers := ⟨true, jobsSrv, true, true, true, true, true, fun _ => 0⟩

/-- The second call is told that the buffers are ready, and there is no view of the jobs. -/
theorem oneBlock_notSound :
    ¬∀ n c, [oneBlock false, oneBlock true][n]? = some c →
      (({} : EncoderBuffers).after ([oneBlock false, oneBlock true].take n)).CallSound c := by
  intro h
  have hready := (h 1 (oneBlock true) rfl).ready (by decide) (by decide)
  obtain ⟨k, hk, -⟩ := hready.jobsSrv
  have hnone : ((({} : EncoderBuffers).after [oneBlock false]).ensured
      (oneBlock true)).1.jobsSrv = none := by decide
  exact Option.some_ne_none k (hk.symm.trans hnone)

/-! ### A card that refuses no view -/

/-- What a card is asked for that refuses views and the readback only with the buffer before them,
in sizes that 32 bits hold. -/
structure Modest (c : EncodeCall) : Prop where
  jobsSrv : c.answers.jobs = true → c.answers.jobsSrv = true
  outUav : c.answers.out = true → c.answers.outUav = true ∧ c.answers.readback = true
  jobs : c.jobs.length + 32 < 134217728
  blocks : totalBytes c.jobs * 2 + 4095 < 4294967296

/-- No capacity without what belongs to it. -/
structure Whole (s : EncoderBuffers) : Prop where
  jobs : s.jobsCapacity = 0 ∨ s.jobsSrv.isSome = true
  jobsFit : s.jobsCapacity < 134217728
  out : s.outCapacity = 0 ∨ s.outUav.isSome = true ∧ s.readback.isSome = true
  outFits : s.outCapacity < 4294967296

lemma Whole.ensureJobs (h : s.Whole) (hv : a.jobs = true → a.jobsSrv = true)
    (hn : jobCount + 32 < 134217728) : (s.ensureJobs jobCount a).1.Whole := by
  have hfit : sizeT (jobCount + 32) < 134217728 := lt_of_le_of_lt (Nat.mod_le _ _) hn
  unfold EncoderBuffers.ensureJobs
  split_ifs with hgrow hj hs
  · exact ⟨Or.inl rfl, Nat.zero_lt_succ _, h.out, h.outFits⟩
  · exact absurd (hv (by simpa using hj)) (by simpa using hs)
  · exact ⟨Or.inr rfl, hfit, h.out, h.outFits⟩
  · exact h

lemma Whole.ensureOut (h : s.Whole)
    (hv : a.out = true → a.outUav = true ∧ a.readback = true)
    (hb : blockBytes * 2 + 4095 < 4294967296) : (s.ensureOut blockBytes a).1.Whole := by
  have hfit : sizeT (sizeT (blockBytes * 2) + 4095) / 4096 * 4096 < 4294967296 := by
    unfold sizeT
    omega
  unfold EncoderBuffers.ensureOut
  split_ifs with hgrow ho hu hr
  · exact ⟨h.jobs, h.jobsFit, Or.inl rfl, Nat.zero_lt_succ _⟩
  · exact absurd (hv (by simpa using ho)).1 (by simpa using hu)
  · exact absurd (hv (by simpa using ho)).2 (by simpa using hr)
  · exact ⟨h.jobs, h.jobsFit, Or.inr ⟨rfl, rfl⟩, hfit⟩
  · exact h

lemma sizeT_of_modest (h : Modest c) : sizeT (totalBytes c.jobs) = totalBytes c.jobs := by
  have hb := h.blocks
  unfold sizeT
  omega

lemma Whole.encode (h : s.Whole) (hc : Modest c) : (s.encode c).1.Whole := by
  refine encode_keeps h (ensureBuffers_keeps (h.ensureJobs hc.jobsSrv hc.jobs) fun t ht => ?_)
  rw [sizeT_of_modest hc]
  exact ht.ensureOut hc.outUav hc.blocks

/-- A call that gets as far as the buffers needs bytes. -/
lemma totalBytes_pos {jobs : List TileJob} (hne : jobs ≠ []) (h : ∀ j ∈ jobs, takes j = true) :
    0 < totalBytes jobs := by
  obtain ⟨j, r, rfl⟩ := List.exists_cons_of_ne_nil hne
  have hj := h j List.mem_cons_self
  simp only [takes, Bool.not_eq_true', decide_eq_false_iff_not, not_or, not_le] at hj
  obtain ⟨hw, hh, hw4, hh4, -⟩ := hj
  have hsize : 0 < etc2Size j.outW j.outH := by
    unfold etc2Size kEtc2BlockSize kEtc2BlockBytes
    rw [if_neg (by omega)]
    exact Nat.mul_pos (Nat.mul_pos (by omega) (by omega)) (by omega)
  exact Nat.lt_of_lt_of_le hsize (Nat.le_add_right _ _)

lemma Whole.safe (h : s.Whole) (hc : Modest c) (hr : s.Reaches c) :
    s.Safe c.jobs.length (sizeT (totalBytes c.jobs)) := by
  obtain ⟨-, hne, -, htakes⟩ := hr
  have hpos := totalBytes_pos hne htakes
  have hlen := List.length_pos_of_ne_nil hne
  have hbytes := hc.blocks
  have hjobs := hc.jobs
  have hcap := h.jobsFit
  have hout := h.outFits
  rw [sizeT_of_modest hc]
  refine ⟨fun hle => h.jobs.resolve_left (by omega), fun hle => h.out.resolve_left (by omega),
    ?_, ?_⟩
  · unfold growJobs sizeT
    split_ifs <;> omega
  · unfold growOut sizeT
    split_ifs <;> omega

/-- **A card that refuses no view.** If it refuses only buffers, what a call is answered can be
trusted however many calls there are. -/
theorem calls_sound_of_modest {cs : List EncodeCall} (hcs : ∀ c ∈ cs, Modest c) {n : ℕ}
    {c : EncodeCall} (hn : cs[n]? = some c) :
    (({} : EncoderBuffers).after (cs.take n)).CallSound c := by
  have hwhole : (({} : EncoderBuffers).after (cs.take n)).Whole :=
    List.foldlRecOn (cs.take n) _ ⟨Or.inl rfl, Nat.zero_lt_succ _, Or.inl rfl, Nat.zero_lt_succ _⟩
      fun _ ht c hc => ht.encode (hcs c (List.mem_of_mem_take hc))
  have hsized : (({} : EncoderBuffers).after (cs.take n)).Sized :=
    Sized.after ⟨by simp, by simp, by simp, by simp, by simp, rfl⟩ _
  exact (callSound_iff hsized).mpr fun hr _ =>
    hwhole.safe (hcs c (List.mem_of_getElem? hn)) hr

/-! ### The encoder without its buffers -/

/-- A call is one of the encoder that is told by its card whether it has buffers. -/
theorem encode_eq_device {d : Device} {source : Texture2D} (hsource : c.source = true)
    (hshader : s.shader = true) (hmap : c.answers.mapJobs = true ∧ c.answers.mapReadback = true)
    (hsize : totalBytes c.jobs < 18446744073709551616)
    (hhas : d.hasBuffers c.jobs.length (totalBytes c.jobs) = (s.ensured c).2)
    (hgot : c.answers.got =
      Scatter.run d.memory (d.schedule (Etc2Compute.dispatch source (pack 0 c.jobs)))) :
    (s.encode c).2 = match Etc2ComputeEncoder.encode d source c.jobs with
      | some blocks => (blocks, true)
      | none => (c.blocks, false) := by
  have htotal : sizeT (totalBytes c.jobs) = totalBytes c.jobs := Nat.mod_eq_of_lt hsize
  unfold ensured at hhas
  unfold encode Etc2ComputeEncoder.encode
  rw [hhas, htotal, hgot]
  simp only [hsource, hshader, hmap]
  by_cases hnil : c.jobs = []
  · simp [hnil]
  · by_cases hany : (c.jobs.any fun j => !takes j) = true
    · simp [hnil, hany]
    · cases (s.ensureBuffers c.jobs.length (totalBytes c.jobs) c.answers).2 <;>
        simp [hnil, hany]

end EncoderBuffers

end Digitiz
