import Mathlib.Algebra.Ring.Nat
import Mathlib.Data.List.TakeWhile
import Digitiz.Wire

/-!
Writers and readers that belong together.

A codec writes a value as a stretch of bytes of a fixed size and reads one back from the front of
a payload. Every stretch of that size can be read, but not every one is the way its value is
written: padding is written as zeros, a flag as 0 or 1, and a string ends at its first NUL. What a
stretch becomes when it is read and written again is its canonical form.
-/

namespace Digitiz.Wire

open Digitiz.Bytes

/-- What a stretch of a payload is to its codec. -/
inductive Part
  /-- Bytes that come back as they were. -/
  | kept (n : ℕ)
  /-- Bytes nobody looks at. -/
  | reserved (n : ℕ)
  /-- A byte that is zero or not. -/
  | boolean
  /-- A string in a field of fixed width. -/
  | text (n : ℕ)
  /-- A string that takes what is left. -/
  | rest (n : ℕ)
  deriving DecidableEq, Repr

namespace Part

def size : Part → ℕ
  | kept n => n
  | reserved n => n
  | boolean => 1
  | text n => n
  | rest n => n

/-- A stretch read and written again. -/
def canon : Part → List UInt8 → List UInt8
  | kept _, p => p
  | reserved n, _ => List.replicate n 0
  | boolean, p => p.map fun b => if b = 0 then 0 else 1
  | text n, p => p.takeWhile (· ≠ 0) ++ List.replicate (n - (p.takeWhile (· ≠ 0)).length) 0
  | rest _, p => p.takeWhile (· ≠ 0)

end Part

def size (parts : List Part) : ℕ := (parts.map Part.size).sum

/-- Part after part. -/
def canon : List Part → List UInt8 → List UInt8
  | [], _ => []
  | part :: parts, p => part.canon (p.take part.size) ++ canon parts (p.drop part.size)

lemma size_append (ps qs : List Part) : size (ps ++ qs) = size ps + size qs := by
  rw [size, List.map_append, List.sum_append, size, size]

lemma canon_append (ps qs : List Part) {p : List UInt8} (q : List UInt8) (hp : p.length = size ps) :
    canon (ps ++ qs) (p ++ q) = canon ps p ++ canon qs q := by
  induction ps generalizing p with
  | nil =>
    obtain rfl : p = [] := List.length_eq_zero_iff.mp hp
    rfl
  | cons part ps ih =>
    have hsize : size (part :: ps) = part.size + size ps := rfl
    have hle : part.size ≤ p.length := by omega
    rw [List.cons_append, canon, canon, List.take_append_of_le_length hle,
      List.drop_append_of_le_length hle, ih (by rw [List.length_drop]; omega), List.append_assoc]

lemma canon_singleton (part : Part) {p : List UInt8} (hp : p.length = part.size) :
    canon [part] p = part.canon p := by
  rw [canon, canon, List.append_nil, ← hp, List.take_length]

structure Codec (α : Type) where
  write : α → List UInt8
  read : Read α
  parts : List Part
  /-- What can be written without a loss. -/
  Good : α → Prop

namespace Codec

variable {α β γ : Type}

structure Lawful (c : Codec α) : Prop where
  read_write : ∀ a l, c.Good a → c.read ⟨c.write a ++ l, true⟩ = (a, ⟨l, true⟩)
  read_bytes : ∀ p l, p.length = size c.parts →
    ∃ a, c.Good a ∧ c.read ⟨p ++ l, true⟩ = (a, ⟨l, true⟩) ∧ c.write a = canon c.parts p
  read_short : ∀ r, r.ok = false ∨ r.rest.length < size c.parts → (c.read r).2.ok = false

/-! ### One field -/

lemma take_short {n : ℕ} {short : α} {f : List UInt8 → α} {r : Reader}
    (h : r.ok = false ∨ r.rest.length < n) : (Reader.take n short f r).2.ok = false := by
  have hneed : (!r.ok || decide (r.rest.length < n)) = true := by
    rcases h with h | h <;> simp [h]
  simp [Reader.take, Reader.need, Reader.bind_apply, hneed, Reader.pure_apply]

/-- A field whose bytes are looked at all at once. -/
lemma lawful_of_take {n : ℕ} {short : α} {f : List UInt8 → α} {c : Codec α} {part : Part}
    (hr : c.read = Reader.take n short f) (hparts : c.parts = [part]) (hn : part.size = n)
    (hw : ∀ a, c.Good a → (c.write a).length = n ∧ f (c.write a) = a)
    (hb : ∀ p, p.length = n → c.Good (f p) ∧ c.write (f p) = part.canon p) : Lawful c := by
  have hsize : size c.parts = n := by
    rw [hparts, ← hn, size, List.map_singleton, List.sum_singleton]
  refine ⟨fun a l ha => ?_, fun p l hp => ?_, fun r h => ?_⟩
  · obtain ⟨hlen, hf⟩ := hw a ha
    rw [hr, ← hlen, Reader.take_apply, hf]
  · rw [hsize] at hp
    obtain ⟨hgood, hcanon⟩ := hb p hp
    refine ⟨f p, hgood, ?_, ?_⟩
    · rw [hr, ← hp, Reader.take_apply]
    · rw [hcanon, hparts, canon_singleton part (hp.trans hn.symm)]
  · rw [hsize] at h
    rw [hr]
    exact take_short h

def u8 : Codec UInt8 := ⟨Writer.u8, Reader.u8, [.kept 1], fun _ => True⟩

lemma lawful_u8 : Lawful u8 := by
  refine lawful_of_take (f := (·.headD 0)) rfl rfl rfl (fun a _ => ⟨rfl, rfl⟩) fun p hp =>
    ⟨trivial, ?_⟩
  obtain ⟨b, rfl⟩ := List.length_eq_one_iff.mp hp
  rfl

/-- Bytes that are skipped and written as zeros. -/
def skip (n : ℕ) : Codec Unit :=
  ⟨fun _ => Writer.pad n, Reader.skip n, [.reserved n], fun _ => True⟩

lemma lawful_skip (n : ℕ) : Lawful (skip n) :=
  lawful_of_take (f := fun _ => ()) rfl rfl rfl (fun _ _ => ⟨Writer.length_pad n, rfl⟩)
    fun _ _ => ⟨trivial, rfl⟩

/-- A string fits its field and holds no NUL. -/
def Fits (n : ℕ) (s : List UInt8) : Prop := s.length ≤ n ∧ 0 ∉ s

def fixedStr (n : ℕ) : Codec (List UInt8) :=
  ⟨fun s => Writer.fixedStr s n, Reader.fixedStr n, [.text n], Fits n⟩

lemma fixedStr_eq {n : ℕ} {s : List UInt8} (h : s.length ≤ n) :
    Writer.fixedStr s n = s ++ List.replicate (n - s.length) 0 := by
  unfold Writer.fixedStr Writer.pad
  dsimp only
  split_ifs with hlt
  · rw [List.take_length]
  · obtain rfl : s.length = n := by omega
    rw [List.take_length]

/-- A field holds the beginning of a text that is too long for it. -/
lemma writer_fixedStr_take (s : List UInt8) (n : ℕ) :
    Writer.fixedStr (s.take n) n = Writer.fixedStr s n := by
  unfold Writer.fixedStr
  dsimp only
  rw [List.length_take]
  obtain hlt | hge := Nat.lt_or_ge s.length n
  · rw [min_eq_right hlt.le, List.take_of_length_le hlt.le]
  · rw [min_eq_left hge, if_neg (lt_irrefl n), if_neg (not_lt.mpr hge), List.take_take, min_self]

lemma not_mem_takeWhile (p : List UInt8) : (0 : UInt8) ∉ p.takeWhile (· ≠ 0) := by
  intro h
  simpa using List.mem_takeWhile_imp h

lemma takeWhile_fixed {s : List UInt8} (h : 0 ∉ s) (k : ℕ) :
    (s ++ List.replicate k 0).takeWhile (· ≠ 0) = s := by
  have hs : ∀ b ∈ s, decide (b ≠ 0) = true := by
    intro b hb
    simpa using fun hb0 : b = 0 => h (hb0 ▸ hb)
  rw [List.takeWhile_append_of_pos hs]
  cases k with
  | zero => simp
  | succ k => simp [List.replicate_succ]

lemma lawful_fixedStr (n : ℕ) : Lawful (fixedStr n) := by
  refine lawful_of_take rfl rfl rfl (fun s hs => ?_) fun p hp => ?_
  · have hw : (fixedStr n).write s = s ++ List.replicate (n - s.length) 0 := fixedStr_eq hs.1
    have hle := hs.1
    rw [hw]
    refine ⟨?_, takeWhile_fixed hs.2 _⟩
    rw [List.length_append, List.length_replicate]
    omega
  · have hle : (p.takeWhile (· ≠ 0)).length ≤ n := hp ▸ (List.takeWhile_sublist _).length_le
    exact ⟨⟨hle, not_mem_takeWhile p⟩, fixedStr_eq hle⟩

/-! ### Fields put together -/

lemma bind_assoc (x : Read α) (f : α → Read β) (g : β → Read γ) :
    (x >>= f) >>= g = x >>= fun a => f a >>= g := rfl

lemma pure_bind (a : α) (f : α → Read β) : (pure a >>= f) = f a := rfl

/-- One after the other. -/
def pair (c : Codec α) (d : Codec β) : Codec (α × β) where
  write v := c.write v.1 ++ d.write v.2
  read := do
    let a ← c.read
    let b ← d.read
    return (a, b)
  parts := c.parts ++ d.parts
  Good v := c.Good v.1 ∧ d.Good v.2

/-- The front of a payload that is long enough, and the rest. -/
lemma exists_front {n : ℕ} {r : Reader} (h : ¬(r.ok = false ∨ r.rest.length < n)) :
    ∃ p l, r = ⟨p ++ l, true⟩ ∧ p.length = n := by
  rw [not_or, Bool.not_eq_false, Nat.not_lt] at h
  refine ⟨r.rest.take n, r.rest.drop n, ?_, List.length_take_of_le h.2⟩
  rw [List.take_append_drop, ← h.1]

lemma Lawful.pair {c : Codec α} {d : Codec β} (hc : Lawful c) (hd : Lawful d) :
    Lawful (c.pair d) := by
  refine ⟨fun v l hv => ?_, fun p l hp => ?_, fun r h => ?_⟩
  · simp only [Codec.pair, Reader.bind_apply, List.append_assoc, hc.read_write _ _ hv.1,
      hd.read_write _ _ hv.2, Reader.pure_apply]
  · rw [Codec.pair, size_append] at hp
    obtain ⟨p, q, rfl, hpl⟩ : ∃ p₁ q, p = p₁ ++ q ∧ p₁.length = size c.parts :=
      ⟨_, _, (List.take_append_drop (size c.parts) p).symm, List.length_take_of_le (by omega)⟩
    rw [List.length_append] at hp
    obtain ⟨a, ha, hra, hwa⟩ := hc.read_bytes p (q ++ l) hpl
    obtain ⟨b, hb, hrb, hwb⟩ := hd.read_bytes q l (by omega)
    refine ⟨(a, b), ⟨ha, hb⟩, ?_, ?_⟩
    · simp only [Codec.pair, Reader.bind_apply, List.append_assoc, hra, hrb, Reader.pure_apply]
    · exact (congrArg₂ (· ++ ·) hwa hwb).trans (canon_append _ _ _ hpl).symm
  · rw [Codec.pair, size_append] at h
    refine hd.read_short _ ?_
    by_cases hshort : r.ok = false ∨ r.rest.length < size c.parts
    · exact .inl (hc.read_short r hshort)
    · -- the first is there, so it is the second that is cut off
      obtain ⟨p, l, rfl, hp⟩ := exists_front hshort
      obtain ⟨a, -, hra, -⟩ := hc.read_bytes p l hp
      rw [hra]
      rw [List.length_append] at h
      refine .inr ?_
      rcases h with h | h
      · contradiction
      · dsimp only at h ⊢
        omega

/-- The same bytes for another type. -/
def map (c : Codec α) (f : α → β) (g : β → α) : Codec β where
  write b := c.write (g b)
  read := do
    let a ← c.read
    return f a
  parts := c.parts
  Good b := c.Good (g b)

lemma Lawful.map {c : Codec α} (hc : Lawful c) {f : α → β} {g : β → α}
    (hfg : ∀ b, f (g b) = b) (hgf : ∀ a, g (f a) = a) : Lawful (c.map f g) := by
  refine ⟨fun b l hb => ?_, fun p l hp => ?_, fun r h => hc.read_short r h⟩
  · simp only [Codec.map, Reader.bind_apply, hc.read_write _ _ hb, Reader.pure_apply, hfg]
  · obtain ⟨a, ha, hra, hwa⟩ := hc.read_bytes p l hp
    refine ⟨f a, ?_, ?_, ?_⟩
    · exact (congrArg c.Good (hgf a)).mpr ha
    · simp only [Codec.map, Reader.bind_apply, hra, Reader.pure_apply]
    · exact (congrArg c.write (hgf a)).trans hwa

/-- A field that is read and thrown away, and written as the value `a`. -/
def ignored (c : Codec α) (a : α) : Codec Unit where
  write _ := c.write a
  read := do
    let _ ← c.read
    return ()
  parts := [.reserved (size c.parts)]
  Good _ := True

lemma Lawful.ignored {c : Codec α} (hc : Lawful c) {a : α} (ha : c.Good a)
    (hz : c.write a = List.replicate (size c.parts) 0) : Lawful (c.ignored a) := by
  have hsize : size (c.ignored a).parts = size c.parts := Nat.add_zero _
  refine ⟨fun _ l _ => ?_, fun p l hp => ?_, fun r h => ?_⟩
  · simp only [Codec.ignored, Reader.bind_apply, hc.read_write _ _ ha, Reader.pure_apply]
  · rw [hsize] at hp
    obtain ⟨b, -, hr, -⟩ := hc.read_bytes p l hp
    refine ⟨(), trivial, ?_, ?_⟩
    · simp only [Codec.ignored, Reader.bind_apply, hr, Reader.pure_apply]
    · exact hz.trans (canon_singleton (.reserved (size c.parts)) hp).symm
  · rw [hsize] at h
    exact hc.read_short r h

/-! ### Words and flags -/

def u16 : Codec UInt16 := ⟨Writer.u16, Reader.u16, [.kept 2], fun _ => True⟩
def u32 : Codec UInt32 := ⟨Writer.u32, Reader.u32, [.kept 4], fun _ => True⟩
def u64 : Codec UInt64 := ⟨Writer.u64, Reader.u64, [.kept 8], fun _ => True⟩
def i32 : Codec Int32 := ⟨Writer.i32, Reader.i32, [.kept 4], fun _ => True⟩
def boolean : Codec Bool := ⟨Writer.boolean, Reader.boolean, [.boolean], fun _ => True⟩

/-- A word is read and written as its two halves. -/
lemma lawful_word {c : Codec α} {d : Codec β} {n : ℕ} {f : α → α → β} {g : β → α × α}
    (hc : Lawful c) (hp : c.parts = [.kept n]) (hgood : ∀ a, c.Good a)
    (hfg : ∀ b, f (g b).1 (g b).2 = b) (hgf : ∀ a a', g (f a a') = (a, a'))
    (hw : ∀ b, d.write b = c.write (g b).1 ++ c.write (g b).2)
    (hr : d.read = do
      let lo ← c.read
      let hi ← c.read
      return f lo hi)
    (hdp : d.parts = [.kept (n + n)]) (hdg : ∀ b, d.Good b) : Lawful d := by
  have h := (hc.pair hc).map (f := fun v => f v.1 v.2) (g := g) hfg fun v => hgf v.1 v.2
  have hs : size d.parts = size ((c.pair c).map (fun v => f v.1 v.2) g).parts := by
    rw [hdp, Codec.map, Codec.pair, hp]
    rfl
  have hread : d.read = ((c.pair c).map (fun v => f v.1 v.2) g).read := hr
  refine ⟨fun b l _ => ?_, fun p l hlen => ?_, fun r hshort => ?_⟩
  · rw [hread, hw]
    exact h.read_write b l ⟨hgood _, hgood _⟩
  · obtain ⟨b, -, hb, hwb⟩ := h.read_bytes p l (hs ▸ hlen)
    refine ⟨b, hdg b, hread ▸ hb, ?_⟩
    rw [hdp] at hlen ⊢
    have hnn : p.length = n + n := hlen
    have htake : (p.drop n).take n = p.drop n :=
      List.take_of_length_le (by rw [List.length_drop]; omega)
    rw [hw, canon_singleton _ hnn]
    refine hwb.trans ?_
    rw [Codec.map, Codec.pair, hp]
    simp only [List.singleton_append, canon, Part.canon, Part.size, List.append_nil, htake,
      List.take_append_drop]
  · rw [hread]
    exact h.read_short r (hs ▸ hshort)

lemma lawful_u16 : Lawful u16 := by
  refine lawful_word (f := fun (lo hi : UInt8) => lo.toUInt16 ||| hi.toUInt16 <<< 8)
    (g := fun v => (v.toUInt8, (v >>> 8).toUInt8)) lawful_u8 rfl (fun _ => trivial) (fun v => ?_)
    (fun lo hi => ?_) (fun _ => rfl) rfl rfl fun _ => trivial
  · have := v.toNat_lt
    apply UInt16.toNat_inj.mp
    rw [toNat_or16]
    simp [Nat.shiftRight_eq_div_pow]
    omega
  · have h := toNat_or16 lo hi
    have h1 := lo.toNat_lt
    have h2 := hi.toNat_lt
    refine Prod.ext (UInt8.toNat_inj.mp ?_) (UInt8.toNat_inj.mp ?_)
    · rw [UInt16.toNat_toUInt8, h]
      dsimp only
      omega
    · rw [UInt16.toNat_toUInt8, UInt16.toNat_shiftRight, h, Nat.shiftRight_eq_div_pow]
      simp
      omega

lemma lawful_u32 : Lawful u32 := by
  refine lawful_word (f := fun (lo hi : UInt16) => lo.toUInt32 ||| hi.toUInt32 <<< 16)
    (g := fun v => (v.toUInt16, (v >>> 16).toUInt16)) lawful_u16 rfl (fun _ => trivial)
    (fun v => ?_) (fun lo hi => ?_) (fun _ => rfl) rfl rfl fun _ => trivial
  · have := v.toNat_lt
    apply UInt32.toNat_inj.mp
    rw [toNat_or32]
    simp [Nat.shiftRight_eq_div_pow]
    omega
  · have h := toNat_or32 lo hi
    have h1 := lo.toNat_lt
    have h2 := hi.toNat_lt
    refine Prod.ext (UInt16.toNat_inj.mp ?_) (UInt16.toNat_inj.mp ?_)
    · rw [UInt32.toNat_toUInt16, h]
      dsimp only
      omega
    · rw [UInt32.toNat_toUInt16, UInt32.toNat_shiftRight, h, Nat.shiftRight_eq_div_pow]
      simp
      omega

lemma lawful_u64 : Lawful u64 := by
  refine lawful_word (f := fun (lo hi : UInt32) => lo.toUInt64 ||| hi.toUInt64 <<< 32)
    (g := fun v => (v.toUInt32, (v >>> 32).toUInt32)) lawful_u32 rfl (fun _ => trivial)
    (fun v => ?_) (fun lo hi => ?_) (fun _ => rfl) rfl rfl fun _ => trivial
  · have := v.toNat_lt
    apply UInt64.toNat_inj.mp
    rw [toNat_or64]
    simp [Nat.shiftRight_eq_div_pow]
    omega
  · have h := toNat_or64 lo hi
    have h1 := lo.toNat_lt
    have h2 := hi.toNat_lt
    refine Prod.ext (UInt32.toNat_inj.mp ?_) (UInt32.toNat_inj.mp ?_)
    · rw [UInt64.toNat_toUInt32, h]
      dsimp only
      omega
    · rw [UInt64.toNat_toUInt32, UInt64.toNat_shiftRight, h, Nat.shiftRight_eq_div_pow]
      simp
      omega

lemma lawful_i32 : Lawful i32 :=
  lawful_u32.map (f := UInt32.toInt32) (g := Int32.toUInt32) (fun _ => rfl) fun _ => rfl

lemma lawful_boolean : Lawful boolean := by
  refine ⟨fun b l _ => ?_, fun p l hp => ?_, fun r h => lawful_u8.read_short r h⟩
  · cases b <;> rfl
  · obtain ⟨v, rfl⟩ := List.length_eq_one_iff.mp (show p.length = 1 from hp)
    refine ⟨v != 0, trivial, ?_, ?_⟩
    · have h := lawful_u8.read_write v l trivial
      exact (congrArg (fun q : UInt8 × Reader => (q.1 != 0, q.2)) h)
    · by_cases hv : v = 0
      · rw [hv]
        rfl
      · simp [boolean, Writer.boolean, Writer.u8, canon, Part.canon, Part.size, hv]

/-! ### Whole payloads -/

/-- The end of a payload: what is read from whatever is left. -/
structure Tail (α : Type) where
  write : α → List UInt8
  read : Read α
  /-- What it can be read from. -/
  Takes : List UInt8 → Prop
  parts : List UInt8 → List Part
  Good : α → Prop

structure Tail.Lawful (t : Tail α) : Prop where
  read_write : ∀ a, t.Good a → t.read ⟨t.write a, true⟩ = (a, ⟨[], true⟩)
  read_bytes : ∀ l, t.Takes l →
    ∃ a, t.Good a ∧ t.read ⟨l, true⟩ = (a, ⟨[], true⟩) ∧ t.write a = canon (t.parts l) l
  read_unfit : ∀ l, ¬t.Takes l → (t.read ⟨l, true⟩).2.done = false
  read_failed : ∀ r, r.ok = false → (t.read r).2.ok = false

/-- A payload decoder that gives back what was written, takes the payloads `Accepts` and no
others, and reads them as what their canonical form was written from. -/
structure Strict (payload : α → List UInt8) (decode : List UInt8 → Option α) (Good : α → Prop)
    (Accepts : List UInt8 → Prop) (parts : List UInt8 → List Part) : Prop where
  lossless : ∀ m, Good m → decode (payload m) = some m
  accepted : ∀ p, Accepts p → ∃ m, decode p = some m ∧ Good m ∧ payload m = canon (parts p) p
  refused : ∀ p, ¬Accepts p → decode p = none

/-- The same under other names for what is written and taken. -/
lemma Strict.congr {payload : α → List UInt8} {decode : List UInt8 → Option α}
    {Good Good' : α → Prop} {Accepts Accepts' : List UInt8 → Prop}
    {parts parts' : List UInt8 → List Part} (h : Strict payload decode Good Accepts parts)
    (hg : ∀ m, Good' m ↔ Good m) (ha : ∀ p, Accepts' p ↔ Accepts p) (hp : ∀ p, parts' p = parts p) :
    Strict payload decode Good' Accepts' parts' := by
  refine ⟨fun m hm => h.lossless m ((hg m).mp hm), fun p hp' => ?_, fun p hno => ?_⟩
  · obtain ⟨m, hd, hgood, hc⟩ := h.accepted p ((ha p).mp hp')
    exact ⟨m, hd, (hg m).mpr hgood, hp p ▸ hc⟩
  · exact h.refused p fun hacc => hno ((ha p).mpr hacc)

/-- The payload of a message is what follows its header. -/
lemma Strict.of_message {payload : α → List UInt8} {decode : List UInt8 → Option α}
    {Good : α → Prop} {Accepts : List UInt8 → Prop} {parts : List UInt8 → List Part}
    (h : Strict payload decode Good Accepts parts) (type : MsgType) :
    Strict (fun m => (message type 0 (payload m)).drop kHeaderSize) decode Good Accepts parts := by
  simp only [drop_message]
  exact h

lemma decodeWith_eq_none {rd : Read α} {p : List UInt8} (h : (rd ⟨p, true⟩).2.done = false) :
    decodeWith rd p = none := by
  change (if (rd ⟨p, true⟩).2.done = true then some (rd ⟨p, true⟩).1 else none) = none
  rw [h]
  rfl

lemma decodeWith_eq_some {rd : Read α} {p : List UInt8} {a : α}
    (h : rd ⟨p, true⟩ = (a, ⟨[], true⟩)) : decodeWith rd p = some a := by
  rw [decodeWith, h]
  rfl

lemma done_of_not_ok {r : Reader} (h : r.ok = false) : r.done = false := by
  rw [Reader.done, h, Bool.false_and]

/-- A codec at the end of a payload. -/
def tail (c : Codec α) : Tail α :=
  ⟨c.write, c.read, fun l => l.length = size c.parts, fun _ => c.parts, c.Good⟩

lemma Lawful.tail {c : Codec α} (hc : Lawful c) : c.tail.Lawful := by
  refine ⟨fun a ha => ?_, fun l hl => ?_, fun l hl => ?_, fun r h => hc.read_short r (.inl h)⟩
  · have h := hc.read_write a [] ha
    rwa [List.append_nil] at h
  · obtain ⟨a, ha, hread, hcanon⟩ := hc.read_bytes l [] hl
    rw [List.append_nil] at hread
    exact ⟨a, ha, hread, hcanon⟩
  · by_cases hshort : l.length < size c.parts
    · exact done_of_not_ok (hc.read_short _ (.inr hshort))
    · -- something is left over
      obtain ⟨p, q, hpq, hp⟩ := exists_front (r := ⟨l, true⟩) (n := size c.parts)
        (by simpa using hshort)
      obtain ⟨a, -, hread, -⟩ := hc.read_bytes p q hp
      obtain rfl : l = p ++ q := congrArg Reader.rest hpq
      have hdone : (c.tail.read ⟨p ++ q, true⟩).2 = ⟨q, true⟩ := congrArg Prod.snd hread
      rw [hdone]
      cases q with
      | nil =>
        rw [List.append_nil] at hl
        exact absurd hp hl
      | cons b q => rfl

/-- **Fixed payloads.** -/
theorem Lawful.strict {c : Codec α} (hc : Lawful c) (payload : α → List UInt8) (rd : Read α)
    (hw : ∀ m, payload m = c.write m) (hr : rd = c.read) :
    Strict payload (decodeWith rd) c.Good (fun p => p.length = size c.parts) fun _ => c.parts := by
  obtain rfl := funext hw
  subst hr
  refine ⟨fun m hm => decodeWith_eq_some (hc.tail.read_write m hm), fun p hp => ?_, fun p hp => ?_⟩
  · obtain ⟨m, hm, hread, hcanon⟩ := hc.tail.read_bytes p hp
    exact ⟨m, decodeWith_eq_some hread, hm, hcanon⟩
  · exact decodeWith_eq_none (hc.tail.read_unfit p hp)

/-- **Payloads with a tail**, which may depend on what stands before it. -/
theorem Lawful.strict_tail {c : Codec α} {t : α → Tail β} (hc : Lawful c)
    (ht : ∀ a, (t a).Lawful) {f : α → β → γ} {g : γ → α × β} (payload : γ → List UInt8)
    (rd : Read γ) {Good : γ → Prop} {Accepts : List UInt8 → Prop}
    {parts : List UInt8 → List Part} (hfg : ∀ m, f (g m).1 (g m).2 = m)
    (hgf : ∀ a b, c.Good a → (t a).Good b → Good (f a b) ∧ g (f a b) = (a, b))
    (hw : ∀ m, payload m = c.write (g m).1 ++ (t (g m).1).write (g m).2)
    (hr : rd = do
      let a ← c.read
      let b ← (t a).read
      return f a b)
    (hgood : ∀ m, Good m → c.Good (g m).1 ∧ (t (g m).1).Good (g m).2)
    (hshort : ∀ p, Accepts p → size c.parts ≤ p.length)
    (haccepts : ∀ p l a r, p.length = size c.parts → c.read ⟨p ++ l, true⟩ = (a, r) →
      (Accepts (p ++ l) ↔ (t a).Takes l) ∧ parts (p ++ l) = c.parts ++ (t a).parts l) :
    Strict payload (decodeWith rd) Good Accepts parts := by
  subst hr
  have happly : ∀ p l a, c.read ⟨p ++ l, true⟩ = (a, ⟨l, true⟩) →
      (do
        let a ← c.read
        let b ← (t a).read
        return f a b : Read γ) ⟨p ++ l, true⟩
        = (f a ((t a).read ⟨l, true⟩).1, ((t a).read ⟨l, true⟩).2) := by
    intro p l a h
    simp only [Reader.bind_apply, h, Reader.pure_apply]
  refine ⟨fun m hm => ?_, fun p hp => ?_, fun p hp => decodeWith_eq_none ?_⟩
  · obtain ⟨h1, h2⟩ := hgood m hm
    rw [hw]
    refine decodeWith_eq_some ?_
    rw [happly _ _ _ (hc.read_write _ _ h1), (ht _).read_write _ h2, hfg]
  · obtain ⟨q, l, rfl, hq⟩ : ∃ q l, p = q ++ l ∧ q.length = size c.parts :=
      ⟨_, _, (List.take_append_drop (size c.parts) p).symm, List.length_take_of_le (hshort p hp)⟩
    obtain ⟨a, ha, hra, hwa⟩ := hc.read_bytes q l hq
    obtain ⟨htakes, hparts⟩ := haccepts q l a _ hq hra
    obtain ⟨b, hb, hrb, hwb⟩ := (ht a).read_bytes l (htakes.mp hp)
    obtain ⟨hgood', hgf'⟩ := hgf a b ha hb
    refine ⟨f a b, decodeWith_eq_some ?_, hgood', ?_⟩
    · rw [happly _ _ _ hra, hrb]
    · rw [hw, hgf', hparts, canon_append _ _ _ hq, hwa, hwb]
  · by_cases hlen : p.length < size c.parts
    · exact done_of_not_ok ((ht _).read_failed _ (hc.read_short _ (.inr hlen)))
    · obtain ⟨q, l, hql, hq⟩ :=
        exists_front (r := ⟨p, true⟩) (n := size c.parts) (by simpa using hlen)
      obtain ⟨a, -, hra, -⟩ := hc.read_bytes q l hq
      obtain rfl : p = q ++ l := congrArg Reader.rest hql
      rw [happly _ _ _ hra]
      exact (ht a).read_unfit l fun htakes => hp ((haccepts q l a _ hq hra).1.mpr htakes)

end Codec

end Digitiz.Wire
