import Mathlib.Tactic.IntervalCases
import Digitiz.Etc2Decode

/-!
A block read back.

The encoder ors sixteen small numbers and thirty-two single bits into one number and cuts it into
eight bytes; the decoder puts the bytes together again and takes the numbers out one at a time.
None of them overlaps another, so each comes back as what was put in, cut to its width. What a
candidate holds fits the bits it is given, and so the decoder paints with the colours, tables and
indices the encoder has fitted.
-/

namespace Digitiz.Etc2

open BitFields Rescale

/-! ### Eight bytes and one number -/

lemma toNat_byteOf (w : UInt64) {k : ℕ} (hk : k < 64) :
    (w >>> UInt64.ofNat k &&& 0xFF).toUInt8.toNat = slice 8 k w.toNat := by
  rw [toNat_byte64, toNat_shiftRight64 w hk]
  rfl

/-- A byte moved up to its place. -/
lemma toNat_byteAt (v : UInt8) {k : ℕ} (hk : k ≤ 56) :
    (v.toUInt64 <<< UInt64.ofNat k).toNat = v.toNat <<< k := by
  have hk' : k < 2 ^ 64 := by omega
  have hlt : v.toNat <<< k < 2 ^ 64 :=
    calc v.toNat <<< k = v.toNat * 2 ^ k := Nat.shiftLeft_eq _ _
      _ < 2 ^ 8 * 2 ^ k := Nat.mul_lt_mul_of_pos_right v.toNat_lt (Nat.two_pow_pos k)
      _ = 2 ^ (8 + k) := (pow_add 2 8 k).symm
      _ ≤ 2 ^ 64 := Nat.pow_le_pow_right (by decide) (by omega)
  rw [UInt64.toNat_shiftLeft, UInt8.toNat_toUInt64, UInt64.toNat_ofNat_of_lt' hk',
    Nat.mod_eq_of_lt (show k < 64 by omega), Nat.mod_eq_of_lt hlt]

lemma toNat_blockBits (src : ℕ → UInt8) :
    (blockBits src).toNat
      = (List.range 8).foldl (fun w i => w ||| (src i).toNat <<< (56 - i * 8)) 0 := by
  unfold blockBits
  refine (List.foldl_hom UInt64.toNat fun w i => ?_).symm
  rw [UInt64.toNat_or, toNat_byteAt _ (Nat.sub_le _ _)]

/-- **Cut into bytes and put together again.** -/
lemma blockBits_bytes (w : UInt64) {src : ℕ → UInt8}
    (hsrc : ∀ i < 8, src i = (w >>> UInt64.ofNat (56 - i * 8) &&& 0xFF).toUInt8) :
    blockBits src = w := by
  have hbyte (i : ℕ) (hi : i < 8) : (src i).toNat <<< (56 - i * 8)
      = slice 8 ((8 - (i + 1)) * 8) w.toNat <<< ((8 - (i + 1)) * 8) := by
    rw [hsrc i hi, toNat_byteOf w (by omega), show (8 - (i + 1)) * 8 = 56 - i * 8 by omega]
  apply UInt64.toNat_inj.mp
  calc (blockBits src).toNat
      = (List.range 8).foldl (fun acc i => acc ||| (src i).toNat <<< (56 - i * 8)) 0 :=
        toNat_blockBits src
    _ = (List.range 8).foldl (fun acc i => acc ||| slice 8 ((8 - (i + 1)) * 8) w.toNat <<<
          ((8 - (i + 1)) * 8)) 0 :=
        List.foldl_ext _ _ _ fun acc i hi => by rw [hbyte i (List.mem_range.mp hi)]
    _ = w.toNat % 2 ^ (8 * 8) := foldl_pieces 8 8 w.toNat
    _ = w.toNat := Nat.mod_eq_of_lt w.toNat_lt

/-! ### Fields -/

lemma bitsOf_eq (w : UInt64) {n s : ℕ} (hn : n < 64) (hs : s < 64) :
    bitsOf w n s = slice n s w.toNat := by
  have hmask : 2 ^ n - 1 < 2 ^ 64 :=
    (Nat.sub_le _ _).trans_lt (Nat.pow_lt_pow_right (by decide) hn)
  rw [bitsOf, UInt64.toNat_and, toNat_shiftRight64 w hs, UInt64.toNat_ofNat_of_lt' hmask,
    Nat.and_two_pow_sub_one_eq_mod]
  rfl

lemma bitsOf_zero {n s : ℕ} (hn : n < 64) (hs : s < 64) : bitsOf 0 n s = 0 := by
  rw [bitsOf_eq 0 hn hs]
  exact slice_zero n s

lemma bitsOf_or (w w' : UInt64) {n s : ℕ} (hn : n < 64) (hs : s < 64) :
    bitsOf (w ||| w') n s = bitsOf w n s ||| bitsOf w' n s := by
  rw [bitsOf_eq _ hn hs, bitsOf_eq _ hn hs, bitsOf_eq _ hn hs, UInt64.toNat_or, slice_or]

lemma bitsOf_field_self (v : ℤ) {n s : ℕ} (hn : n < 64) (h : n + s ≤ 64) (hs : s < 64) :
    bitsOf (field v n s) n s = (v % 2 ^ n).toNat := by
  rw [bitsOf_eq _ hn hs, toNat_field v h hs, slice_shiftLeft_self (emod_lt v n)]

/-- Nothing is seen of a field that ends below or starts above. -/
lemma bitsOf_field_other (v : ℤ) {b t n s : ℕ} (hn : n < 64) (hs : s < 64) (hb : b + t ≤ 64)
    (ht : t < 64) (h : s + n ≤ t ∨ t + b ≤ s) : bitsOf (field v b t) n s = 0 := by
  rw [bitsOf_eq _ hn hs, toNat_field v hb ht]
  rcases h with h | h
  · exact slice_shiftLeft_above _ h
  · exact slice_shiftLeft_below (emod_lt v b) h

lemma bitsOf_foldl {α : Type} (f : α → UInt64) (l : List α) {n s : ℕ} (hn : n < 64)
    (hs : s < 64) : bitsOf (l.foldl (fun w a => w ||| f a) 0) n s
      = l.foldl (fun w a => w ||| bitsOf (f a) n s) 0 := by
  rw [← bitsOf_zero hn hs]
  exact (List.foldl_hom (bitsOf · n s) fun w a => (bitsOf_or w (f a) hn hs).symm).symm

/-! ### Indices -/

/-- Each pixel is in the half it is decoded in, and in no other. -/
lemma mem_subblockPixels (flip half : ℕ) {x y : ℕ} (hx : x < 4) (hy : y < 4) :
    x * 4 + y ∈ subblockPixels flip half ↔ (halfAt flip x y = 1 ↔ half = 1) := by
  have hmine : (if flip = 0 then decide (x ≥ 2) == decide (half = 1)
      else decide (y ≥ 2) == decide (half = 1)) = true ↔ (halfAt flip x y = 1 ↔ half = 1) := by
    unfold halfAt
    split_ifs with hf hxy hxy
    all_goals simp [hxy]
  unfold subblockPixels
  simp only [List.mem_flatMap, List.mem_filterMap, List.mem_range, Option.ite_none_right_eq_some,
    Option.some.injEq]
  rw [← hmine]
  constructor
  · rintro ⟨x', hx', y', hy', h, hp⟩
    obtain ⟨rfl, rfl⟩ : x' = x ∧ y' = y := by omega
    exact h
  · intro h
    exact ⟨x, hx, y, hy, h, rfl⟩

/-- The halves make up the block. -/
lemma mem_first_iff (flip : ℕ) {p : ℕ} (hp : p < 16) :
    p ∈ subblockPixels flip 0 ↔ p ∉ subblockPixels flip 1 := by
  have h0 := mem_subblockPixels flip 0 (show p / 4 < 4 by omega) (show p % 4 < 4 by omega)
  have h1 := mem_subblockPixels flip 1 (show p / 4 < 4 by omega) (show p % 4 < 4 by omega)
  rw [show p / 4 * 4 + p % 4 = p by omega] at h0 h1
  rw [h0, h1]
  simp

lemma indexBits_map (flip half : ℕ) (index : ℕ → ℕ) :
    indexBits flip half ((subblockPixels flip half).map index)
      = (subblockPixels flip half).foldl (fun w p => w ||| indexField p (index p)) 0 := by
  have hzip (l : List ℕ) : List.zip l (l.map index) = l.map fun p => (p, index p) := by
    rw [← List.zip_map', List.map_id']
  unfold indexBits indexField
  rw [hzip, List.foldl_map]
  simp only [UInt64.or_assoc]

/-- A position sees the bits of the one pixel that writes there. -/
lemma bitsOf_indexBits (flip half : ℕ) (index : ℕ → ℕ) {n s q v : ℕ} (hn : n < 64) (hs : s < 64)
    (hself : bitsOf (indexField q (index q)) n s = v)
    (hother : ∀ p < 16, p ≠ q → bitsOf (indexField p (index p)) n s = 0) :
    bitsOf (indexBits flip half ((subblockPixels flip half).map index)) n s
      = if q ∈ subblockPixels flip half then v else 0 := by
  rw [indexBits_map, bitsOf_foldl _ _ hn hs,
    List.foldl_ext _ (fun w p => w ||| if p = q then v else 0) _ fun w p hp => ?_, foldl_or_ite,
    Nat.zero_or]
  by_cases hpq : p = q
  · rw [if_pos hpq, hpq, hself]
  · rw [if_neg hpq, hother p (subblockPixels_lt hp) hpq]

lemma bitsOf_indexField (p i : ℕ) {n s : ℕ} (hn : n < 64) (hs : s < 64) :
    bitsOf (indexField p i) n s
      = bitsOf (field (i >>> 1 : ℕ) 1 (16 + p)) n s ||| bitsOf (field i 1 p) n s :=
  bitsOf_or _ _ hn hs

/-- Indices are written in the low half of the word. -/
lemma bitsOf_indexBits_high (flip half : ℕ) (index : ℕ → ℕ) {n s : ℕ} (hn : n < 64) (hs : s < 64)
    (h : 32 ≤ s) : bitsOf (indexBits flip half ((subblockPixels flip half).map index)) n s = 0 := by
  have hall (p : ℕ) (hp : p < 16) : bitsOf (indexField p (index p)) n s = 0 := by
    rw [bitsOf_indexField _ _ hn hs,
      bitsOf_field_other _ hn hs (by omega) (by omega) (.inr (by omega)),
      bitsOf_field_other _ hn hs (by omega) (by omega) (.inr (by omega)), Nat.zero_or]
  rw [bitsOf_indexBits flip half index hn hs (hall 0 (by decide)) fun p hp _ => hall p hp, ite_self]

lemma bitsOf_indexBits_lsb (flip half : ℕ) (index : ℕ → ℕ) {q : ℕ} (hq : q < 16) :
    bitsOf (indexBits flip half ((subblockPixels flip half).map index)) 1 q
      = if q ∈ subblockPixels flip half then index q % 2 else 0 := by
  have hq' : q < 64 := by omega
  refine bitsOf_indexBits flip half index (by decide) hq' ?_ fun p hp hpq => ?_
  · rw [bitsOf_indexField _ _ (by decide) hq',
      bitsOf_field_other _ (by decide) hq' (by omega) (by omega) (.inl (by omega)),
      bitsOf_field_self _ (by decide) (by omega) hq', Nat.zero_or]
    norm_cast
  · rw [bitsOf_indexField _ _ (by decide) hq',
      bitsOf_field_other _ (by decide) hq' (by omega) (by omega) (.inl (by omega)),
      bitsOf_field_other _ (by decide) hq' (by omega) (by omega) (by omega), Nat.zero_or]

lemma bitsOf_indexBits_msb (flip half : ℕ) (index : ℕ → ℕ) {q : ℕ} (hq : q < 16) :
    bitsOf (indexBits flip half ((subblockPixels flip half).map index)) 1 (16 + q)
      = if q ∈ subblockPixels flip half then index q >>> 1 % 2 else 0 := by
  have hq' : 16 + q < 64 := by omega
  refine bitsOf_indexBits flip half index (by decide) hq' ?_ fun p hp hpq => ?_
  · rw [bitsOf_indexField _ _ (by decide) hq',
      bitsOf_field_self _ (by decide) (by omega) hq',
      bitsOf_field_other _ (by decide) hq' (by omega) (by omega) (.inr (by omega)), Nat.or_zero]
    norm_cast
  · rw [bitsOf_indexField _ _ (by decide) hq',
      bitsOf_field_other _ (by decide) hq' (by omega) (by omega) (by omega),
      bitsOf_field_other _ (by decide) hq' (by omega) (by omega) (by omega), Nat.or_zero]

/-! ### A candidate as a number -/

def colourBits (c : Candidate) : UInt64 :=
  if c.differential then
    field c.q0.r 5 59 ||| field c.q1.r 3 56 ||| field c.q0.g 5 51 ||| field c.q1.g 3 48 |||
      field c.q0.b 5 43 ||| field c.q1.b 3 40 ||| field 1 1 33
  else
    field c.q0.r 4 60 ||| field c.q1.r 4 56 ||| field c.q0.g 4 52 ||| field c.q1.g 4 48 |||
      field c.q0.b 4 44 ||| field c.q1.b 4 40

/-- The number a block is cut from. -/
def blockWord (c : Candidate) : UInt64 :=
  colourBits c ||| field c.table.1 3 37 ||| field c.table.2 3 34 ||| field c.flip 1 32 |||
    indexBits c.flip 0 c.indices.1 ||| indexBits c.flip 1 c.indices.2

/-- **What is written is read back.** -/
lemma blockBits_writeBlock (c : Candidate) {src : ℕ → UInt8}
    (hsrc : ∀ i < 8, src i = (writeBlock c).getD i 0) : blockBits src = blockWord c := by
  have hbytes : writeBlock c = (List.range 8).map fun i =>
      (blockWord c >>> UInt64.ofNat (56 - i * 8) &&& 0xFF).toUInt8 := rfl
  refine blockBits_bytes _ fun i hi => ?_
  rw [hsrc i hi, hbytes, List.getD_eq_getElem _ _ (by simpa using hi), List.getElem_map,
    List.getElem_range]

def Rgb.All (P : ℤ → Prop) (c : Rgb) : Prop := P c.r ∧ P c.g ∧ P c.b

/-- The base colours a candidate is fitted with. -/
def Candidate.base (c : Candidate) : Rgb × Rgb :=
  if c.differential then
    (Rgb.map expand5 c.q0, Rgb.map expand5 (Rgb.map₂ (· + ·) c.q0 c.q1))
  else (Rgb.map expand4 c.q0, Rgb.map expand4 c.q1)

/-- The colours fit the bits they are written in, and so does the second colour a differential
candidate has in mind. -/
structure Candidate.InRange (c : Candidate) : Prop where
  individual : c.differential = false →
    Rgb.All (fun q => 0 ≤ q ∧ q < 2 ^ 4) c.q0 ∧ Rgb.All (fun q => 0 ≤ q ∧ q < 2 ^ 4) c.q1
  differential : c.differential = true → Rgb.All (fun q => 0 ≤ q ∧ q < 2 ^ 5) c.q0 ∧
    Rgb.All (fun d => -4 ≤ d ∧ d < 4) c.q1 ∧
    Rgb.All (fun q => 0 ≤ q ∧ q < 2 ^ 5) (Rgb.map₂ (· + ·) c.q0 c.q1)

/-- All that a candidate holds fits the bits it is written in. -/
structure Candidate.Fits (c : Candidate) (index : ℕ → ℕ) : Prop where
  range : c.InRange
  flip : c.flip < 2
  table : c.table.1 < 8 ∧ c.table.2 < 8
  index_lt : ∀ p, index p < 4
  indices : c.indices
    = ((subblockPixels c.flip 0).map index, (subblockPixels c.flip 1).map index)

section Word

variable {c : Candidate} {index : ℕ → ℕ}

/-- Above the indices. -/
lemma Candidate.Fits.bitsOf_high (h : c.Fits index) {n s : ℕ} (hn : n < 64) (hs : s < 64)
    (h32 : 32 ≤ s) : bitsOf (blockWord c) n s
      = bitsOf (colourBits c) n s ||| bitsOf (field c.table.1 3 37) n s |||
        bitsOf (field c.table.2 3 34) n s ||| bitsOf (field c.flip 1 32) n s := by
  unfold blockWord
  rw [h.indices]
  simp only [bitsOf_or _ _ hn hs, bitsOf_indexBits_high _ _ _ hn hs h32, Nat.or_zero]

/-- Beside the colours. -/
lemma bitsOf_colourBits (c : Candidate) {n s : ℕ} (hn : n < 64) (h : s + n ≤ 40)
    (h33 : s + n ≤ 33 ∨ 34 ≤ s) : bitsOf (colourBits c) n s = 0 := by
  have hs : s < 64 := by omega
  have hother (v : ℤ) (b t : ℕ) (hb : b + t ≤ 64) (ht : 40 ≤ t ∧ t < 64) :
      bitsOf (field v b t) n s = 0 := bitsOf_field_other v hn hs hb ht.2 (.inl (by omega))
  have hmode : bitsOf (field 1 1 33) n s = 0 :=
    bitsOf_field_other 1 hn hs (by decide) (by decide) (by omega)
  unfold colourBits
  split_ifs
  · simp (disch := first | assumption | decide) only [bitsOf_or, hother, hmode, Nat.or_zero]
  · simp (disch := first | assumption | decide) only [bitsOf_or, hother, Nat.or_zero]

/-- Below the colours. -/
lemma Candidate.Fits.bitsOf_low (h : c.Fits index) {s : ℕ} (h32 : s < 32) :
    bitsOf (blockWord c) 1 s
      = bitsOf (indexBits c.flip 0 ((subblockPixels c.flip 0).map index)) 1 s |||
        bitsOf (indexBits c.flip 1 ((subblockPixels c.flip 1).map index)) 1 s := by
  have hn : 1 < 64 := by decide
  have hs : s < 64 := by omega
  have hother (v : ℤ) (b t : ℕ) (hb : b + t ≤ 64) (ht : 32 ≤ t ∧ t < 64) :
      bitsOf (field v b t) 1 s = 0 := bitsOf_field_other v hn hs hb ht.2 (.inl (by omega))
  unfold blockWord
  rw [h.indices]
  simp (disch := first | assumption | decide) only [bitsOf_or, hother,
    bitsOf_colourBits c hn (show s + 1 ≤ 40 by omega) (.inl (by omega)), Nat.zero_or]

lemma Candidate.Fits.flip_eq (h : c.Fits index) : bitsOf (blockWord c) 1 32 = c.flip := by
  have hf := h.flip
  rw [h.bitsOf_high (by decide) (by decide) (by decide)]
  simp (disch := decide) only [bitsOf_colourBits, bitsOf_field_other, bitsOf_field_self,
    Nat.zero_or]
  omega

lemma Candidate.Fits.table_eq (h : c.Fits index) :
    (bitsOf (blockWord c) 3 37, bitsOf (blockWord c) 3 34) = c.table := by
  obtain ⟨h0, h1⟩ := h.table
  rw [h.bitsOf_high (by decide) (by decide) (by decide),
    h.bitsOf_high (by decide) (by decide) (by decide)]
  simp (disch := decide) only [bitsOf_colourBits, bitsOf_field_other, bitsOf_field_self,
    Nat.zero_or, Nat.or_zero]
  exact Prod.ext (by dsimp only; omega) (by dsimp only; omega)

/-- A value of so many bits is not cut. -/
lemma emod_eq {v : ℤ} {n : ℕ} (h : 0 ≤ v ∧ v < 2 ^ n) : (((v % 2 ^ n).toNat : ℕ) : ℤ) = v := by
  rw [Int.emod_eq_of_lt h.1 h.2, Int.toNat_of_nonneg h.1]

/-- A step of three bits is not cut either. -/
lemma sign3_emod {d : ℤ} (h : -4 ≤ d ∧ d < 4) : sign3 ((d % 2 ^ 3).toNat : ℕ) = d := by
  unfold sign3
  split_ifs <;> omega

lemma clamp_eq {v : ℤ} (h : 0 ≤ v ∧ v < 2 ^ 5) : clamp v 0 31 = v := by
  unfold clamp
  omega

/-- What is above the tables is the colours alone. -/
lemma Candidate.Fits.bitsOf_colour (h : c.Fits index) {n s : ℕ} (hn : n < 64) (hs : s < 64)
    (h40 : s = 33 ∧ n = 1 ∨ 40 ≤ s) : bitsOf (blockWord c) n s = bitsOf (colourBits c) n s := by
  rw [h.bitsOf_high hn hs (by omega),
    bitsOf_field_other _ hn hs (by decide) (by decide) (by omega),
    bitsOf_field_other _ hn hs (by decide) (by decide) (by omega),
    bitsOf_field_other _ hn hs (by decide) (by decide) (by omega)]
  simp only [Nat.or_zero]

lemma Candidate.Fits.differential_eq (h : c.Fits index) :
    bitsOf (blockWord c) 1 33 = if c.differential then 1 else 0 := by
  rw [h.bitsOf_colour (by decide) (by decide) (.inl (by decide))]
  unfold colourBits
  split_ifs
  · simp (disch := decide) only [bitsOf_or, bitsOf_field_other, bitsOf_field_self, Nat.zero_or]
    rfl
  · simp (disch := decide) only [bitsOf_or, bitsOf_field_other, Nat.zero_or]

/-- The colour and the step of a differential candidate. -/
lemma Candidate.Fits.colour_eq (h : c.Fits index) (hd : c.differential = true) :
    (⟨bitsOf (blockWord c) 5 59, bitsOf (blockWord c) 5 51, bitsOf (blockWord c) 5 43⟩ : Rgb)
        = c.q0 ∧
      (⟨sign3 (bitsOf (blockWord c) 3 56), sign3 (bitsOf (blockWord c) 3 48),
        sign3 (bitsOf (blockWord c) 3 40)⟩ : Rgb) = c.q1 := by
  obtain ⟨⟨hr, hg, hb⟩, ⟨hr', hg', hb'⟩, -⟩ := h.range.differential hd
  simp (disch := decide) only [h.bitsOf_colour, colourBits, hd, if_true, bitsOf_or,
    bitsOf_field_other, bitsOf_field_self, Nat.zero_or, Nat.or_zero, emod_eq hr, emod_eq hg,
    emod_eq hb, sign3_emod hr', sign3_emod hg', sign3_emod hb', and_self]

lemma Candidate.Fits.base_eq (h : c.Fits index) : decodeBase (blockWord c) = c.base := by
  unfold decodeBase Candidate.base
  rw [h.differential_eq]
  cases hd : c.differential with
  | false =>
    obtain ⟨⟨hr, hg, hb⟩, hr', hg', hb'⟩ := h.range.individual hd
    simp (disch := decide) only [h.bitsOf_colour, colourBits, hd, Bool.false_eq_true, if_false,
      ne_eq, not_true_eq_false, bitsOf_or, bitsOf_field_other, bitsOf_field_self, Nat.zero_or,
      Nat.or_zero, emod_eq hr, emod_eq hg, emod_eq hb, emod_eq hr', emod_eq hg', emod_eq hb',
      Rgb.map]
  | true =>
    obtain ⟨-, -, hr, hg, hb⟩ := h.range.differential hd
    obtain ⟨hq0, hq1⟩ := h.colour_eq hd
    rw [← hq0, ← hq1] at hr hg hb ⊢
    dsimp only [Rgb.map₂] at hr hg hb
    simp only [if_true, ne_eq, one_ne_zero, not_false_eq_true, clamp_eq hr, clamp_eq hg,
      clamp_eq hb, Rgb.map, Rgb.map₂]

/-- The index of a pixel, whichever half it is in. -/
lemma Candidate.Fits.index_eq (h : c.Fits index) {p : ℕ} (hp : p < 16) :
    bitsOf (blockWord c) 1 (16 + p) <<< 1 ||| bitsOf (blockWord c) 1 p = index p := by
  have hone (v : ℕ) : (if p ∈ subblockPixels c.flip 0 then v else 0) |||
      (if p ∈ subblockPixels c.flip 1 then v else 0) = v := by
    by_cases hmem : p ∈ subblockPixels c.flip 1
    · rw [if_neg fun h0 => (mem_first_iff c.flip hp).mp h0 hmem, if_pos hmem, Nat.zero_or]
    · rw [if_pos ((mem_first_iff c.flip hp).mpr hmem), if_neg hmem, Nat.or_zero]
  rw [h.bitsOf_low (by omega), h.bitsOf_low (by omega), bitsOf_indexBits_lsb _ _ _ hp,
    bitsOf_indexBits_lsb _ _ _ hp, bitsOf_indexBits_msb _ _ _ hp, bitsOf_indexBits_msb _ _ _ hp,
    hone, hone]
  have hlt := h.index_lt p
  interval_cases index p <;> rfl

/-- **The decoder paints with what the encoder has fitted.** -/
theorem Candidate.Fits.decodePixel_eq (h : c.Fits index) {x y : ℕ} (hx : x < 4) (hy : y < 4) :
    decodePixel (blockWord c) x y
      = shade (ofHalf (halfAt c.flip x y) c.base)
          (modifier (ofHalf (halfAt c.flip x y) c.table) (index (x * 4 + y))) := by
  unfold decodePixel
  dsimp only
  rw [h.flip_eq, h.base_eq, h.table_eq, h.index_eq (by omega)]

end Word

end Digitiz.Etc2
