import Mathlib.Tactic.IntervalCases
import Digitiz.Etc2Compute

/-!
The shader writes a block as the processor does.

The two are written apart and differ in three ways. A table that has become no better than one
already found is given up on one side and gone through on the other; the sums of a half are run
up channel by channel or all at once; and the sixty-four bits of a block are one number or two
words. None of them shows in the eight bytes that come out.
-/

namespace Digitiz.Etc2Compute

open Etc2 Rescale

/-! ### Choosing a candidate -/

lemma clamp255_eq (v : ℤ) : clamp255 v = Etc2.clamp255 v := by
  unfold clamp255 Etc2.clamp255 clamp
  split_ifs <;> omega

lemma fitPixel_eq (base : Rgb) (table : ℕ) (p : Rgb) :
    fitPixel base table p = bestIndex base table p := by
  simp only [fitPixel, bestIndex, clamp255_eq]
  rfl

/-- One table over all the pixels of a half. -/
def fitAll (base : Rgb) (table : ℕ) (px : List Rgb) (error : ℤ) (indices : List ℕ) :
    ℤ × List ℕ :=
  px.foldl (fun (error, indices) p =>
    let (e, i) := fitPixel base table p
    (error + e, indices ++ [i])) (error, indices)

lemma le_fitAll (base : Rgb) (table : ℕ) (px : List Rgb) (error : ℤ) (indices : List ℕ) :
    error ≤ (fitAll base table px error indices).1 := by
  induction px generalizing error indices with
  | nil => exact le_rfl
  | cons p px ih =>
    have hp := bestIndex_nonneg base table p
    rw [← fitPixel_eq] at hp
    exact (le_add_of_nonneg_right hp).trans (ih _ _)

lemma fitTable_eq (base : Rgb) (table : ℕ) (bestError : ℤ) (px : List Rgb) (error : ℤ)
    (indices : List ℕ) :
    fitTable base table bestError px error indices = fitAll base table px error indices ∨
      0 ≤ bestError ∧ bestError ≤ (fitTable base table bestError px error indices).1 ∧
        bestError ≤ (fitAll base table px error indices).1 := by
  induction px generalizing error indices with
  | nil => exact .inl rfl
  | cons p px ih =>
    have hall : fitAll base table (p :: px) error indices
        = fitAll base table px (error + (bestIndex base table p).1)
          (indices ++ [(bestIndex base table p).2]) := by
      rw [← fitPixel_eq]
      rfl
    rw [hall, fitTable]
    dsimp only
    split_ifs with hb
    · exact .inr ⟨hb.1, hb.2, hb.2.trans (le_fitAll _ _ _ _ _)⟩
    · exact ih _ _

/-- One more table, gone through to its end. -/
def tryTable (px : List Rgb) (base : Rgb) (best : Fit) (table : ℕ) : Fit :=
  let (error, indices) := fitAll base table px 0 []
  if best.error < 0 ∨ error < best.error then ⟨error, table, indices⟩ else best

/-- **Giving up early changes nothing.** A table is only given up once it is no better than one
already found, and then the errors still to come cannot make it so. -/
lemma tryTable_early (px : List Rgb) (base : Rgb) (best : Fit) (table : ℕ) :
    (if best.error < 0 ∨ (fitTable base table best.error px 0 []).1 < best.error then
        ⟨(fitTable base table best.error px 0 []).1, table,
          (fitTable base table best.error px 0 []).2⟩
      else best) = tryTable px base best table := by
  unfold tryTable
  obtain heq | ⟨h0, h1, h2⟩ := fitTable_eq base table best.error px 0 []
  · rw [heq]
  · dsimp only
    rw [if_neg (by omega), if_neg (by omega)]

lemma fit_eq (px : List Rgb) (base : Rgb) : fit px base = fitSubblock px base := by
  have hnone (best : Fit) (h : best.error < 0) :
      tryTable px base best 0 = tryTable px base {} 0 := by
    unfold tryTable
    dsimp only
    rw [if_pos (.inl h), if_pos (.inl (by decide))]
  -- with no error yet the first table is taken, whatever the indices were
  calc fit px base = (List.range 8).foldl (tryTable px base) ⟨-1, 0, List.replicate 8 0⟩ := rfl
    _ = (List.range 8).foldl (tryTable px base) {} := by
      rw [List.range_succ_eq_map, List.foldl_cons, List.foldl_cons, hnone _ (by decide)]
    _ = fitSubblock px base :=
      List.foldl_ext _ _ _ fun best table _ => (tryTable_early px base best table).symm

lemma foldl_sum (px : List Rgb) (acc : Rgb) :
    px.foldl (Rgb.map₂ (· + ·)) acc
      = ⟨acc.r + (px.map Rgb.r).sum, acc.g + (px.map Rgb.g).sum, acc.b + (px.map Rgb.b).sum⟩ := by
  induction px generalizing acc with
  | nil => simp
  | cons p px ih => simp [ih, Rgb.map₂, add_assoc]

lemma half_eq (px : ℕ → Rgb) (flip which : ℕ) : half px flip which = halfOf px flip which := by
  simp only [half, foldl_sum, zero_add]
  rfl

lemma tryIndividual_eq (flip : ℕ) (h0 h1 : List Rgb × Rgb) (best : Candidate) :
    tryIndividual flip h0 h1 best = better best (individual flip h0 h1) := by
  simp only [tryIndividual, fit_eq]
  rfl

lemma tryDifferential_eq (flip : ℕ) (h0 h1 : List Rgb × Rgb) (best : Candidate) :
    tryDifferential flip h0 h1 best = better best (differential flip h0 h1) := by
  simp only [tryDifferential, fit_eq]
  rfl

lemma better_of_neg {best : Candidate} (h : best.error < 0) (c : Candidate) : better best c = c :=
  if_pos (.inl h)

/-- **The same candidate is chosen.** -/
lemma writeBlock_choose (px : ℕ → Rgb) : writeBlock (choose px) = encodeBlock px := by
  simp only [choose, encodeBlock, half_eq, tryIndividual_eq, tryDifferential_eq]
  rw [List.range_succ_eq_map, List.foldl_cons, List.foldl_cons,
    better_of_neg (show Candidate.error { indices := (List.replicate 8 0, _) } < 0 by decide),
    better_of_neg (show Candidate.error {} < 0 by decide)]

/-! ### One number or two words -/

/-- Two words, the first above the second. -/
def join (hi lo : UInt32) : UInt64 := hi.toUInt64 <<< 32 ||| lo.toUInt64

lemma join_or (a b c d : UInt32) : join a c ||| join b d = join (a ||| b) (c ||| d) := by
  rw [join, join, join, UInt32.toUInt64_or, UInt32.toUInt64_or, UInt64.shiftLeft_or]
  generalize a.toUInt64 <<< 32 = a'
  generalize b.toUInt64 <<< 32 = b'
  rw [UInt64.or_assoc, UInt64.or_assoc, ← UInt64.or_assoc _ b', UInt64.or_comm _ b',
    UInt64.or_assoc b']

lemma toNat_join (hi lo : UInt32) : (join hi lo).toNat = hi.toNat <<< 32 ||| lo.toNat := by
  have h : hi.toNat <<< 32 < 2 ^ 64 := by
    have h := hi.toNat_lt
    rw [Nat.shiftLeft_eq]
    omega
  rw [join, UInt64.toNat_or, UInt64.toNat_shiftLeft, UInt32.toNat_toUInt64, UInt32.toNat_toUInt64]
  exact congrArg (· ||| lo.toNat) (Nat.mod_eq_of_lt h)

lemma toNat_mask {v : ℤ} {mask : UInt32} {b : ℕ} (hb : b ≤ 32) (hm : mask.toNat = 2 ^ b - 1) :
    (UInt32.ofInt v &&& mask).toNat = (v % 2 ^ b).toNat := by
  have hpos : (0 : ℤ) ≤ v % 2 ^ 32 := Int.emod_nonneg v (by norm_num)
  have hlt : (v % 2 ^ 32).toNat < 2 ^ 32 := by
    have := Int.emod_lt_of_pos v (show (0 : ℤ) < 2 ^ 32 by norm_num)
    omega
  rw [UInt32.toNat_and, hm, Nat.and_two_pow_sub_one_eq_mod, UInt32.ofInt,
    UInt32.toNat_ofNat_of_lt' hlt, ← Int.emod_emod_of_dvd v (pow_dvd_pow 2 hb),
    Int.toNat_emod hpos (by positivity)]
  norm_cast

lemma toNat_bits (v : ℤ) {mask : UInt32} {b s : ℕ} (hm : mask.toNat = 2 ^ b - 1) (hb : b + s ≤ 32)
    (hs : s < 32) : (bits v mask s).toNat = (v % 2 ^ b).toNat <<< s := by
  have hs' : s < 2 ^ 32 := by omega
  rw [bits, UInt32.toNat_shiftLeft, toNat_mask (by omega) hm, UInt32.toNat_ofNat_of_lt' hs',
    Nat.mod_eq_of_lt hs, Nat.mod_eq_of_lt (emod_shift_lt v hb)]

/-- A field of the upper word. -/
lemma field_high (v : ℤ) {mask : UInt32} {b s : ℕ} (hm : mask.toNat = 2 ^ b - 1)
    (hb : b + s ≤ 32) (hs : s < 32) : field v b (s + 32) = join (bits v mask s) 0 := by
  apply UInt64.toNat_inj.mp
  rw [toNat_field v (by omega) (by omega), toNat_join, toNat_bits v hm hb hs, ← Nat.shiftLeft_add]
  exact (Nat.or_zero _).symm

/-- A field of the lower word. -/
lemma field_low (v : ℤ) {mask : UInt32} {b s : ℕ} (hm : mask.toNat = 2 ^ b - 1)
    (hb : b + s ≤ 32) (hs : s < 32) : field v b s = join 0 (bits v mask s) := by
  apply UInt64.toNat_inj.mp
  rw [toNat_field v (by omega) (by omega), toNat_join, toNat_bits v hm hb hs]
  simp

lemma join_or_zero (a b : UInt32) : join (a ||| b) 0 = join a 0 ||| join b 0 :=
  (join_or a b 0 0).symm

lemma zero_join_or (a b : UInt32) : join 0 (a ||| b) = join 0 a ||| join 0 b :=
  (join_or 0 0 a b).symm

/-- The upper word of a block. -/
lemma join_high (c : Candidate) :
    join (high c) 0 = (if c.differential then
      field c.q0.r 5 59 ||| field c.q1.r 3 56 ||| field c.q0.g 5 51 ||| field c.q1.g 3 48 |||
        field c.q0.b 5 43 ||| field c.q1.b 3 40 ||| field 1 1 33
    else
      field c.q0.r 4 60 ||| field c.q1.r 4 56 ||| field c.q0.g 4 52 ||| field c.q1.g 4 48 |||
        field c.q0.b 4 44 ||| field c.q1.b 4 40) |||
      field c.table.1 3 37 ||| field c.table.2 3 34 ||| field c.flip 1 32 := by
  have h5 (v : ℤ) (s : ℕ) (hs : s ≤ 27) : join (bits v 0x1F s) 0 = field v 5 (s + 32) :=
    (field_high v rfl (by omega) (by omega)).symm
  have h4 (v : ℤ) (s : ℕ) (hs : s ≤ 28) : join (bits v 0x0F s) 0 = field v 4 (s + 32) :=
    (field_high v rfl (by omega) (by omega)).symm
  have h3 (v : ℤ) (s : ℕ) (hs : s ≤ 29) : join (bits v 0x07 s) 0 = field v 3 (s + 32) :=
    (field_high v rfl (by omega) (by omega)).symm
  have h1 (v : ℤ) (s : ℕ) (hs : s ≤ 31) : join (bits v 1 s) 0 = field v 1 (s + 32) :=
    (field_high v rfl (by omega) (by omega)).symm
  unfold high
  dsimp only
  split_ifs
  · simp (disch := decide) only [join_or_zero, h5, h3, h1, Nat.reduceAdd]
    rfl
  · simp (disch := decide) only [join_or_zero, h4, h3, h1, Nat.reduceAdd]

lemma foldl_or_or (l : List ℕ) (f g : ℕ → UInt64) (a b : UInt64) :
    l.foldl (fun bits w => bits ||| (f w ||| g w)) (a ||| b)
      = l.foldl (fun bits w => bits ||| f w) a ||| l.foldl (fun bits w => bits ||| g w) b := by
  induction l generalizing a b with
  | nil => rfl
  | cons w l ih =>
    rw [List.foldl_cons, List.foldl_cons, List.foldl_cons, ← ih]
    generalize f w = x
    generalize g w = y
    congr 1
    ac_rfl

/-- An index that is missing counts as zero, which leaves no bits. -/
lemma foldl_zip (pix idx : List ℕ) (acc : UInt64) :
    (List.zip pix idx).foldl (fun bits p =>
        bits ||| field (p.2 >>> 1 : ℕ) 1 (16 + p.1) ||| field p.2 1 p.1) acc
      = (List.range pix.length).foldl (fun bits w =>
        bits ||| indexField (pix.getD w 0) (idx.getD w 0)) acc := by
  induction pix generalizing idx acc with
  | nil => rfl
  | cons p pix ih =>
    rw [List.length_cons, List.range_succ_eq_map, List.foldl_cons, List.foldl_map]
    cases idx with
    | nil =>
      have h0 (s : ℕ) : field 0 1 s = 0 := by simp [field]
      simp only [indexField, List.getD_nil, Nat.zero_shiftRight, Nat.cast_zero, h0, UInt64.or_zero]
      exact (List.foldl_fixed' (fun _ => rfl) _).symm
    | cons i idx =>
      rw [List.zip_cons_cons, List.foldl_cons, ih]
      simp only [List.getD_cons_succ, List.getD_cons_zero, indexField, UInt64.or_assoc]

lemma length_subblock (flip half : ℕ) : (subblock flip half).length = 8 := by
  by_cases hf : flip = 0 <;> by_cases hh : half = 1 <;> simp [subblock, hf, hh, List.range_succ]

lemma subblock_lt (flip half : ℕ) {p : ℕ} (hp : p ∈ subblock flip half) : p < 16 :=
  subblockPixels_lt hp

lemma getD_subblock_lt (flip half w : ℕ) : (subblock flip half).getD w 0 < 16 := by
  by_cases hw : w < (subblock flip half).length
  · rw [List.getD_eq_getElem _ _ hw]
    exact subblock_lt flip half (List.getElem_mem hw)
  · rw [List.getD_eq_default _ _ (by omega)]
    omega

lemma indexBits_eq (flip half : ℕ) (indices : List ℕ) :
    indexBits flip half indices = (List.range 8).foldl (fun bits w =>
      bits ||| indexField ((subblock flip half).getD w 0) (indices.getD w 0)) 0 := by
  rw [← length_subblock flip half]
  exact foldl_zip _ _ _

/-- The lower word of a block. -/
lemma join_low (c : Candidate) :
    join 0 (low c) = indexBits c.flip 0 c.indices.1 ||| indexBits c.flip 1 c.indices.2 := by
  have h1 (v : ℤ) (s : ℕ) (hs : s < 32) : join 0 (bits v 1 s) = field v 1 s :=
    (field_low v rfl (by omega) (by omega)).symm
  rw [indexBits_eq, indexBits_eq, ← foldl_or_or]
  refine (List.foldl_hom (join 0) fun lo w => ?_).symm
  have h0 := getD_subblock_lt c.flip 0 w
  have h1' := getD_subblock_lt c.flip 1 w
  simp only [zero_join_or]
  rw [h1 _ _ (by omega), h1 _ _ (by omega), h1 _ _ (by omega), h1 _ _ (by omega)]
  simp only [indexField, UInt64.or_assoc]

lemma writeBlock_eq (c : Candidate) :
    writeBlock c = (List.range 8).map fun i =>
      (join (high c) (low c) >>> UInt64.ofNat (56 - i * 8) &&& 0xFF).toUInt8 := by
  have h : join (high c) (low c) = join (high c) 0 ||| join 0 (low c) := by
    rw [join_or, UInt32.or_zero, UInt32.zero_or]
  rw [h, join_high, join_low]
  unfold writeBlock
  simp only [UInt64.or_assoc]

/-- Swapped and stored from the low end on, a word has its high byte first. -/
lemma wordBytes_bswap (v : UInt32) :
    wordBytes (bswap v) = [24, 16, 8, 0].map fun k => (v >>> UInt32.ofNat k).toUInt8 := by
  simp only [wordBytes, bswap, List.map_cons, List.map_nil, List.cons.injEq, and_true]
  refine ⟨?_, ?_, ?_, ?_⟩ <;> apply UInt8.toBitVec_inj.mp <;> ext i hi <;>
    simp <;> interval_cases i <;> simp

/-- A byte of the upper word. -/
lemma byte_high (hi lo : UInt32) {k : ℕ} (hk : k < 32) :
    (join hi lo >>> UInt64.ofNat (32 + k) &&& 0xFF).toUInt8 = (hi >>> UInt32.ofNat k).toUInt8 := by
  have hk' : k < 2 ^ 32 := by omega
  have hup : (hi.toNat <<< 32 ||| lo.toNat) >>> 32 = hi.toNat := by
    rw [← Nat.shiftLeft_add_eq_or_of_lt lo.toNat_lt, Nat.shiftLeft_eq, Nat.shiftRight_eq_div_pow]
    have := lo.toNat_lt
    omega
  apply UInt8.toNat_inj.mp
  rw [toNat_byte64, toNat_shiftRight64 _ (by omega), toNat_join, Nat.shiftRight_add, hup,
    UInt32.toNat_toUInt8, UInt32.toNat_shiftRight, UInt32.toNat_ofNat_of_lt' hk',
    Nat.mod_eq_of_lt hk]

/-- A byte of the lower word. -/
lemma byte_low (hi lo : UInt32) {k : ℕ} (hk : k ≤ 24) :
    (join hi lo >>> UInt64.ofNat k &&& 0xFF).toUInt8 = (lo >>> UInt32.ofNat k).toUInt8 := by
  have hk' : k < 2 ^ 32 := by omega
  have hpow : 2 ^ 32 = 2 ^ k * (2 ^ (24 - k) * 256) := by
    rw [← mul_assoc, ← pow_add, Nat.add_sub_cancel' hk]
    rfl
  have hdown : (hi.toNat <<< 32 ||| lo.toNat) >>> k % 256 = lo.toNat >>> k % 256 := by
    rw [← Nat.shiftLeft_add_eq_or_of_lt lo.toNat_lt, Nat.shiftLeft_eq, Nat.shiftRight_eq_div_pow,
      Nat.shiftRight_eq_div_pow, hpow, mul_left_comm, Nat.mul_add_div (Nat.two_pow_pos k),
      ← mul_assoc, Nat.mul_add_mod_self_right]
  apply UInt8.toNat_inj.mp
  rw [toNat_byte64, toNat_shiftRight64 _ (by omega), toNat_join, hdown, UInt32.toNat_toUInt8,
    UInt32.toNat_shiftRight, UInt32.toNat_ofNat_of_lt' hk', Nat.mod_eq_of_lt (show k < 32 by omega)]

lemma bytes_join (hi lo : UInt32) :
    ((List.range 8).map fun i => (join hi lo >>> UInt64.ofNat (56 - i * 8) &&& 0xFF).toUInt8)
      = wordBytes (bswap hi) ++ wordBytes (bswap lo) := by
  rw [wordBytes_bswap, wordBytes_bswap]
  have hrange : (List.range 8).map (fun i => 56 - i * 8)
      = [24, 16, 8, 0].map (32 + ·) ++ [24, 16, 8, 0] := rfl
  rw [show (fun i => (join hi lo >>> UInt64.ofNat (56 - i * 8) &&& 0xFF).toUInt8)
    = (fun k => (join hi lo >>> UInt64.ofNat k &&& 0xFF).toUInt8) ∘ fun i => 56 - i * 8 from rfl,
    ← List.map_map, hrange, List.map_append, List.map_map]
  congr 1
  · refine List.map_congr_left fun k hk => byte_high hi lo ?_
    simp at hk
    omega
  · refine List.map_congr_left fun k hk => byte_low hi lo ?_
    simp at hk
    omega
/-- **A block comes out as the same eight bytes.** -/
theorem bytes_choose (px : ℕ → Rgb) :
    wordBytes (bswap (high (choose px))) ++ wordBytes (bswap (low (choose px)))
      = encodeBlock px := by
  rw [← bytes_join, ← writeBlock_eq, writeBlock_choose]

end Digitiz.Etc2Compute
