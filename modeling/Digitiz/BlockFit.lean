import Mathlib.Algebra.BigOperators.Fin
import Mathlib.Algebra.Order.BigOperators.Group.Finset
import Mathlib.Algebra.Order.BigOperators.Group.List
import Digitiz.BlockBits
import Digitiz.Cheapest
import Digitiz.SameBlock

/-!
What the encoder chooses is the best it could.

Three passes are nested, each keeping the cheapest it comes by: over the four indices of a pixel,
over the eight tables of a half, over the four candidates of a block. The error of a half is a sum
over its pixels and an index only counts for its own, so the best indices one by one are the best
together; and the error of a block is the sum of its halves. A table given up early is one that
would not have been kept.
-/

namespace Digitiz.Etc2

open Cheapest

/-! ### A pixel -/

/-- The squared distance of two colours. -/
def sqDist (c d : Rgb) : ℤ := (c.r - d.r) ^ 2 + (c.g - d.g) ^ 2 + (c.b - d.b) ^ 2

/-- What the encoder counts is how far off the decoder will be. -/
lemma pixelError_eq (base p : Rgb) (m : ℤ) : pixelError base p m = sqDist (shade base m) p := by
  simp only [pixelError, sqDist, shade, Rgb.map]
  ring

/-! ### A half -/

/-- The error of some pixels of a block under one base colour and one table. -/
def halfError (block : ℕ → Rgb) (base : Rgb) (table : ℕ) (index : ℕ → ℕ) (half : List ℕ) : ℤ :=
  (half.map fun p => pixelError base (block p) (modifier table (index p))).sum

/-- Every table gone through to its end: no error found so far is below zero. -/
def fitSubblockWhole (pixels : List Rgb) (base : Rgb) : Fit :=
  (List.range 8).foldl (fun best table =>
    let (error, indices) := fitTable base table (-1) pixels 0 []
    if best.error < 0 ∨ error < best.error then ⟨error, table, indices⟩ else best) {}

open Etc2Compute in
lemma fitTable_whole (base : Rgb) (table : ℕ) (px : List Rgb) (error : ℤ) (indices : List ℕ) :
    fitTable base table (-1) px error indices = fitAll base table px error indices :=
  (fitTable_eq base table (-1) px error indices).resolve_right fun h => absurd h.1 (by decide)

open Etc2Compute in
/-- **Giving a table up early changes nothing.** -/
lemma fitSubblock_eq_whole (px : List Rgb) (base : Rgb) :
    fitSubblock px base = fitSubblockWhole px base := by
  refine List.foldl_ext _ _ _ fun best table _ => ?_
  refine (tryTable_early px base best table).trans ?_
  rw [fitTable_whole]
  rfl

open Etc2Compute in
lemma fitAll_eq (base : Rgb) (table : ℕ) (px : List Rgb) (error : ℤ) (indices : List ℕ) :
    fitAll base table px error indices
      = (error + (px.map fun p => (bestIndex base table p).1).sum,
          indices ++ px.map fun p => (bestIndex base table p).2) := by
  induction px generalizing error indices with
  | nil => simp [fitAll]
  | cons p px ih =>
    have hstep : fitAll base table (p :: px) error indices
        = fitAll base table px (error + (bestIndex base table p).1)
          (indices ++ [(bestIndex base table p).2]) := by
      rw [← fitPixel_eq]
      rfl
    rw [hstep, ih, List.map_cons, List.map_cons, List.sum_cons, ← add_assoc, List.append_assoc,
      List.singleton_append]

/-- What one table can do for a half. -/
def tableFit (px : List Rgb) (base : Rgb) (table : ℕ) : Fit :=
  ⟨(px.map fun p => (bestIndex base table p).1).sum, table,
    px.map fun p => (bestIndex base table p).2⟩

/-- The table taken is the cheapest of the eight. -/
lemma kept_fitSubblock (px : List Rgb) (base : Rgb) :
    Kept Fit.error ((List.range 8).map (tableFit px base)) (fitSubblock px base) := by
  have hpass : fitSubblock px base
      = ((List.range 8).map (tableFit px base)).foldl (keep Fit.error) {} := by
    rw [fitSubblock_eq_whole, List.foldl_map]
    refine List.foldl_ext _ _ _ fun best table _ => ?_
    simp only [fitTable_whole, fitAll_eq, zero_add, List.nil_append]
    rfl
  rw [hpass]
  refine kept_foldl Fit.error {} _ (by decide) (by simp) fun f hf => ?_
  obtain ⟨table, -, rfl⟩ := List.mem_map.mp hf
  refine List.sum_nonneg fun e he => ?_
  obtain ⟨p, -, rfl⟩ := List.mem_map.mp he
  exact bestIndex_nonneg base table p

/-- A half is filled in as well as its base colour allows. -/
structure HalfFit (block : ℕ → Rgb) (base : Rgb) (half : List ℕ) (f : Fit) (index : ℕ → ℕ) :
    Prop where
  table : f.table < 8
  index_lt : ∀ p, index p < 4
  indices : f.indices = half.map index
  error : f.error = halfError block base f.table index half
  least : ∀ table < 8, ∀ index : ℕ → ℕ, (∀ p ∈ half, index p < 4) →
    f.error ≤ halfError block base table index half

lemma halfFit (block : ℕ → Rgb) (base : Rgb) (half : List ℕ) :
    HalfFit block base half (fitSubblock (half.map block) base)
      fun p => (bestIndex base (fitSubblock (half.map block) base).table (block p)).2 := by
  have hkept := kept_fitSubblock (half.map block) base
  obtain ⟨table, htable, hf⟩ := List.mem_map.mp hkept.mem
  rw [List.mem_range] at htable
  have hspec := bestIndex_spec base table
  rw [← hf]
  refine ⟨htable, fun p => (hspec (block p)).1, ?_, ?_, fun table' ht index hi => ?_⟩
  · simp only [tableFit, List.map_map]
    rfl
  · simp only [tableFit, List.map_map, halfError]
    exact congrArg List.sum (List.map_congr_left fun p _ => (hspec (block p)).2)
  · rw [hf]
    have hle := hkept.le _ (List.mem_map.mpr ⟨table', List.mem_range.mpr ht, rfl⟩)
    refine hle.trans ?_
    simp only [tableFit, List.map_map, halfError]
    exact List.sum_le_sum fun p hp => bestIndex_le base table' (block p) (hi p hp)

/-! ### A block -/

/-- The error of a block filled in from two base colours, two tables and an index a pixel. -/
def paintError (block : ℕ → Rgb) (flip : ℕ) (base : Rgb × Rgb) (table : ℕ × ℕ)
    (index : ℕ → ℕ) : ℤ :=
  ∑ p ∈ Finset.range 16, pixelError (ofHalf (halfAt flip (p / 4) (p % 4)) base) (block p)
    (modifier (ofHalf (halfAt flip (p / 4) (p % 4)) table) (index p))

lemma paintError_nonneg (block : ℕ → Rgb) (flip : ℕ) (base : Rgb × Rgb) (table : ℕ × ℕ)
    (index : ℕ → ℕ) : 0 ≤ paintError block flip base table index :=
  Finset.sum_nonneg fun _ _ => pixelError_nonneg _ _ _

lemma paintError_halves (block : ℕ → Rgb) (flip : ℕ) (base : Rgb × Rgb) (table : ℕ × ℕ)
    (index : ℕ → ℕ) : paintError block flip base table index
      = halfError block base.1 table.1 index (subblockPixels flip 0)
        + halfError block base.2 table.2 index (subblockPixels flip 1) := by
  by_cases hf : flip = 0
  · simp [paintError, halfError, subblockPixels, halfAt, ofHalf, hf, Finset.sum_range_succ,
      List.range_succ]
    ring
  · simp [paintError, halfError, subblockPixels, halfAt, ofHalf, hf, Finset.sum_range_succ,
      List.range_succ]
    ring

/-- A candidate that fits its bits, with the error it says it has and no better way to fill in
its halves. -/
structure Candidate.Fitted (block : ℕ → Rgb) (c : Candidate) (index : ℕ → ℕ) : Prop where
  fits : c.Fits index
  error : c.error = paintError block c.flip c.base c.table index
  least : ∀ table : ℕ × ℕ, table.1 < 8 → table.2 < 8 → ∀ index : ℕ → ℕ,
    (∀ p < 16, index p < 4) → c.error ≤ paintError block c.flip c.base table index

/-- What of a candidate is not its base colours comes from the fits of its halves. -/
structure Candidate.From (block : ℕ → Rgb) (c : Candidate) (f0 f1 : Fit) : Prop where
  range : c.InRange
  flip : c.flip < 2
  first : f0 = fitSubblock ((subblockPixels c.flip 0).map block) c.base.1
  second : f1 = fitSubblock ((subblockPixels c.flip 1).map block) c.base.2
  error : c.error = f0.error + f1.error
  table : c.table = (f0.table, f1.table)
  indices : c.indices = (f0.indices, f1.indices)

lemma Candidate.From.fitted {block : ℕ → Rgb} {c : Candidate} {f0 f1 : Fit}
    (h : c.From block f0 f1) : ∃ index, c.Fitted block index := by
  obtain ⟨i0, h0⟩ : ∃ i0, HalfFit block c.base.1 (subblockPixels c.flip 0) f0 i0 := by
    rw [h.first]
    exact ⟨_, halfFit block c.base.1 _⟩
  obtain ⟨i1, h1⟩ : ∃ i1, HalfFit block c.base.2 (subblockPixels c.flip 1) f1 i1 := by
    rw [h.second]
    exact ⟨_, halfFit block c.base.2 _⟩
  -- one index for every pixel of the block, from the half it is in
  obtain ⟨index, hindex⟩ : ∃ index : ℕ → ℕ,
      index = fun p => if p ∈ subblockPixels c.flip 1 then i1 p else i0 p := ⟨_, rfl⟩
  have hi0 (p : ℕ) (hp : p ∈ subblockPixels c.flip 0) : index p = i0 p := by
    rw [hindex]
    exact if_neg ((mem_first_iff c.flip (subblockPixels_lt hp)).mp hp)
  have hi1 (p : ℕ) (hp : p ∈ subblockPixels c.flip 1) : index p = i1 p := by
    rw [hindex]
    exact if_pos hp
  have hlt (p : ℕ) : index p < 4 := by
    rw [hindex]
    dsimp only
    split_ifs
    · exact h1.index_lt p
    · exact h0.index_lt p
  refine ⟨index, ⟨h.range, h.flip, ?_, hlt, ?_⟩, ?_, ?_⟩
  · rw [h.table]
    exact ⟨h0.table, h1.table⟩
  · rw [h.indices, h0.indices, h1.indices, List.map_congr_left hi0, List.map_congr_left hi1]
  · rw [paintError_halves, h.error, h.table, h0.error, h1.error]
    refine congrArg₂ (· + ·) ?_ ?_
    · exact congrArg List.sum (List.map_congr_left fun p hp => by rw [hi0 p hp])
    · exact congrArg List.sum (List.map_congr_left fun p hp => by rw [hi1 p hp])
  · intro table ht0 ht1 index' hlt'
    rw [paintError_halves, h.error]
    exact add_le_add
      (h0.least table.1 ht0 index' fun p hp => hlt' p (subblockPixels_lt hp))
      (h1.least table.2 ht1 index' fun p hp => hlt' p (subblockPixels_lt hp))

/-! ### The four candidates -/

/-- One of the four ways that are tried. -/
def candidate (block : ℕ → Rgb) (flip : ℕ) (d : Bool) : Candidate :=
  if d then differential flip (halfOf block flip 0) (halfOf block flip 1)
  else individual flip (halfOf block flip 0) (halfOf block flip 1)

lemma quant4_range (v : ℤ) : 0 ≤ quant4 v ∧ quant4 v < 2 ^ 4 := by
  unfold quant4 Rescale.clamp
  omega

lemma quant5_range (v : ℤ) : 0 ≤ quant5 v ∧ quant5 v < 2 ^ 5 := by
  unfold quant5 Rescale.clamp
  omega

open Rescale in
/-- The step fits its three bits, and leads to a colour of five. -/
lemma step_range {q w : ℤ} (hq : 0 ≤ q ∧ q < 2 ^ 5) (hw : 0 ≤ w ∧ w < 2 ^ 5) {d : ℤ}
    (hd : d = clamp (q + clamp (w - q) (-4) 3) 0 31 - q) :
    (-4 ≤ d ∧ d < 4) ∧ 0 ≤ q + d ∧ q + d < 2 ^ 5 := by
  unfold clamp at hd
  omega

lemma inRange_individual (block : ℕ → Rgb) (flip : ℕ) :
    (candidate block flip false).InRange where
  individual _ := ⟨⟨quant4_range _, quant4_range _, quant4_range _⟩,
    quant4_range _, quant4_range _, quant4_range _⟩
  differential h := absurd h Bool.false_ne_true

lemma inRange_differential (block : ℕ → Rgb) (flip : ℕ) :
    (candidate block flip true).InRange where
  individual h := absurd h.symm Bool.false_ne_true
  differential _ := by
    have hstep (f : Rgb → ℤ) := step_range (quant5_range (f (halfOf block flip 0).2))
      (quant5_range (f (halfOf block flip 1).2)) rfl
    exact ⟨⟨quant5_range _, quant5_range _, quant5_range _⟩,
      ⟨(hstep Rgb.r).1, (hstep Rgb.g).1, (hstep Rgb.b).1⟩,
      (hstep Rgb.r).2, (hstep Rgb.g).2, (hstep Rgb.b).2⟩

/-- A step and the colour it started from give the colour it was to reach. -/
lemma map₂_add_sub (q s : Rgb) : Rgb.map₂ (· + ·) q (Rgb.map₂ (fun s q => s - q) s q) = s := by
  simp only [Rgb.map₂, add_sub_cancel]

lemma fitted_candidate (block : ℕ → Rgb) {flip : ℕ} (hf : flip < 2) (d : Bool) :
    ∃ index, (candidate block flip d).Fitted block index := by
  cases d with
  | false =>
    exact Candidate.From.fitted
      { range := inRange_individual block flip
        flip := hf, first := rfl, second := rfl, error := rfl, table := rfl, indices := rfl }
  | true =>
    refine Candidate.From.fitted
      { range := inRange_differential block flip
        flip := hf, first := rfl, second := ?_, error := rfl, table := rfl, indices := rfl }
    refine congrArg (fitSubblock _) (congrArg (Rgb.map expand5) ?_)
    exact (map₂_add_sub _ _).symm

/-- The candidate that is written. -/
def chosen (block : ℕ → Rgb) : Candidate :=
  (List.range 2).foldl (fun best flip =>
    let h0 := halfOf block flip 0
    let h1 := halfOf block flip 1
    better (better best (individual flip h0 h1)) (differential flip h0 h1)) {}

def candidates (block : ℕ → Rgb) : List Candidate :=
  [candidate block 0 false, candidate block 0 true, candidate block 1 false,
    candidate block 1 true]

lemma mem_candidates {block : ℕ → Rgb} {c : Candidate} :
    c ∈ candidates block ↔ ∃ flip < 2, ∃ d, c = candidate block flip d := by
  simp only [candidates, List.mem_cons, List.not_mem_nil, or_false]
  constructor
  · rintro (rfl | rfl | rfl | rfl)
    exacts [⟨0, by decide, _, rfl⟩, ⟨0, by decide, _, rfl⟩, ⟨1, by decide, _, rfl⟩,
      ⟨1, by decide, _, rfl⟩]
  · rintro ⟨flip, hf, d, rfl⟩
    obtain rfl | rfl : flip = 0 ∨ flip = 1 := by omega
    all_goals cases d <;> simp

/-- The candidate written is the cheapest of the four. -/
lemma kept_chosen (block : ℕ → Rgb) :
    Kept Candidate.error (candidates block) (chosen block) := by
  have hpass : chosen block = (candidates block).foldl (keep Candidate.error) {} := by
    have hrange : List.range 2 = [0, 1] := rfl
    have hbetter : better = keep Candidate.error := rfl
    simp only [chosen, candidates, candidate, hrange, hbetter, List.foldl_cons, List.foldl_nil,
      if_true, Bool.false_eq_true, if_false]
  rw [hpass]
  refine kept_foldl Candidate.error {} _ (by decide) (by simp [candidates]) fun c hc => ?_
  obtain ⟨flip, hf, d, rfl⟩ := mem_candidates.mp hc
  obtain ⟨index, h⟩ := fitted_candidate block hf d
  rw [h.error]
  exact paintError_nonneg _ _ _ _ _

/-- What is written is one of the candidates, fitted as well as it can be. -/
lemma fitted_chosen (block : ℕ → Rgb) : ∃ index, (chosen block).Fitted block index := by
  obtain ⟨flip, hf, d, hc⟩ := mem_candidates.mp (kept_chosen block).mem
  rw [hc]
  exact fitted_candidate block hf d

/-! ### All the choices there are -/

/-- One way to fill in a block: a split, one of the two ways to store base colours, a table for
each half and an index for each pixel. -/
structure Choice where
  flip : Fin 2
  differential : Bool
  table : Fin 8 × Fin 8
  index : Fin 16 → Fin 4

namespace Choice

/-- The error of a choice, with the base colours the encoder quantises for it. -/
def error (block : ℕ → Rgb) (ch : Choice) : ℤ :=
  ∑ p : Fin 16,
    let half := halfAt ch.flip (p / 4 : ℕ) (p % 4 : ℕ)
    let base := ofHalf half (candidate block ch.flip ch.differential).base
    let table : ℕ := ofHalf half (ch.table.1, ch.table.2)
    sqDist (shade base (modifier table (ch.index p))) (block p)

lemma error_eq (block : ℕ → Rgb) (ch : Choice) (index : ℕ → ℕ)
    (hindex : ∀ p : Fin 16, index p = ch.index p) : ch.error block
      = paintError block ch.flip (candidate block ch.flip ch.differential).base
          (ch.table.1, ch.table.2) index := by
  unfold error paintError
  rw [Finset.sum_range]
  refine Finset.sum_congr rfl fun p _ => ?_
  rw [pixelError_eq, hindex]

end Choice

lemma candidate_flip (block : ℕ → Rgb) (flip : ℕ) (d : Bool) :
    (candidate block flip d).flip = flip := by
  cases d <;> rfl

/-- **No choice is better.** The error of what is written is the least of all there are. -/
theorem chosen_isLeast (block : ℕ → Rgb) :
    IsLeast (Set.range (Choice.error block)) (chosen block).error := by
  refine (kept_chosen block).isLeast (fun c hc => ?_) fun e he => ?_
  · obtain ⟨flip, hf, d, rfl⟩ := mem_candidates.mp hc
    obtain ⟨index, h⟩ := fitted_candidate block hf d
    obtain ⟨ht0, ht1⟩ := h.fits.table
    refine ⟨⟨⟨flip, hf⟩, d, (⟨_, ht0⟩, ⟨_, ht1⟩), fun p => ⟨index p, h.fits.index_lt p⟩⟩, ?_⟩
    rw [Choice.error_eq block _ index fun p => rfl, h.error, candidate_flip]
  · obtain ⟨ch, rfl⟩ := he
    have hmem : candidate block ch.flip ch.differential ∈ candidates block :=
      mem_candidates.mpr ⟨ch.flip, ch.flip.isLt, ch.differential, rfl⟩
    obtain ⟨_, h⟩ := fitted_candidate block ch.flip.isLt ch.differential
    refine ⟨_, hmem, ?_⟩
    have hindex (p : Fin 16) : (ch.index (Fin.ofNat 16 p) : ℕ) = ch.index p := by
      rw [Fin.ofNat_eq_cast, Fin.cast_val_eq_self]
    rw [ch.error_eq block (fun p => ch.index (Fin.ofNat 16 p)) hindex]
    have hle := h.least (ch.table.1, ch.table.2) ch.table.1.isLt ch.table.2.isLt
      (fun p => ch.index (Fin.ofNat 16 p)) fun p _ => (ch.index _).isLt
    rwa [candidate_flip] at hle

end Digitiz.Etc2
