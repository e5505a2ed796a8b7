import Mathlib.Data.List.DropRight
import Mathlib.Data.List.Infix
import Mathlib.Data.List.TakeWhile
import Mathlib.Data.Nat.Digits.Defs
import Mathlib.Tactic.Common
import Mathlib.Tactic.IntervalCases

/-!
Files of lines, and numbers in them.

A reader takes a file apart at its line ends; what follows the last of them is a line too unless
there is nothing there. A file that is cut anywhere is some whole lines and the beginning of the
next. Numbers are written in decimal and read as the C library reads them: blanks are skipped, a
sign is taken, and the first thing that is no digit ends the number.
-/

namespace Digitiz.TextLines

/-! ### Lines -/

section lines

variable {α : Type*} [DecidableEq α] (nl : α)

/-- The lines of a file, given the beginning of the first. -/
def linesFrom (acc : List α) : List α → List (List α)
  | [] => if acc = [] then [] else [acc]
  | c :: text => if c = nl then acc :: linesFrom [] text else linesFrom (acc ++ [c]) text

/-- The lines of a file. -/
def lines (text : List α) : List (List α) := linesFrom nl [] text

/-- A file of lines, each of them ended. -/
def unlines (ls : List (List α)) : List α := ls.flatMap fun l => l ++ [nl]

variable {nl} {acc l text : List α} {ls : List (List α)}

lemma linesFrom_append (h : nl ∉ l) :
    linesFrom nl acc (l ++ text) = linesFrom nl (acc ++ l) text := by
  induction l generalizing acc with
  | nil => simp
  | cons c l ih =>
    have hc : c ≠ nl := fun he => h (he ▸ List.mem_cons_self)
    rw [List.cons_append, linesFrom, if_neg hc, ih fun hm => h (List.mem_cons_of_mem _ hm)]
    simp

@[simp] lemma lines_nil : lines nl [] = [] := rfl

/-- A line that is ended is the first one. -/
lemma lines_cons (h : nl ∉ l) : lines nl (l ++ nl :: text) = l :: lines nl text := by
  rw [lines, linesFrom_append h, linesFrom, if_pos rfl]
  rfl

/-- What is left at the end is a line if there is anything left. -/
lemma lines_rest (h : nl ∉ l) (hne : l ≠ []) : lines nl l = [l] := by
  have this : linesFrom nl [] (l ++ []) = linesFrom nl ([] ++ l) [] := linesFrom_append h
  rw [List.append_nil, List.nil_append] at this
  rw [lines, this, linesFrom, if_neg hne]

lemma lines_unlines_append (h : ∀ l ∈ ls, nl ∉ l) (text : List α) :
    lines nl (unlines nl ls ++ text) = ls ++ lines nl text := by
  induction ls with
  | nil => rfl
  | cons l ls ih =>
    have hl := h l List.mem_cons_self
    rw [unlines, List.flatMap_cons, List.append_assoc, List.append_assoc, List.singleton_append,
      lines_cons hl]
    exact congrArg (l :: ·) (ih fun m hm => h m (List.mem_cons_of_mem _ hm))

lemma linesFrom_clean (hacc : nl ∉ acc) (hl : l ∈ linesFrom nl acc text) : nl ∉ l := by
  induction text generalizing acc with
  | nil =>
    rw [linesFrom] at hl
    split_ifs at hl
    · simp at hl
    · obtain rfl := List.mem_singleton.mp hl
      exact hacc
  | cons c text ih =>
    rw [linesFrom] at hl
    split_ifs at hl with hc
    · obtain rfl | hl := List.mem_cons.mp hl
      · exact hacc
      · exact ih List.not_mem_nil hl
    · refine ih (fun hm => ?_) hl
      obtain hm | hm := List.mem_append.mp hm
      · exact hacc hm
      · exact hc (List.mem_singleton.mp hm).symm

/-- No line has a line end in it. -/
lemma not_mem_of_mem_lines (hl : l ∈ lines nl text) : nl ∉ l :=
  linesFrom_clean List.not_mem_nil hl

/-- The lines of a file whose last line was not ended. -/
lemma lines_unlines_rest (h : ∀ l ∈ ls, nl ∉ l) (hl : nl ∉ l) :
    lines nl (unlines nl ls ++ l) = ls ++ if l = [] then [] else [l] := by
  rw [lines_unlines_append h]
  split_ifs with hne
  · rw [hne, lines_nil]
  · rw [lines_rest hl hne]

omit [DecidableEq α] in
/-- **A file that is cut** is some whole lines and the beginning of the next. -/
theorem prefix_unlines (h : text <+: unlines nl ls) : ∃ k rest,
    text = unlines nl (ls.take k) ++ rest ∧ k ≤ ls.length ∧ rest <+: ls.getD k [] := by
  rw [List.prefix_iff_eq_take] at h
  rw [h]
  generalize text.length = n
  clear h
  induction ls generalizing n with
  | nil => exact ⟨0, [], by simp [unlines], le_rfl, List.nil_prefix⟩
  | cons l ls ih =>
    have hsplit : unlines nl (l :: ls) = (l ++ [nl]) ++ unlines nl ls := rfl
    by_cases hn : n ≤ l.length
    · refine ⟨0, l.take n, ?_, Nat.zero_le _, List.take_prefix _ _⟩
      rw [hsplit, List.append_assoc, List.take_append_of_le_length hn]
      rfl
    · obtain ⟨k, rest, htake, hk, hrest⟩ := ih (n - (l.length + 1))
      refine ⟨k + 1, rest, ?_, by simpa using hk, by simpa using hrest⟩
      rw [hsplit, List.take_append, List.take_of_length_le (by simp; omega), List.length_append,
        List.length_singleton, htake]
      simp [unlines]

omit [DecidableEq α] in
lemma eq_of_prefix_singleton {c : α} (h : l <+: [c]) : l = [] ∨ l = [c] := by
  obtain h | ⟨t, h, ht⟩ := List.prefix_cons_iff.mp h
  · exact Or.inl h
  · rw [List.prefix_nil.mp ht] at h
    exact Or.inr h

end lines

/-! ### Fields -/

section fields

variable {α : Type*} [DecidableEq α] {sep : α}

omit [DecidableEq α] in
/-- The last of the fields stands after a separator. -/
lemma intercalate_concat (ls : List (List α)) (hne : ls ≠ []) (l : List α) :
    List.intercalate [sep] (ls ++ [l]) = List.intercalate [sep] ls ++ sep :: l := by
  induction ls with
  | nil => contradiction
  | cons m ls ih =>
    cases ls with
    | nil => simp
    | cons n ls =>
      have ih := ih (by simp)
      rw [List.cons_append] at ih
      rw [List.cons_append, List.cons_append, List.intercalate_cons_cons, ih,
        List.intercalate_cons_cons, List.append_assoc _ _ (sep :: l)]

omit [DecidableEq α] in
/-- **A line that is cut** is some whole fields and the beginning of the next. -/
theorem prefix_intercalate {fs : List (List α)} {line : List α} (hne : fs ≠ [])
    (h : line <+: List.intercalate [sep] fs) : ∃ k g, k < fs.length ∧
      line = List.intercalate [sep] (fs.take k ++ [g]) ∧ g <+: fs.getD k [] := by
  rw [List.prefix_iff_eq_take] at h
  rw [h]
  generalize line.length = n
  clear h
  induction fs generalizing n with
  | nil => contradiction
  | cons f fs ih =>
    cases fs with
    | nil => exact ⟨0, f.take n, by simp, by simp, List.take_prefix _ _⟩
    | cons g gs =>
      rw [List.intercalate_cons_cons, List.append_assoc]
      by_cases hn : n ≤ f.length
      · refine ⟨0, f.take n, by simp, ?_, List.take_prefix _ _⟩
        rw [List.take_append_of_le_length hn]
        simp
      · obtain ⟨k, e, hk, htake, he⟩ := ih (List.cons_ne_nil _ _) (n - (f.length + 1))
        refine ⟨k + 1, e, by simpa using hk, ?_, by simpa using he⟩
        have hne : (g :: gs).take k ++ [e] ≠ [] :=
          List.append_ne_nil_of_right_ne_nil _ (List.cons_ne_nil _ _)
        have hjoin : List.intercalate [sep] ((f :: g :: gs).take (k + 1) ++ [e]) =
            (f ++ [sep]) ++ List.intercalate [sep] ((g :: gs).take k ++ [e]) := by
          rw [List.take_succ_cons, List.cons_append, List.intercalate_cons_of_ne_nil hne]
        rw [hjoin, ← htake, ← List.append_assoc, List.take_append,
          List.take_of_length_le (by simp; omega), List.length_append, List.length_singleton]

lemma splitOn_cons (c : α) (l : List α) : (c :: l).splitOn sep =
    if c = sep then [] :: l.splitOn sep else (l.splitOn sep).modifyHead (List.cons c) := by
  simp only [List.splitOn_cons_eq_if_modifyHead, beq_iff_eq]

/-- A piece of what is taken apart has no separator in it. -/
lemma not_mem_of_mem_splitOn {l w : List α} (h : w ∈ l.splitOn sep) : sep ∉ w := by
  induction l generalizing w with
  | nil =>
    rw [List.splitOn_nil, List.mem_singleton] at h
    rw [h]
    exact List.not_mem_nil
  | cons c l ih =>
    rw [splitOn_cons] at h
    split_ifs at h with hc
    · obtain rfl | h := List.mem_cons.mp h
      · exact List.not_mem_nil
      · exact ih h
    · cases hl : l.splitOn sep with
      | nil => simp [hl] at h
      | cons v vs =>
        rw [hl, List.modifyHead_cons] at h
        obtain rfl | h := List.mem_cons.mp h
        · intro hm
          obtain hm | hm := List.mem_cons.mp hm
          · exact hc hm.symm
          · exact ih (hl ▸ List.mem_cons_self) hm
        · exact ih (hl ▸ List.mem_cons_of_mem _ h)

/-- What is in a piece was in the whole. -/
lemma mem_of_mem_splitOn {l w : List α} {a : α} (h : w ∈ l.splitOn sep) (ha : a ∈ w) : a ∈ l := by
  induction l generalizing w with
  | nil =>
    rw [List.splitOn_nil, List.mem_singleton] at h
    rwa [h] at ha
  | cons c l ih =>
    rw [splitOn_cons] at h
    split_ifs at h with hc
    · obtain rfl | h := List.mem_cons.mp h
      · simp at ha
      · exact List.mem_cons_of_mem _ (ih h ha)
    · cases hl : l.splitOn sep with
      | nil => simp [hl] at h
      | cons v vs =>
        rw [hl, List.modifyHead_cons] at h
        obtain rfl | h := List.mem_cons.mp h
        · obtain rfl | ha := List.mem_cons.mp ha
          · exact List.mem_cons_self
          · exact List.mem_cons_of_mem _ (ih (hl ▸ List.mem_cons_self) ha)
        · exact List.mem_cons_of_mem _ (ih (hl ▸ List.mem_cons_of_mem _ h) ha)

end fields

/-! ### Trimmed texts -/

section trim

variable {α : Type*} {p : α → Bool} {a : α} {u v l : List α}

/-- A text without the blanks around it. -/
def trimBy (p : α → Bool) (l : List α) : List α := (l.dropWhile p).rdropWhile p

lemma dropWhile_append_cons (h : ¬ p a) :
    (u ++ a :: v).dropWhile p = u.dropWhile p ++ a :: v := by
  rw [List.dropWhile_append]
  split_ifs with hu
  · rw [List.isEmpty_iff.mp hu, List.dropWhile_cons_of_neg h, List.nil_append]
  · rfl

lemma rdropWhile_append_cons (h : ¬ p a) :
    (u ++ a :: v).rdropWhile p = u ++ a :: v.rdropWhile p := by
  induction v using List.reverseRecOn with
  | nil => rw [List.rdropWhile_concat_neg _ _ _ h, List.rdropWhile_nil]
  | append_singleton v b ih =>
    rw [← List.cons_append, ← List.append_assoc, List.rdropWhile_concat, List.rdropWhile_concat]
    split_ifs
    · exact ih
    · simp

/-- Blanks are taken from both ends in any order. -/
lemma dropWhile_rdropWhile (p : α → Bool) (l : List α) :
    (l.rdropWhile p).dropWhile p = (l.dropWhile p).rdropWhile p := by
  by_cases hall : ∀ x ∈ l, p x
  · rw [List.rdropWhile_eq_nil_iff.mpr hall, List.dropWhile_eq_nil_iff.mpr hall]
    rfl
  · have hne : l.dropWhile p ≠ [] := fun he => hall (List.dropWhile_eq_nil_iff.mp he)
    obtain ⟨a, v, hv⟩ := List.exists_cons_of_ne_nil hne
    have ha : ¬ p a := by
      have := List.head_dropWhile_not p hne
      simp only [hv, List.head_cons] at this
      simp [this]
    have hl : l.takeWhile p ++ a :: v = l := by rw [← hv, List.takeWhile_append_dropWhile]
    have hfront : (l.takeWhile p).dropWhile p = [] :=
      List.dropWhile_eq_nil_iff.mpr fun x hx => List.mem_takeWhile_imp hx
    rw [← hl, rdropWhile_append_cons ha, dropWhile_append_cons ha, dropWhile_append_cons ha, hfront]
    exact (rdropWhile_append_cons (u := []) ha).symm

lemma trimBy_dropWhile (p : α → Bool) (l : List α) : trimBy p (l.dropWhile p) = trimBy p l := by
  rw [trimBy, List.dropWhile_idempotent, trimBy]

lemma trimBy_rdropWhile (p : α → Bool) (l : List α) : trimBy p (l.rdropWhile p) = trimBy p l := by
  rw [trimBy, dropWhile_rdropWhile, List.rdropWhile_idempotent, trimBy]

/-- Trimming a line leaves its two sides of a mark that is no blank. -/
lemma trimBy_append_cons (h : ¬ p a) :
    trimBy p (u ++ a :: v) = u.dropWhile p ++ a :: v.rdropWhile p := by
  rw [trimBy, dropWhile_append_cons h, rdropWhile_append_cons h]

lemma mem_of_mem_trimBy (h : a ∈ trimBy p l) : a ∈ l :=
  (List.dropWhile_suffix p).subset ((List.rdropWhile_prefix p _).subset h)

end trim

/-! ### Numbers -/

def isDigit (c : UInt8) : Bool := 48 ≤ c ∧ c ≤ 57

def isSpace (c : UInt8) : Bool := c = 32 ∨ (9 ≤ c ∧ c ≤ 13)

/-- The digits of a number, the highest first. -/
def natDigits (n : ℕ) : List UInt8 :=
  if n = 0 then [48] else (Nat.digits 10 n).reverse.map fun d => UInt8.ofNat (48 + d)

/-- A number in decimal. -/
def decimal (n : ℤ) : List UInt8 := if n < 0 then 45 :: natDigits n.natAbs else natDigits n.natAbs

/-- The number the digits at the front make. -/
def digitsValue (s : List UInt8) : ℕ :=
  (s.takeWhile isDigit).foldl (fun v c => v * 10 + (c.toNat - 48)) 0

/-- The number at the front of a text, zero if there is none. -/
def strtol (s : List UInt8) : ℤ :=
  let s := s.dropWhile isSpace
  if s.head? = some 45 then -(digitsValue s.tail)
  else if s.head? = some 43 then digitsValue s.tail
  else digitsValue s

/-- `atoi`, on a platform whose `long` has 64 bits. -/
def atoi (s : List UInt8) : Int32 := Int32.ofInt (max (-2 ^ 63) (min (2 ^ 63 - 1) (strtol s)))

lemma natDigits_isDigit {n : ℕ} {c : UInt8} (h : c ∈ natDigits n) : isDigit c = true := by
  unfold natDigits at h
  split_ifs at h
  · rw [List.mem_singleton.mp h]; rfl
  · obtain ⟨d, hd, rfl⟩ := List.mem_map.mp h
    have hlt : d < 10 := Nat.digits_lt_base (by decide) (List.mem_reverse.mp hd)
    interval_cases d <;> rfl

lemma natDigits_ne_nil (n : ℕ) : natDigits n ≠ [] := by
  unfold natDigits
  split_ifs with h
  · simp
  · simpa using Nat.digits_ne_nil_iff_ne_zero.mpr h

/-- A digit is no blank, no sign and no separator. -/
lemma isDigit_iff {c : UInt8} : isDigit c = true ↔ 48 ≤ c.toNat ∧ c.toNat ≤ 57 := by
  simp [isDigit, UInt8.le_iff_toNat_le]

lemma foldr_digits {L : List ℕ} (h : ∀ d ∈ L, d < 10) :
    L.foldr (fun d v => v * 10 + ((UInt8.ofNat (48 + d)).toNat - 48)) 0 = Nat.ofDigits 10 L := by
  induction L with
  | nil => rfl
  | cons d L ih =>
    have hd := h d List.mem_cons_self
    have hbyte : (UInt8.ofNat (48 + d)).toNat = 48 + d :=
      UInt8.toNat_ofNat_of_lt' (by rw [UInt8.size]; omega)
    rw [List.foldr_cons, ih fun e he => h e (List.mem_cons_of_mem _ he), Nat.ofDigits_cons, hbyte]
    omega

/-- What was printed is read back. -/
lemma digitsValue_natDigits (n : ℕ) : digitsValue (natDigits n) = n := by
  rw [digitsValue, List.takeWhile_eq_self_iff.mpr fun c hc => natDigits_isDigit hc, natDigits]
  split_ifs with h
  · rw [h]
    rfl
  · rw [List.foldl_map, List.foldl_reverse, foldr_digits, Nat.ofDigits_digits]
    intro d hd
    exact Nat.digits_lt_base (by decide) hd

lemma mem_decimal {n : ℤ} {c : UInt8} (h : c ∈ decimal n) : c = 45 ∨ isDigit c = true := by
  unfold decimal at h
  split_ifs at h
  · obtain rfl | h := List.mem_cons.mp h
    · exact Or.inl rfl
    · exact Or.inr (natDigits_isDigit h)
  · exact Or.inr (natDigits_isDigit h)

/-- **Numbers come back.** Reading what printing wrote gives the number. -/
theorem strtol_decimal (n : ℤ) : strtol (decimal n) = n := by
  obtain ⟨c, ds, hds⟩ := List.exists_cons_of_ne_nil (natDigits_ne_nil n.natAbs)
  have hc : isDigit c = true := natDigits_isDigit (n := n.natAbs) (hds ▸ List.mem_cons_self)
  rw [isDigit_iff] at hc
  have hspace : ∀ d : UInt8, 45 ≤ d.toNat → isSpace d = false := fun d hd => by
    simp only [isSpace, decide_eq_false_iff_not, not_or, UInt8.le_iff_toNat_le,
      UInt8.reduceToNat]
    refine ⟨fun he => ?_, by omega⟩
    rw [he] at hd
    revert hd
    decide
  have hne : ∀ d : UInt8, d.toNat < 48 → c ≠ d := fun d hd he => by rw [he] at hc; omega
  have hval := digitsValue_natDigits n.natAbs
  unfold strtol decimal
  split_ifs with hneg
  · rw [List.dropWhile_cons_of_neg (by rw [hspace 45 (by decide)]; decide)]
    simp only [List.head?_cons, ↓reduceIte, List.tail_cons, hval]
    omega
  · rw [hds] at hval ⊢
    rw [List.dropWhile_cons_of_neg (by rw [hspace c (by omega)]; decide)]
    simp only [List.head?_cons, Option.some.injEq, hne 45 (by decide), hne 43 (by decide),
      ↓reduceIte, hval]
    omega

end Digitiz.TextLines
