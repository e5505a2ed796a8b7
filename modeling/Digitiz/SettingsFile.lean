import Digitiz.GuestFlag

/-!
The settings file, written and read.

Every setting is written on a line of its own and every line is read back on its own, so what was
saved is what is loaded, whatever the defaults are. Of the distance only that its print reads as
itself is asked.
-/

namespace Digitiz

open TextLines

variable {F : Type*} [FloatText F]

/-- A distance that is printed on one line and read back from there. -/
structure Reads (d : F) : Prop where
  line : (10 : UInt8) ∉ FloatText.print d
  value : FloatText.atof (trim (FloatText.print d)) = d

namespace Settings

/-! ### Lines -/

lemma readLine_line (s : Settings F) {key value : List UInt8} (hkey : 61 ∉ key)
    (htrim : trim key = key) : s.readLine (line key value) = s.set key (trim value) := by
  have hcut : cutAtEq (line key value) = some (key, value) := by
    rw [line, List.append_assoc]
    exact cutAtEq_append hkey
  rw [readLine, hcut]
  dsimp only
  rw [htrim]

lemma trim_of_no_blank {l : List UInt8} (h : ∀ c ∈ l, isBlank c = false) : trim l = l := by
  unfold trim trimBy
  have hdrop : l.dropWhile isBlank = l := by
    cases l with
    | nil => rfl
    | cons c l => exact List.dropWhile_cons_of_neg (by simp [h c List.mem_cons_self])
  rw [hdrop]
  induction l using List.reverseRecOn with
  | nil => rfl
  | append_singleton l c =>
    exact List.rdropWhile_concat_neg _ _ _ (by simp [h c (by simp)])

/-- A number has no blanks and is no line end. -/
lemma decimal_plain {n : ℤ} {c : UInt8} (h : c ∈ decimal n) : isBlank c = false ∧ c ≠ 10 := by
  rcases mem_decimal h with rfl | hdigit
  · decide
  · rw [isDigit_iff] at hdigit
    have hne : ∀ d : UInt8, d.toNat < 48 → c ≠ d := fun d hd he => by
      rw [he] at hdigit
      omega
    refine ⟨?_, hne 10 (by decide)⟩
    simp [isBlank, hne 32 (by decide), hne 9 (by decide), hne 13 (by decide), hne 10 (by decide)]

lemma trim_decimal (n : ℤ) : trim (decimal n) = decimal n :=
  trim_of_no_blank fun _ hc => (decimal_plain hc).1

lemma atoi_decimal (n : Int32) : atoi (decimal n.toInt) = n := by
  have hlo : -2 ^ 63 ≤ n.toInt := le_trans (by decide) n.le_toInt
  have hhi : n.toInt ≤ 2 ^ 63 - 1 := le_trans n.toInt_lt.le (by decide)
  rw [atoi, strtol_decimal, min_eq_right hhi, max_eq_right hlo, Int32.ofInt_toInt]

lemma isOn_bit (on : Bool) : isOn (trim (bit on)) = on := by
  cases on <;> decide

lemma line_plain {key value : List UInt8} (hkey : 10 ∉ key) (hvalue : 10 ∉ value) :
    10 ∉ line key value := by
  simp only [line, List.mem_append, not_or]
  exact ⟨⟨hkey, by decide⟩, hvalue⟩

lemma bit_plain (on : Bool) : 10 ∉ bit on := by
  cases on <;> decide

lemma decimal_no_nl (n : ℤ) : 10 ∉ decimal n := fun h => (decimal_plain h).2 rfl

section set

variable (s : Settings F) (value : List UInt8)

lemma set_autoLaunch : s.set kAutoLaunchKey value = { s with autoLaunch := isOn value } := rfl

lemma set_minInterval :
    s.set kMinIntervalKey value = { s with minIntervalMs := atoi value } := rfl

lemma set_minDistance :
    s.set kMinDistanceKey value = { s with minDistanceDp := FloatText.atof value } := rfl

lemma set_stripVertical :
    s.set kStripVerticalKey value = { s with stripVertical := isOn value } := rfl

lemma set_stripExpanded :
    s.set kStripExpandedKey value = { s with stripExpanded := isOn value } := rfl

lemma set_stripSlots : s.set kStripSlotsKey value = { s with stripSlots := atoi value } := rfl

lemma set_screen : s.set kScreenKey value = { s with screenEnabled := isOn value } := rfl

lemma set_stylus : s.set kStylusKey value = { s with stylusOnly := isOn value } := rfl

end set

/-! ### The file -/

/-- **The file is read as it was written**, over whatever was there before. -/
theorem foldl_fileText (s t : Settings F) (h : Reads s.minDistanceDp) :
    (lines 10 s.fileText).foldl readLine t = { s with path := t.path } := by
  have hlines : lines 10 s.fileText = [ascii "# digitiz guest settings",
      line kAutoLaunchKey (bit s.autoLaunch),
      line kMinIntervalKey (decimal s.minIntervalMs.toInt),
      line kMinDistanceKey (FloatText.print s.minDistanceDp),
      line kStripVerticalKey (bit s.stripVertical),
      line kStripExpandedKey (bit s.stripExpanded),
      line kStripSlotsKey (decimal s.stripSlots.toInt),
      line kScreenKey (bit s.screenEnabled),
      line kStylusKey (bit s.stylusOnly)] := by
    rw [fileText, ← List.append_nil (unlines _ _), lines_unlines_append, lines_nil, List.append_nil]
    simp only [List.forall_mem_cons, List.not_mem_nil, false_implies, implies_true, and_true]
    exact ⟨by decide, line_plain (by decide) (bit_plain _),
      line_plain (by decide) (decimal_no_nl _), line_plain (by decide) h.line,
      line_plain (by decide) (bit_plain _), line_plain (by decide) (bit_plain _),
      line_plain (by decide) (decimal_no_nl _), line_plain (by decide) (bit_plain _),
      line_plain (by decide) (bit_plain _)⟩
  have hcomment : t.readLine (ascii "# digitiz guest settings") = t := rfl
  rw [hlines]
  simp only [List.foldl_cons, List.foldl_nil]
  rw [hcomment, readLine_line _ (by decide) (by decide), readLine_line _ (by decide) (by decide),
    readLine_line _ (by decide) (by decide), readLine_line _ (by decide) (by decide),
    readLine_line _ (by decide) (by decide), readLine_line _ (by decide) (by decide),
    readLine_line _ (by decide) (by decide), readLine_line _ (by decide) (by decide)]
  rw [set_autoLaunch, set_minInterval, set_minDistance, set_stripVertical, set_stripExpanded,
    set_stripSlots, set_screen, set_stylus]
  simp only [trim_decimal, atoi_decimal, isOn_bit, h.value]

/-- A file that was saved is loaded as it was saved. -/
theorem load_fileText (s : Settings F) (h : Reads s.minDistanceDp) {externalDir : List UInt8}
    (hdir : externalDir ≠ []) (t : Settings F) :
    t.load externalDir (some s.fileText) =
      ({ s with path := externalDir ++ ascii "/" ++ ascii "settings.txt" }, none) := by
  rw [load, if_neg hdir]
  dsimp only
  rw [foldl_fileText s _ h]

end Settings

end Digitiz
