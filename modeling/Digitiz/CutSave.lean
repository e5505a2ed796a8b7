import Digitiz.ButtonFile

/-!
A save that is cut off.

The file is emptied and written again from the start, so a process that dies while it saves leaves
the beginning of the new file, and nothing of the old one. A loader takes what it finds there. The
only presets it can be sure to find whole are those that the shortest beginnings already give:
one preset with no name, no program and no buttons.
-/

namespace Digitiz.ButtonStore

open TextLines

/-! ### What a loader finds -/

/-- What a fresh store has after it was given a file with that text. -/
def given (text : List UInt8) : List Preset :=
  if readLines (lines 10 text) [] 0 = [] then [{}] else readLines (lines 10 text) [] 0

lemma readLine_nil : readLine [] = .skipped := rfl

/-- An empty line at the end says nothing. -/
lemma readLines_concat_nil (ls : List (List UInt8)) (ps : List Preset) (n : ℕ) :
    readLines (ls ++ [[]]) ps n = readLines ls ps n := by
  induction ls generalizing ps n with
  | nil => rfl
  | cons l ls ih =>
    rw [List.cons_append, readLines, readLines]
    cases readLine l with
    | skipped => exact ih ps n
    | preset p => simp only [ih]
    | button b => simp only [ih]

lemma readLines_rest {ls : List (List UInt8)} {rest : List UInt8} (h : ∀ l ∈ ls, 10 ∉ l)
    (hrest : 10 ∉ rest) (ps : List Preset) (n : ℕ) :
    readLines (lines 10 (unlines 10 ls ++ rest)) ps n = readLines (ls ++ [rest]) ps n := by
  rw [lines_unlines_rest h hrest]
  split_ifs with hne
  · rw [hne, readLines_concat_nil, List.append_nil]
  · rfl

/-- The file that remains gives what its whole lines and the beginning of the next give. -/
lemma readLines_cut {presets : List Preset} {text : List UInt8}
    (hclean : ∀ l ∈ fileLines presets, 10 ∉ l) (h : text <+: fileText presets) :
    ∃ k rest, k ≤ (fileLines presets).length ∧ rest <+: (fileLines presets).getD k [] ∧
      readLines (lines 10 text) [] 0 = readLines ((fileLines presets).take k ++ [rest]) [] 0 := by
  obtain ⟨k, rest, rfl, hk, hrest⟩ := prefix_unlines h
  refine ⟨k, rest, hk, hrest, readLines_rest ?_ ?_ [] 0⟩
  · exact fun l hl => hclean l (List.mem_of_mem_take hl)
  · intro hm
    obtain hline | hnil := getD_mem_or (l := fileLines presets) k
    · exact hclean _ hline (hrest.subset hm)
    · rw [hnil, List.prefix_nil] at hrest
      rw [hrest] at hm
      exact absurd hm List.not_mem_nil

/-! ### Lines that are cut -/

lemma tidy_of_prefix {l m : List UInt8} (h : l <+: m) (hm : TidyText m) : TidyText l :=
  ⟨h.length_le.trans hm.1, fun hc => hm.2.1 (h.subset hc), fun hc => hm.2.2.1 (h.subset hc),
    fun hc => hm.2.2.2 (h.subset hc)⟩

/-- The beginning of a preset's line gives the beginning of the preset. -/
lemma readLine_cut_preset {p : Preset} (h : p.Tidy) {rest : List UInt8}
    (hrest : rest <+: presetLine p) : rest = [] ∨ ∃ name match', name <+: p.name ∧
      match' <+: p.match' ∧ (match' ≠ [] → name = p.name) ∧
      readLine rest = .preset { name, match' } := by
  obtain ⟨k, g, hk, rfl, hg⟩ := prefix_intercalate (List.cons_ne_nil _ _) hrest
  obtain _ | _ | k := k
  · -- not even the first field is certain
    obtain rfl | rfl := eq_of_prefix_singleton (c := 80) hg
    · exact Or.inl rfl
    · refine Or.inr ⟨[], [], List.nil_prefix, List.nil_prefix, fun hne => absurd rfl hne, ?_⟩
      exact readLine_preset_fields [] (by simp) (by simp)
  · have htidy := tidy_of_prefix hg h.name_tidy
    refine Or.inr ⟨g, [], hg, List.nil_prefix, fun hne => absurd rfl hne, ?_⟩
    have hread := readLine_preset_fields [g] (by simpa using htidy.2.1)
      (by simpa using htidy.2.2.2)
    simpa [sanitizeLabel_of_tidy htidy] using hread
  · obtain rfl : k = 0 := by
      simp only [List.length_cons, List.length_nil] at hk
      omega
    have htidy := tidy_of_prefix hg h.match_tidy
    refine Or.inr ⟨p.name, g, List.prefix_rfl, hg, fun _ => rfl, ?_⟩
    have hread := readLine_preset_fields [p.name, g]
      (by simp [h.name_tidy.2.1, htidy.2.1]) (by simp [h.name_tidy.2.2.2, htidy.2.2.2])
    simpa [sanitizeLabel_of_tidy h.name_tidy, sanitizeLabel_of_tidy htidy] using hread

/-- The beginning of a button's line is no button as long as it has not got to the key. -/
lemma readLine_cut_button {b : CustomButton} (hlabel : TidyText b.label) (hkey : b.key = [])
    {rest : List UInt8} (hrest : rest <+: buttonLine b) :
    rest = buttonLine b ∨ readLine rest = .skipped := by
  have hline : buttonLine b = List.intercalate [9] (buttonFields b ++ [[]]) := by
    rw [buttonLine_eq, hkey]
    exact (intercalate_concat (buttonFields b) (List.cons_ne_nil _ _) _).symm
  rw [hline] at hrest
  have hclean : ∀ c : UInt8, c.toNat < 45 → c ∉ b.label → ∀ f ∈ buttonFields b ++ [[]], c ∉ f := by
    intro c hc hcl f hf
    obtain hf | hf := List.mem_append.mp hf
    · exact buttonFields_clean hc hcl f hf
    · rw [List.mem_singleton.mp hf]
      exact List.not_mem_nil
  obtain ⟨k, g, hk, rfl, hg⟩ := prefix_intercalate (by simp) hrest
  have hg9 : ∀ c : UInt8, c.toNat < 45 → c ∉ b.label → c ∉ g := fun c hc hcl hm => by
    obtain hfield | hnil := getD_mem_or (l := buttonFields b ++ [[]]) k
    · exact hclean c hc hcl _ hfield (hg.subset hm)
    · rw [hnil, List.prefix_nil] at hg
      rw [hg] at hm
      exact absurd hm List.not_mem_nil
  have hlen : (buttonFields b ++ [[]]).length = 9 := rfl
  obtain _ | k := k
  · -- at most the letter
    right
    obtain rfl | rfl := eq_of_prefix_singleton (c := 66) hg
    · rfl
    · exact readLine_few_fields [] (by simp) (by simp) (by decide)
  · have hsucc : (buttonFields b ++ [[]]).take (k + 1) ++ [g] =
        ascii "B" :: ((buttonFields b ++ [[]]).tail.take k ++ [g]) := rfl
    have hall : ∀ c : UInt8, c.toNat < 45 → c ∉ b.label →
        ∀ f ∈ (buttonFields b ++ [[]]).tail.take k ++ [g], c ∉ f := fun c hc hcl f hf => by
      obtain hf | hf := List.mem_append.mp hf
      · exact hclean c hc hcl f (List.mem_of_mem_tail (List.mem_of_mem_take hf))
      · rw [List.mem_singleton.mp hf]
        exact hg9 c hc hcl
    by_cases hlast : k = 7
    · left
      subst hlast
      have : g = [] := List.prefix_nil.mp hg
      rw [hline, this]
      rfl
    · right
      rw [hsucc]
      refine readLine_few_fields _ (hall 9 (by decide) hlabel.2.1)
        (hall 13 (by decide) hlabel.2.2.2) ?_
      rw [hlen] at hk
      simp only [List.length_append, List.length_take, List.length_singleton]
      omega

/-! ### Saves that do no harm -/

/-- Every beginning of the file that holds the presets `after` gives them or those `before`. -/
def Survives (before after : List Preset) : Prop :=
  ∀ text, text <+: fileText after → given text = before ∨ given text = after

section read

variable {l : List UInt8} {ls : List (List UInt8)} {ps : List Preset} {n : ℕ}

lemma readLines_skip (h : readLine l = .skipped) :
    readLines (l :: ls) ps n = readLines ls ps n := by
  rw [readLines, h]

lemma readLines_preset {p : Preset} (h : readLine l = .preset p) (hps : ps.length < kMaxPresets) :
    readLines (l :: ls) ps n = readLines ls (ps ++ [p]) n := by
  rw [readLines, h]
  exact if_neg (not_le.mpr hps)

lemma readLines_header : readLines (header :: ls) ps n = readLines ls ps n :=
  readLines_skip readLine_header

/-- A preset with a name and a program of one letter at most is read as it is or as none. -/
lemma readLines_cut_preset {p : Preset} (h : p.Tidy) (hlen : p.name.length + p.match'.length ≤ 1)
    (hl : l <+: presetLine p) (hps : ps.length < kMaxPresets) :
    readLines [l] ps n = ps ∨ readLines [l] ps n = ps ++ [({} : Preset)] ∨
      readLines [l] ps n = ps ++ [{ p with buttons := [] }] := by
  obtain rfl | ⟨name, match', hname, hmatch, hwhole, hread⟩ := readLine_cut_preset h hl
  · exact Or.inl (readLines_skip readLine_nil)
  · rw [readLines_preset hread hps]
    by_cases hm : match' = []
    · by_cases hn : name = []
      · rw [hm, hn]
        exact Or.inr (Or.inl rfl)
      · have hpos := List.length_pos_iff.mpr hn
        have hnle := hname.length_le
        have hname' : name = p.name := hname.eq_of_length (by omega)
        have hmatch' : p.match' = [] := List.length_eq_zero_iff.mp (by omega)
        rw [hm, hname', ← hmatch']
        exact Or.inr (Or.inr rfl)
    · have hpos := List.length_pos_iff.mpr hm
      have hmle := hmatch.length_le
      have hmatch' : match' = p.match' := hmatch.eq_of_length (by omega)
      rw [hwhole hm, hmatch']
      exact Or.inr (Or.inr rfl)

end read

lemma given_eq {text : List UInt8} {ps : List Preset} (h : readLines (lines 10 text) [] 0 = ps) :
    given text = if ps = [] then [{}] else ps := by
  rw [given, h]

/-- A preset of its own, with no buttons and a name and a program of one letter at most. -/
lemma survives_letter {p : Preset} (h : p.Tidy) (hno : p.buttons = [])
    (hlen : p.name.length + p.match'.length ≤ 1) : Survives [{}] [p] := by
  intro text htext
  have hp : ({ p with buttons := [] } : Preset) = p := by rw [← hno]
  have hlines : fileLines [p] = [header, presetLine p] := by simp [fileLines, hno]
  have hclean := fileLines_clean [p] (by simpa using h) (by simp [hno])
  obtain ⟨k, rest, hk, hrest, hread⟩ := readLines_cut hclean htext
  rw [hlines] at hk hrest hread
  obtain _ | _ | _ | k := k
  · have hskip := readLine_cut_header hrest
    exact Or.inl (given_eq (hread.trans (readLines_skip hskip)))
  · have hread := hread.trans readLines_header
    obtain he | he | he := readLines_cut_preset (n := 0) h hlen hrest
      (show ([] : List Preset).length < kMaxPresets by decide)
    · exact Or.inl (given_eq (hread.trans he))
    · exact Or.inl (given_eq (hread.trans he))
    · rw [hp] at he
      exact Or.inr (given_eq (hread.trans he))
  · rw [List.prefix_nil.mp hrest] at hread
    have hwhole : readLines [presetLine p, []] [] 0 = readLines [[]] [{ p with buttons := [] }] 0 :=
      readLines_preset (readLine_presetLine h) (by decide)
    rw [hp, readLines_skip readLine_nil] at hwhole
    exact Or.inr (given_eq ((hread.trans readLines_header).trans hwhole))
  · simp only [List.length_cons, List.length_nil] at hk
    omega

/-- One more line after the unnamed preset, if every beginning of it says nothing or all. -/
lemma survives_line {after : List Preset} {last : List UInt8} (hne : after ≠ [])
    (hlines : fileLines after = [header, presetLine {}, last])
    (hclean : ∀ l ∈ fileLines after, 10 ∉ l)
    (hlast : ∀ rest, rest <+: last →
      readLines [rest] [{}] 0 = [{}] ∨ readLines [rest] [{}] 0 = after) :
    Survives [{}] after := by
  intro text htext
  obtain ⟨k, rest, hk, hrest, hread⟩ := readLines_cut hclean htext
  rw [hlines] at hk hrest hread
  have hroom : ([] : List Preset).length < kMaxPresets := by decide
  have hfirst : readLine (presetLine {}) = .preset {} := readLine_presetLine fresh_preset_tidy
  have hend : ∀ rest, rest <+: last → readLines [rest] [{}] 0 = readLines (lines 10 text) [] 0 →
      given text = [{}] ∨ given text = after := fun rest hrest he => by
    obtain h | h := hlast rest hrest
    · exact Or.inl (given_eq (he.symm.trans h))
    · rw [given_eq (he.symm.trans h), if_neg hne]
      exact Or.inr rfl
  obtain _ | _ | _ | _ | k := k
  · have hskip := readLine_cut_header hrest
    exact Or.inl (given_eq (hread.trans (readLines_skip hskip)))
  · have hread := hread.trans readLines_header
    obtain he | he | he := readLines_cut_preset (n := 0) fresh_preset_tidy (by decide) hrest hroom
    all_goals exact Or.inl (given_eq (hread.trans he))
  · refine hend rest hrest ?_
    exact ((hread.trans readLines_header).trans (readLines_preset hfirst hroom)).symm
  · rw [List.prefix_nil.mp hrest] at hread
    refine hend last List.prefix_rfl ?_
    have hread := (hread.trans readLines_header).trans (readLines_preset hfirst hroom)
    exact (hread.trans (readLines_concat_nil [last] [{}] 0)).symm
  · simp only [List.length_cons, List.length_nil] at hk
    omega

lemma survives_second_preset : Survives [{}] [{}, {}] := by
  refine survives_line (by simp) rfl ?_ fun rest hrest => ?_
  · refine fileLines_clean _ ?_ (by simp)
    simpa using fresh_preset_tidy
  · have hroom : [({} : Preset)].length < kMaxPresets := by decide
    obtain he | he | he := readLines_cut_preset (n := 0) fresh_preset_tidy (by decide) hrest hroom
    · exact Or.inl he
    · exact Or.inr he
    · exact Or.inr he

lemma survives_button {b : CustomButton} (hlabel : TidyText b.label) (hkey : b.key = []) :
    Survives [{}] [{ buttons := [b] }] := by
  refine survives_line (by simp) rfl ?_ fun rest hrest => ?_
  · refine fileLines_clean _ (fun p hp => ?_) (by simp [hkey])
    rw [List.mem_singleton.mp hp]
    exact ⟨sanitizeLabel_tidy [], sanitizeLabel_tidy [], by simpa using hlabel,
      by simp [kMaxButtons]⟩
  · obtain rfl | hskip := readLine_cut_button hlabel hkey hrest
    · right
      have hb : b.reread = b := by
        rw [CustomButton.ext_iff]
        simp [CustomButton.reread, hkey, popCr]
      have hread := readLines_buttons [b] (by simpa [hkey] using hlabel) [] [] {}
        (n := 0) (by simp [kMaxButtons])
      simpa [hb, readLines] using hread
    · exact Or.inl (readLines_skip hskip)

/-! ### Saves that do harm -/

lemma Survives.eq_fresh {before after : List Preset} (h : Survives before after) :
    before = [{}] ∨ after = [{}] := by
  obtain he | he := h [] List.nil_prefix
  · exact Or.inl he.symm
  · exact Or.inr he.symm

/-- A loader that finds whole lines and the beginning of one. -/
lemma given_rest {ls : List (List UInt8)} {rest : List UInt8} (ps : List Preset)
    (h : ∀ l ∈ ls, 10 ∉ l) (hrest : 10 ∉ rest) (hread : readLines (ls ++ [rest]) [] 0 = ps)
    (hne : ps ≠ []) : given (unlines 10 ls ++ rest) = ps := by
  rw [given_eq ((readLines_rest h hrest [] 0).trans hread), if_neg hne]

lemma first_clean : ∀ l ∈ [header, presetLine {}], 10 ∉ l :=
  List.forall_mem_cons.mpr ⟨header_clean.1, List.forall_mem_singleton.mpr (by decide)⟩

/-- Before the key was written the button is there without it. -/
lemma Survives.key_eq_nil {b : CustomButton} (hlabel : TidyText b.label)
    (h : Survives [{}] [{ buttons := [b] }]) : b.key = [] := by
  have hline : buttonLine b = buttonLine { b with key := [] } ++ b.key := by
    rw [buttonLine_eq, buttonLine_eq, List.append_assoc]
    rfl
  have htext : unlines 10 [header, presetLine {}] ++ buttonLine { b with key := [] } <+:
      fileText [{ buttons := [b] }] := by
    have hfile : fileText [{ buttons := [b] }] =
        unlines 10 [header, presetLine {}] ++ (buttonLine b ++ [10]) := by
      simp [fileText, fileLines, unlines, presetLine]
    rw [hfile, hline, List.append_assoc]
    exact (List.prefix_append_right_inj _).mpr (List.prefix_append _ _)
  have hpreset : Preset.Tidy { buttons := [{ b with key := [] }] } :=
    ⟨sanitizeLabel_tidy [], sanitizeLabel_tidy [], by simpa using hlabel, by simp [kMaxButtons]⟩
  have hread := readLines_presets [{ buttons := [{ b with key := [] }] }]
    (by simpa using hpreset) (by simp) [] (n := 0) (by simp [kMaxPresets])
    (by simp [kMaxButtons])
  have hclean := fileLines_clean [{ buttons := [{ b with key := [] }] }]
    (by simpa using hpreset) (by simp) (buttonLine { b with key := [] }) (by simp [fileLines])
  have hgiven := given_rest [{ buttons := [{ b with key := [] }] }] first_clean hclean
    (readLines_header.trans hread) (by simp)
  obtain he | he := h _ htext
  · rw [hgiven] at he
    simp at he
  · rw [hgiven] at he
    simp only [List.cons.injEq, Preset.mk.injEq, CustomButton.ext_iff, true_and, and_true] at he
    exact he.symm

/-- Before the name was written the second preset is there without it. -/
lemma Survives.second_name_eq_nil {name : List UInt8}
    (h : Survives [{}] [{}, { name }]) : name = [] := by
  have htext : unlines 10 [header, presetLine {}] ++ ascii "P" <+: fileText [{}, { name }] := by
    have hfile : fileText [{}, { name }] = unlines 10 [header, presetLine {}] ++
        (presetLine { name } ++ [10]) := by
      simp [fileText, fileLines, unlines, presetLine]
    rw [hfile]
    refine (List.prefix_append_right_inj _).mpr (List.IsPrefix.trans ?_ (List.prefix_append _ _))
    exact ⟨9 :: (name ++ [9]), by simp [presetLine, List.intercalate_cons_cons]⟩
  have hroom : [({} : Preset)].length < kMaxPresets := by decide
  have hread : readLine (ascii "P") = .preset {} := readLine_preset_fields [] (by simp) (by simp)
  have hgiven := given_rest [{}, {}] first_clean (show 10 ∉ ascii "P" by decide)
    (readLines_header.trans ((readLines_preset (readLine_presetLine fresh_preset_tidy)
      (by decide)).trans (readLines_preset hread hroom))) (by simp)
  obtain he | he := h _ htext
  · rw [hgiven] at he
    simp at he
  · rw [hgiven] at he
    simpa using he

/-- A single preset that has only its first letters yet. -/
lemma Survives.of_first_letters {p q : Preset} {rest : List UInt8} (h : Survives [{}] [p])
    (hno : p.buttons = []) (hrest : rest <+: presetLine p) (hclean : 10 ∉ rest)
    (hread : readLine rest = .preset q) : q = {} ∨ q = p := by
  have htext : unlines 10 [header] ++ rest <+: fileText [p] := by
    have hfile : fileText [p] = unlines 10 [header] ++ (presetLine p ++ [10]) := by
      simp [fileText, fileLines, unlines, hno]
    rw [hfile]
    exact (List.prefix_append_right_inj _).mpr (hrest.trans (List.prefix_append _ _))
  have hgiven := given_rest [q] (List.forall_mem_singleton.mpr header_clean.1) hclean
    (readLines_header.trans (readLines_preset hread (by decide))) (by simp)
  obtain he | he := h _ htext <;> rw [hgiven] at he
  · exact Or.inl (by simpa using he)
  · exact Or.inr (by simpa using he)

/-- A single preset that has only its first fields yet. -/
lemma Survives.of_first_fields {p : Preset} (h : Survives [{}] [p]) (hno : p.buttons = [])
    (fs : List (List UInt8)) (hfs : ∀ f ∈ fs, TidyText f)
    (hrest : List.intercalate [9] (ascii "P" :: fs) <+: presetLine p) :
    ({ name := fs.getD 0 [], match' := fs.getD 1 [] } : Preset) = {} ∨
      { name := fs.getD 0 [], match' := fs.getD 1 [] } = p := by
  have htidy (k : ℕ) : sanitizeLabel (fs.getD k []) = fs.getD k [] := by
    refine sanitizeLabel_of_tidy ?_
    obtain hmem | hnil := getD_mem_or (l := fs) k
    · exact hfs _ hmem
    · rw [hnil]
      exact sanitizeLabel_tidy []
  have hclean : 10 ∉ List.intercalate [9] (ascii "P" :: fs) := not_mem_intercalate (by decide)
    (List.forall_mem_cons.mpr ⟨by decide, fun f hf => (hfs f hf).2.2.1⟩)
  have hread := readLine_preset_fields fs (fun f hf => (hfs f hf).2.1)
    (fun f hf => (hfs f hf).2.2.2)
  rw [htidy, htidy] at hread
  exact h.of_first_letters hno hrest hclean hread

lemma Survives.name_length_le {name : List UInt8} (htidy : TidyText name)
    (h : Survives [{}] [{ name }]) : name.length ≤ 1 := by
  cases name with
  | nil => exact Nat.zero_le _
  | cons c cs =>
    have hc := tidy_of_prefix (l := [c]) ⟨cs, rfl⟩ htidy
    have hrest : List.intercalate [9] [ascii "P", [c]] <+: presetLine { name := c :: cs } :=
      ⟨cs ++ [9], by simp [presetLine, List.intercalate_cons_cons]⟩
    obtain he | he := h.of_first_fields rfl [[c]] (List.forall_mem_singleton.mpr hc) hrest
    · simp at he
    · simp only [List.getD_cons_zero, Preset.mk.injEq, List.cons.injEq, true_and] at he
      simp [← he.1]

lemma Survives.match_length_le {match' : List UInt8} (htidy : TidyText match')
    (h : Survives [{}] [{ match' }]) : match'.length ≤ 1 := by
  cases match' with
  | nil => exact Nat.zero_le _
  | cons c cs =>
    have hc := tidy_of_prefix (l := [c]) ⟨cs, rfl⟩ htidy
    have hrest : List.intercalate [9] [ascii "P", [], [c]] <+: presetLine { match' := c :: cs } :=
      ⟨cs, by simp [presetLine, List.intercalate_cons_cons]⟩
    obtain he | he := h.of_first_fields rfl [[], [c]] (List.forall_mem_cons.mpr
      ⟨sanitizeLabel_tidy [], List.forall_mem_singleton.mpr hc⟩) hrest
    · simp at he
    · simp only [List.getD_cons_succ, List.getD_cons_zero, Preset.mk.injEq, List.cons.injEq,
        true_and] at he
      simp [← he.1]

/-! ### The operations -/

/-- The operations whose save does no harm where it is cut off. Either the store had a single
preset with nothing in it and the operation adds to it no more than one letter or a button without
a key, or such a preset is all that is left. -/
def Harmless (s : ButtonStore) : Op → Prop
  | .add button => s.presets = [{}] ∧ button.key = []
  | .remove _ => ∃ b, s.presets = [{ buttons := [b] }]
  | .create name => s.presets = [{}] ∧ sanitizeLabel name = []
  | .rename _ name => s.presets = [{}] ∧ (sanitizeLabel name).length ≤ 1 ∨
      ∃ old, s.presets = [{ name := old }] ∧ sanitizeLabel name = []
  | .setMatch _ process => s.presets = [{}] ∧ (sanitizeLabel process).length ≤ 1 ∨
      ∃ old, s.presets = [{ match' := old }] ∧ sanitizeLabel process = []
  | .removePreset index => s.presets.eraseIdx index.toNat = [{}]
  | _ => False

variable {s : ButtonStore}

lemma survives_fresh (before : List Preset) : Survives before [{}] := fun text htext =>
  Or.inr ((survives_letter fresh_preset_tidy rfl (by decide) text htext).elim id id)

lemma buttons_of_single {p : Preset} (h : s.presets = [p]) :
    s.current = 0 ∧ s.buttons = p.buttons := by
  have hall : ∀ q ∈ s.presets, q = p := by
    rw [h]
    exact fun q hq => List.mem_singleton.mp hq
  have hlt := s.current_lt
  rw [h, List.length_singleton] at hlt
  refine ⟨by omega, ?_⟩
  rw [ButtonStore.buttons, hall _ (List.get_mem _ _)]

lemma modifyButtons_of_single {p : Preset} (h : s.presets = [p])
    (f : List CustomButton → List CustomButton) :
    (s.modifyButtons f).presets = [{ p with buttons := f p.buttons }] := by
  rw [modifyButtons]
  dsimp only
  rw [h, (buttons_of_single h).1]
  rfl

/-- The preset in use after a change to its buttons. -/
lemma modifyButtons_ne_fresh {f : List CustomButton → List CustomButton} (h : f s.buttons ≠ []) :
    (s.modifyButtons f).presets ≠ [{}] := by
  intro he
  have hlen : s.presets.length = 1 := by
    have := congrArg List.length he
    simpa [modifyButtons] using this
  obtain ⟨p, hp⟩ := List.length_eq_one_iff.mp hlen
  rw [modifyButtons_of_single hp, ← (buttons_of_single hp).2] at he
  simp only [List.cons.injEq, Preset.ext_iff, and_true] at he
  exact h he.2.2

lemma presets_ne_fresh (h : s.buttons ≠ []) : s.presets ≠ [{}] := fun he =>
  h (buttons_of_single he).2

lemma buttons_ne_nil {index : ℤ} (h : s.valid index) : s.buttons ≠ [] :=
  List.ne_nil_of_length_pos (Nat.zero_lt_of_lt h.2)

lemma add_survives_iff (button : CustomButton) :
    Survives s.presets (s.modifyButtons (· ++ [button.kept])).presets ↔
      Harmless s (.add button) := by
  constructor
  · intro h
    have hold : s.presets = [{}] := h.eq_fresh.resolve_right (modifyButtons_ne_fresh (by simp))
    rw [modifyButtons_of_single hold, hold] at h
    exact ⟨hold, h.key_eq_nil (b := button.kept) (sanitizeLabel_tidy _)⟩
  · rintro ⟨hold, hkey⟩
    rw [modifyButtons_of_single hold, hold]
    exact survives_button (b := button.kept) (sanitizeLabel_tidy _) hkey

lemma not_survives_of_buttons {f : List CustomButton → List CustomButton} (h : s.buttons ≠ [])
    (hf : f s.buttons ≠ []) : ¬ Survives s.presets (s.modifyButtons f).presets := fun hs =>
  hs.eq_fresh.elim (presets_ne_fresh h) (modifyButtons_ne_fresh hf)

lemma remove_survives_iff {index : ℤ} (hv : s.valid index) :
    Survives s.presets (s.modifyButtons (·.eraseIdx index.toNat)).presets ↔
      Harmless s (.remove index) := by
  constructor
  · intro h
    have hnew := h.eq_fresh.resolve_left (presets_ne_fresh (buttons_ne_nil hv))
    have hlen : s.presets.length = 1 := by
      have := congrArg List.length hnew
      simpa [modifyButtons] using this
    obtain ⟨p, hp⟩ := List.length_eq_one_iff.mp hlen
    have hvp := hv.2
    rw [(buttons_of_single hp).2] at hvp
    rw [modifyButtons_of_single hp] at hnew
    simp only [List.cons.injEq, Preset.ext_iff, and_true] at hnew
    obtain ⟨hname, hmatch, hno⟩ := hnew
    have hone : p.buttons.length = 1 := by
      have := congrArg List.length hno
      rw [List.length_eraseIdx_of_lt hvp, List.length_nil] at this
      omega
    obtain ⟨b, hb⟩ := List.length_eq_one_iff.mp hone
    exact ⟨b, by rw [hp]; simp [Preset.ext_iff, hname, hmatch, hb]⟩
  · rintro ⟨b, hb⟩
    have hvb := hv.2
    rw [(buttons_of_single hb).2, List.length_singleton] at hvb
    have hzero : index.toNat = 0 := by omega
    rw [modifyButtons_of_single hb, hzero]
    exact survives_fresh _

lemma create_survives_iff (name : List UInt8) :
    Survives s.presets (s.presets ++ [{ name := sanitizeLabel name }]) ↔
      Harmless s (.create name) := by
  constructor
  · intro h
    have hpos := Nat.zero_lt_of_lt s.current_lt
    have hold : s.presets = [{}] := h.eq_fresh.resolve_right fun he => by
      have := congrArg List.length he
      simp only [List.length_append, List.length_singleton] at this
      omega
    rw [hold] at h
    exact ⟨hold, h.second_name_eq_nil⟩
  · rintro ⟨hold, hname⟩
    rw [hold, hname]
    exact survives_second_preset

/-- The presets after a change to one of them, where there is only one. -/
lemma modifyPreset_of_single {p : Preset} (h : s.presets = [p]) {index : ℤ}
    (hv : s.validPreset index) (f : Preset → Preset) :
    (s.modifyPreset index.toNat f).presets = [f p] := by
  have hlt := hv.2
  rw [h, List.length_singleton] at hlt
  have hzero : index.toNat = 0 := by omega
  rw [modifyPreset]
  dsimp only
  rw [h, hzero]
  rfl

lemma single_of_modifyPreset {index : ℕ} {f : Preset → Preset} {q : Preset}
    (h : (s.modifyPreset index f).presets = [q]) : ∃ p, s.presets = [p] := by
  refine List.length_eq_one_iff.mp ?_
  have := congrArg List.length h
  simpa [modifyPreset] using this

/-- A change to a preset does no harm if the only one was empty and the change does none there, or
if it leaves it empty. -/
lemma modifyPreset_survives_iff {index : ℤ} (hv : s.validPreset index) (f : Preset → Preset) :
    Survives s.presets (s.modifyPreset index.toNat f).presets ↔
      s.presets = [{}] ∧ Survives [{}] [f {}] ∨ ∃ p, s.presets = [p] ∧ f p = {} := by
  constructor
  · intro h
    obtain hold | hnew := h.eq_fresh
    · rw [modifyPreset_of_single hold hv, hold] at h
      exact Or.inl ⟨hold, h⟩
    · obtain ⟨p, hp⟩ := single_of_modifyPreset hnew
      rw [modifyPreset_of_single hp hv] at hnew
      exact Or.inr ⟨p, hp, List.singleton_inj.mp hnew⟩
  · rintro (⟨hold, h⟩ | ⟨p, hp, hf⟩)
    · rwa [modifyPreset_of_single hold hv, hold]
    · rw [modifyPreset_of_single hp hv, hf]
      exact survives_fresh _

lemma rename_survives_iff {index : ℤ} (hv : s.validPreset index) (name : List UInt8) :
    Survives s.presets
        (s.modifyPreset index.toNat fun p => { p with name := sanitizeLabel name }).presets ↔
      Harmless s (.rename index name) := by
  have htidy := sanitizeLabel_tidy name
  rw [modifyPreset_survives_iff hv, Harmless]
  refine or_congr (and_congr_right fun _ => ⟨fun h => h.name_length_le htidy, fun hlen => ?_⟩) ?_
  · exact survives_letter ⟨htidy, fresh_preset_tidy.match_tidy, by simp, Nat.zero_le _⟩ rfl
      (by simpa using hlen)
  · constructor
    · rintro ⟨p, hp, hf⟩
      simp only [Preset.ext_iff] at hf
      exact ⟨p.name, by rw [hp]; simp [Preset.ext_iff, hf.2.1, hf.2.2], hf.1⟩
    · rintro ⟨old, hold, hname⟩
      exact ⟨_, hold, by rw [hname]⟩

lemma setMatch_survives_iff {index : ℤ} (hv : s.validPreset index) (process : List UInt8) :
    Survives s.presets
        (s.modifyPreset index.toNat fun p => { p with match' := sanitizeLabel process }).presets ↔
      Harmless s (.setMatch index process) := by
  have htidy := sanitizeLabel_tidy process
  rw [modifyPreset_survives_iff hv, Harmless]
  refine or_congr (and_congr_right fun _ => ⟨fun h => h.match_length_le htidy, fun hlen => ?_⟩) ?_
  · exact survives_letter ⟨fresh_preset_tidy.name_tidy, htidy, by simp, Nat.zero_le _⟩ rfl
      (by simpa using hlen)
  · constructor
    · rintro ⟨p, hp, hf⟩
      simp only [Preset.ext_iff] at hf
      exact ⟨p.match', by rw [hp]; simp [Preset.ext_iff, hf.1, hf.2.2], hf.2.1⟩
    · rintro ⟨old, hold, hprocess⟩
      exact ⟨_, hold, by rw [hprocess]⟩

lemma removePreset_survives_iff {index : ℤ} (hlen : 1 < s.presets.length) :
    Survives s.presets (s.presets.eraseIdx index.toNat) ↔ Harmless s (.removePreset index) := by
  constructor
  · intro h
    refine h.eq_fresh.resolve_left fun he => ?_
    rw [he] at hlen
    exact absurd hlen (by decide)
  · intro h
    rw [Harmless] at h
    rw [h]
    exact survives_fresh _

/-- Whatever the operation, what it writes is the file of the presets after it, and that file
survives a cut exactly when the operation is harmless. -/
lemma apply_survives_iff {op : Op} {text : List UInt8} (h : (s.apply op).2 = some text) :
    text = fileText (s.apply op).1.presets ∧
      (Survives s.presets (s.apply op).1.presets ↔ Harmless s op) := by
  cases op with
  | load externalDir file => exact absurd h (by simp [apply])
  | select index => exact absurd h (by simp [apply])
  | add button =>
    rw [apply] at h ⊢
    obtain he | ⟨-, he⟩ := s.add_cases button <;> rw [he] at h ⊢
    · exact absurd h (by simp)
    · exact ⟨save_eq_some h, add_survives_iff button⟩
  | replace index button =>
    rw [apply] at h ⊢
    obtain he | ⟨hv, he⟩ := s.replace_cases index button <;> rw [he] at h ⊢
    · exact absurd h (by simp)
    · have hne := buttons_ne_nil hv
      exact ⟨save_eq_some h, iff_of_false (not_survives_of_buttons hne (by simpa using hne)) id⟩
  | remove index =>
    rw [apply] at h ⊢
    obtain he | ⟨hv, he⟩ := s.remove_cases index <;> rw [he] at h ⊢
    · exact absurd h (by simp)
    · exact ⟨save_eq_some h, remove_survives_iff hv⟩
  | move index delta =>
    rw [apply] at h ⊢
    obtain he | ⟨hv, dest, hdest, -, he⟩ := s.move_cases index delta <;> rw [he] at h ⊢
    · exact absurd h (by simp)
    · refine ⟨save_eq_some h, iff_of_false (not_survives_of_buttons (buttons_ne_nil hv) ?_) id⟩
      refine List.ne_nil_of_length_pos ?_
      rw [List.length_insertIdx_of_le_length (by rw [List.length_eraseIdx_of_lt hv.2]; omega)]
      exact Nat.succ_pos _
  | create name =>
    rw [apply] at h ⊢
    obtain he | ⟨-, hsave, -, he⟩ := s.create_cases name
    · rw [he] at h
      exact absurd h (by simp)
    · rw [hsave] at h
      refine ⟨save_eq_some h, ?_⟩
      rw [he]
      exact create_survives_iff name
  | rename index name =>
    rw [apply] at h ⊢
    obtain he | ⟨hv, he⟩ := s.rename_cases index name <;> rw [he] at h ⊢
    · exact absurd h (by simp)
    · exact ⟨save_eq_some h, rename_survives_iff hv name⟩
  | setMatch index process =>
    rw [apply] at h ⊢
    obtain he | ⟨hv, he⟩ := s.setMatch_cases index process <;> rw [he] at h ⊢
    · exact absurd h (by simp)
    · exact ⟨save_eq_some h, setMatch_survives_iff hv process⟩
  | removePreset index =>
    rw [apply] at h ⊢
    obtain he | ⟨-, hlen, hsave, -, he⟩ := s.removePreset_cases index
    · rw [he] at h
      exact absurd h (by simp)
    · rw [hsave] at h
      refine ⟨save_eq_some h, ?_⟩
      rw [he]
      exact removePreset_survives_iff hlen

/-- **A kill during a save.** Whatever the store and the operation that saves it, the file that is
left gives the presets from before or those from after the operation wherever the writing stopped
exactly when the operation is harmless. -/
theorem killed_save_iff (s : ButtonStore) (op : Op) {externalDir text : List UInt8}
    (hdir : externalDir ≠ []) (hsave : (s.apply op).2 = some text) :
    (∀ left, left <+: text → (load {} externalDir (some left)).presets = s.presets ∨
        (load {} externalDir (some left)).presets = (s.apply op).1.presets) ↔ Harmless s op := by
  obtain ⟨htext, hiff⟩ := apply_survives_iff hsave
  rw [← hiff, htext]
  refine forall₂_congr fun left _ => ?_
  rw [load_presets hdir]
  rfl

/-- The first button of all, one that clicks a place. -/
theorem killed_save_iff_first_button :
    let s : ButtonStore := run [.load (ascii "files") none]
    let op := Op.add { label := ascii "save", target := { x := 12, y := -7 } }
    (s.apply op).2 = some (fileText (s.apply op).1.presets) ∧
      ∀ left, left <+: fileText (s.apply op).1.presets →
        (load {} (ascii "files") (some left)).presets = s.presets ∨
          (load {} (ascii "files") (some left)).presets = (s.apply op).1.presets := by
  intro s op
  have hsave : (s.apply op).2 = some (fileText (s.apply op).1.presets) := rfl
  exact ⟨hsave, (killed_save_iff s op (by decide) hsave).mpr ⟨by decide, rfl⟩⟩

/-- A second button is added and the process dies as soon as the file is emptied: both are gone. -/
theorem second_button_loses_first :
    let s : ButtonStore := run [.load (ascii "files") none, .add { label := ascii "save" }]
    let op := Op.add { label := ascii "open" }
    (s.apply op).2 = some (fileText (s.apply op).1.presets) ∧
      [] <+: fileText (s.apply op).1.presets ∧
      (load {} (ascii "files") (some [])).presets ≠ s.presets ∧
      (load {} (ascii "files") (some [])).presets ≠ (s.apply op).1.presets :=
  ⟨rfl, List.nil_prefix, by decide, by decide⟩

end Digitiz.ButtonStore
