import Digitiz.ButtonStore

/-!
The button file, written and read back.

Everything but the key of a button is stripped of what would break its line, so a line comes back
as it was unless the key has a tab or a line end in it or ends in a carriage return. The limit of
256 buttons is one for each preset while buttons are added and one for the whole file when it is
read.
-/

namespace Digitiz.ButtonStore

open TextLines

/-! ### Fields -/

lemma toInt_decimal (n : Int32) : toInt (decimal n.toInt) = n := by
  have hlo := n.le_toInt
  have hhi := n.toInt_lt
  rw [toInt, atoi, strtol_decimal, min_eq_right (by omega), max_eq_right (by omega),
    Int32.ofInt_toInt]

lemma toInt_modifiers (m : UInt8) : UInt8.ofInt (toInt (decimal m.toNat)).toInt = m := by
  have hlt := m.toNat_lt
  have hword : toInt (decimal m.toNat) = Int32.ofInt m.toNat := by
    rw [toInt, atoi, strtol_decimal, min_eq_right (by omega), max_eq_right (by omega)]
  have hmod : ((m.toNat : ℤ) % 2 ^ 8).toNat = m.toNat := by omega
  rw [hword, Int32.toInt_ofInt_of_le (by omega) (by omega), UInt8.ofInt, hmod, UInt8.ofNat_toNat]

lemma ofInt_toInt_kind (kind : ButtonKind) : ButtonKind.ofInt (toInt (decimal kind.toInt)) =
    some kind := by
  cases kind <;> decide

lemma not_mem_decimal {c : UInt8} (h : c.toNat < 45) (n : ℤ) : c ∉ decimal n := by
  intro hm
  obtain rfl | hd := mem_decimal hm
  · exact absurd h (by decide)
  · have := isDigit_iff.mp hd
    omega

/-! ### Lines -/

/-- The fields of a button up to its key. -/
def buttonFields (b : CustomButton) : List (List UInt8) :=
  [ascii "B", decimal b.kind.toInt, b.label, decimal b.target.x.toInt, decimal b.target.y.toInt,
    decimal b.target.w.toInt, decimal b.target.h.toInt, decimal b.modifiers.toNat]

lemma buttonLine_eq (b : CustomButton) :
    buttonLine b = List.intercalate [9] (buttonFields b) ++ 9 :: b.key :=
  intercalate_concat (buttonFields b) (List.cons_ne_nil _ _) b.key

lemma not_mem_intercalate {fs : List (List UInt8)} {c : UInt8} (hc : c ≠ 9)
    (h : ∀ f ∈ fs, c ∉ f) : c ∉ List.intercalate [9] fs := by
  induction fs with
  | nil => simp
  | cons f fs ih =>
    have hf := h f List.mem_cons_self
    cases fs with
    | nil => simpa using hf
    | cons g fs =>
      rw [List.intercalate_cons_cons]
      simp [hf, hc, ih fun e he => h e (List.mem_cons_of_mem _ he)]

/-- The carriage return at the end of a line is the one at the end of its last field. -/
lemma popCr_append (l key : List UInt8) : popCr (l ++ 9 :: key) = l ++ 9 :: popCr key := by
  unfold popCr
  cases key using List.reverseRecOn with
  | nil => simp
  | append_singleton key c =>
    rw [← List.cons_append, ← List.append_assoc, List.getLast?_concat, List.getLast?_concat,
      List.dropLast_concat, List.dropLast_concat]
    split_ifs <;> simp

lemma popCr_of_not_mem {l : List UInt8} (h : 13 ∉ l) : popCr l = l :=
  if_neg fun hlast => h (List.mem_of_getLast? hlast)

/-- The fields of a line that does not start like a comment. -/
lemma splitOn_fields {fs : List (List UInt8)} {c : UInt8} (htab : ∀ f ∈ fs, 9 ∉ f)
    (hc : fs.head? = some [c]) (hcomment : c ≠ 35) :
    ¬ (List.intercalate [9] fs = [] ∨ (List.intercalate [9] fs).head? = some 35) ∧
      (List.intercalate [9] fs).splitOn 9 = fs := by
  obtain ⟨gs, rfl⟩ : ∃ gs, fs = [c] :: gs := by
    cases fs with
    | nil => simp at hc
    | cons f gs => exact ⟨gs, by simpa using hc⟩
  refine ⟨?_, List.splitOn_intercalate 9 htab (List.cons_ne_nil _ _)⟩
  have hhead : ∃ l, List.intercalate [9] ([c] :: gs) = c :: l := by
    cases gs with
    | nil => exact ⟨[], rfl⟩
    | cons g gs => exact ⟨_, List.intercalate_cons_cons⟩
  obtain ⟨l, hl⟩ := hhead
  simp [hl, hcomment]

lemma buttonFields_clean {b : CustomButton} {c : UInt8} (hc : c.toNat < 45)
    (hlabel : c ∉ b.label) : ∀ f ∈ buttonFields b, c ∉ f := by
  have hB : c ∉ ascii "B" := by
    intro hm
    rw [List.mem_singleton.mp hm] at hc
    exact absurd hc (by decide)
  simp only [buttonFields, List.mem_cons, List.not_mem_nil, or_false]
  rintro f (rfl | rfl | rfl | rfl | rfl | rfl | rfl | rfl)
  all_goals first | exact hB | exact hlabel | exact not_mem_decimal hc _

/-- A button as its line gives it back. -/
def CustomButton.reread (b : CustomButton) : CustomButton := { b with key := popCr b.key }

lemma mem_key_reread {b : CustomButton} {c : UInt8} (h : c ∉ b.key) : c ∉ b.reread.key :=
  fun hm => h (mem_popCr hm)

/-- A button comes back from its line, but for what its key has from the first tab on. -/
lemma readLine_buttonLine_key {b : CustomButton} (hlabel : TidyText b.label) :
    readLine (buttonLine b) = .button { b with key := ((popCr b.key).splitOn 9).headD [] } := by
  have hpop : popCr (buttonLine b) = List.intercalate [9] (buttonFields b) ++ 9 :: popCr b.key := by
    rw [buttonLine_eq, popCr_append]
  obtain ⟨-, hsplit⟩ := splitOn_fields (c := 66)
    (buttonFields_clean (b := b) (by decide) hlabel.2.1) rfl (by decide)
  have hline : ¬ (popCr (buttonLine b) = [] ∨ (popCr (buttonLine b)).head? = some 35) := by
    rw [hpop]
    simp [buttonFields, ascii, List.intercalate_cons_cons]
  have hfields : (popCr (buttonLine b)).splitOn 9 =
      buttonFields b ++ (popCr b.key).splitOn 9 := by
    rw [hpop, List.splitOn_append_cons_self, hsplit]
  obtain ⟨key, rest, hkey⟩ := List.exists_cons_of_ne_nil (List.splitOn_ne_nil 9 (popCr b.key))
  have hparse : parseButton (buttonFields b ++ key :: rest) 1 = some { b with key := key } := by
    have hkind := ofInt_toInt_kind b.kind
    have hmods := toInt_modifiers b.modifiers
    simp [parseButton, buttonFields, hkind, hmods, toInt_decimal, sanitizeLabel_of_tidy hlabel]
  have hfirst : (buttonFields b ++ key :: rest).getD 0 [] = ascii "B" := rfl
  have hnot : ascii "B" ≠ ascii "P" := by decide
  dsimp only [readLine]
  rw [if_neg hline, hfields, hkey, hfirst, if_neg hnot, if_pos rfl, hparse]
  rfl

/-- **A button comes back** from its line, if its key has no tab in it. -/
theorem readLine_buttonLine {b : CustomButton} (hlabel : TidyText b.label) (hkey : 9 ∉ b.key) :
    readLine (buttonLine b) = .button b.reread := by
  have hone : (popCr b.key).splitOn 9 = [popCr b.key] :=
    List.splitOn_eq_singleton (mem_key_reread hkey)
  rw [readLine_buttonLine_key hlabel, hone]
  rfl

/-- A line that opens a preset, whatever it has of the preset's fields. -/
lemma readLine_preset_fields (fs : List (List UInt8)) (htab : ∀ f ∈ fs, 9 ∉ f)
    (hcr : ∀ f ∈ fs, 13 ∉ f) :
    readLine (List.intercalate [9] (ascii "P" :: fs)) =
      .preset { name := sanitizeLabel (fs.getD 0 []), match' := sanitizeLabel (fs.getD 1 []) } := by
  have htab' : ∀ f ∈ ascii "P" :: fs, 9 ∉ f := List.forall_mem_cons.mpr ⟨by decide, htab⟩
  have hcr' : ∀ f ∈ ascii "P" :: fs, 13 ∉ f := List.forall_mem_cons.mpr ⟨by decide, hcr⟩
  obtain ⟨hline, hsplit⟩ := splitOn_fields (c := 80) htab' rfl (by decide)
  dsimp only [readLine]
  rw [popCr_of_not_mem (not_mem_intercalate (by decide) hcr'), if_neg hline, hsplit]
  simp

theorem readLine_presetLine {p : Preset} (h : p.Tidy) :
    readLine (presetLine p) = .preset { p with buttons := [] } := by
  have hread := readLine_preset_fields [p.name, p.match']
    (by simp [h.name_tidy.2.1, h.match_tidy.2.1]) (by simp [h.name_tidy.2.2.2, h.match_tidy.2.2.2])
  rw [presetLine, hread]
  simp [sanitizeLabel_of_tidy h.name_tidy, sanitizeLabel_of_tidy h.match_tidy]

/-- A line that has not got as far as the key is no button. -/
lemma readLine_few_fields (fs : List (List UInt8)) (htab : ∀ f ∈ fs, 9 ∉ f)
    (hcr : ∀ f ∈ fs, 13 ∉ f) (hlen : fs.length < 8) :
    readLine (List.intercalate [9] (ascii "B" :: fs)) = .skipped := by
  have htab' : ∀ f ∈ ascii "B" :: fs, 9 ∉ f := List.forall_mem_cons.mpr ⟨by decide, htab⟩
  have hcr' : ∀ f ∈ ascii "B" :: fs, 13 ∉ f := List.forall_mem_cons.mpr ⟨by decide, hcr⟩
  obtain ⟨hline, hsplit⟩ := splitOn_fields (c := 66) htab' rfl (by decide)
  have hnot : ascii "B" ≠ ascii "P" := by decide
  have hnone : parseButton (ascii "B" :: fs) 1 = none := if_pos (by rw [List.length_cons]; omega)
  dsimp only [readLine]
  rw [popCr_of_not_mem (not_mem_intercalate (by decide) hcr'), if_neg hline, hsplit,
    List.getD_cons_zero, if_neg hnot, if_pos rfl, hnone]
  rfl

/-! ### The loop over what was written -/

/-- A preset as its lines give it back. -/
def Preset.reread (p : Preset) : Preset := { p with buttons := p.buttons.map CustomButton.reread }

def presetLines (p : Preset) : List (List UInt8) := presetLine p :: p.buttons.map buttonLine

lemma readLines_buttons (bs : List CustomButton)
    (hbs : ∀ b ∈ bs, TidyText b.label ∧ 9 ∉ b.key) (rest : List (List UInt8)) (ps : List Preset)
    (p : Preset) {n : ℕ} (hn : n + bs.length ≤ kMaxButtons) :
    readLines (bs.map buttonLine ++ rest) (ps ++ [p]) n =
      readLines rest (ps ++ [{ p with buttons := p.buttons ++ bs.map CustomButton.reread }])
        (n + bs.length) := by
  induction bs generalizing p n with
  | nil => simp
  | cons b bs ih =>
    obtain ⟨hlabel, hkey⟩ := hbs b List.mem_cons_self
    have hbs' := fun c hc => hbs c (List.mem_cons_of_mem _ hc)
    rw [List.length_cons] at hn
    rw [List.map_cons, List.cons_append, readLines, readLine_buttonLine hlabel hkey]
    dsimp only
    have hne : ps ++ [p] ≠ [] := List.append_ne_nil_of_right_ne_nil _ (List.cons_ne_nil _ _)
    have hroom : ¬ n ≥ kMaxButtons := by omega
    rw [if_neg hne, if_neg hroom, pushButton_concat, ih hbs' _ (by omega)]
    simp only [List.append_assoc, List.singleton_append, List.map_cons, List.length_cons]
    congr 1
    omega

/-- **The loop gives back what was written**, but for the carriage returns at the ends of the
keys, as long as neither limit is met. -/
theorem readLines_presets (qs : List Preset) (htidy : ∀ q ∈ qs, q.Tidy)
    (hkeys : ∀ q ∈ qs, ∀ b ∈ q.buttons, 9 ∉ b.key) (ps : List Preset) {n : ℕ}
    (hfew : ps.length + qs.length ≤ kMaxPresets) (hn : n + total qs ≤ kMaxButtons) :
    readLines (qs.flatMap presetLines) ps n = ps ++ qs.map Preset.reread := by
  induction qs generalizing ps n with
  | nil => simp [readLines]
  | cons q qs ih =>
    have hq := htidy q List.mem_cons_self
    rw [total_cons] at hn
    rw [List.length_cons] at hfew
    have hbs : ∀ b ∈ q.buttons, TidyText b.label ∧ 9 ∉ b.key := fun b hb =>
      ⟨hq.labels_tidy b hb, hkeys q List.mem_cons_self b hb⟩
    rw [List.flatMap_cons, presetLines, List.cons_append, readLines, readLine_presetLine hq]
    dsimp only
    rw [if_neg (by omega), readLines_buttons _ hbs _ _ _ (by omega),
      ih (fun p hp => htidy p (List.mem_cons_of_mem _ hp))
        (fun p hp => hkeys p (List.mem_cons_of_mem _ hp)) _ (by simp; omega) (by omega)]
    simp [Preset.reread]

lemma fileLines_eq (presets : List Preset) :
    fileLines presets = header :: presets.flatMap presetLines := rfl

lemma header_clean : 10 ∉ header ∧ 13 ∉ header := by simp [header, ascii]

/-- The first line is a comment, and so is what is left of it where it is cut. -/
lemma readLine_cut_header {rest : List UInt8} (h : rest <+: header) :
    readLine rest = .skipped := by
  have hcr : 13 ∉ rest := fun hm => header_clean.2 (h.subset hm)
  cases rest with
  | nil => rfl
  | cons c rest =>
    have hc : c = 35 := by
      obtain ⟨tail, ht⟩ := h
      exact (List.cons.inj ht).1
    dsimp only [readLine]
    rw [popCr_of_not_mem hcr, if_pos (Or.inr (by rw [hc, List.head?_cons]))]

lemma readLine_header : readLine header = .skipped := readLine_cut_header List.prefix_rfl

/-- What is written is made of whole lines. -/
lemma fileLines_clean (presets : List Preset) (htidy : ∀ p ∈ presets, p.Tidy)
    (hkeys : ∀ p ∈ presets, ∀ b ∈ p.buttons, 10 ∉ b.key) : ∀ l ∈ fileLines presets, 10 ∉ l := by
  intro l hl
  rw [fileLines_eq] at hl
  obtain rfl | hl := List.mem_cons.mp hl
  · exact header_clean.1
  obtain ⟨p, hp, hl⟩ := List.mem_flatMap.mp hl
  have hpt := htidy p hp
  obtain rfl | hl := List.mem_cons.mp hl
  · refine not_mem_intercalate (by decide) ?_
    simp only [List.mem_cons, List.not_mem_nil, or_false]
    rintro f (rfl | rfl | rfl)
    · decide
    · exact hpt.name_tidy.2.2.1
    · exact hpt.match_tidy.2.2.1
  · obtain ⟨b, hb, rfl⟩ := List.mem_map.mp hl
    rw [buttonLine_eq]
    have hfields := not_mem_intercalate (c := 10) (by decide)
      (buttonFields_clean (b := b) (by decide) (hpt.labels_tidy b hb).2.2.1)
    simp [hfields, hkeys p hp b hb]

theorem readLines_fileText {presets : List Preset} (htidy : ∀ p ∈ presets, p.Tidy)
    (hfew : presets.length ≤ kMaxPresets) (htotal : total presets ≤ kMaxButtons)
    (hkeys : ∀ p ∈ presets, ∀ b ∈ p.buttons, 9 ∉ b.key ∧ 10 ∉ b.key) :
    readLines (lines 10 (fileText presets)) [] 0 = presets.map Preset.reread := by
  have hclean := fileLines_clean presets htidy fun p hp b hb => (hkeys p hp b hb).2
  have hlines := lines_unlines_append hclean []
  rw [lines_nil, List.append_nil, List.append_nil] at hlines
  rw [fileText, hlines, fileLines_eq, readLines, readLine_header]
  exact readLines_presets presets htidy (fun p hp b hb => (hkeys p hp b hb).1) []
    (by simpa using hfew) (by simpa using htotal)

/-! ### The round trip -/

/-- A file that holds the presets can be read back. -/
def Loadable (presets : List Preset) : Prop :=
  total presets ≤ kMaxButtons ∧
    ∀ p ∈ presets, ∀ b ∈ p.buttons, 9 ∉ b.key ∧ 10 ∉ b.key ∧ b.key.getLast? ≠ some 13

instance (presets : List Preset) : Decidable (Loadable presets) :=
  inferInstanceAs (Decidable (_ ∧ _))

lemma save_eq_some {s : ButtonStore} {text : List UInt8} (h : s.save = some text) :
    text = fileText s.presets := by
  unfold save at h
  split_ifs at h
  exact (Option.some.inj h).symm

/-- What a store has after it was given a file. -/
lemma presets_load (s : ButtonStore) {externalDir : List UInt8} (h : externalDir ≠ [])
    (text : List UInt8) : (s.load externalDir (some text)).presets =
      if readLines (lines 10 text) [] 0 = [] then s.presets
      else readLines (lines 10 text) [] 0 := by
  rw [load, if_neg h]
  rfl

lemma load_presets {externalDir : List UInt8} (h : externalDir ≠ []) (text : List UInt8) :
    (load {} externalDir (some text)).presets =
      if readLines (lines 10 text) [] 0 = [] then [{}] else readLines (lines 10 text) [] 0 :=
  presets_load {} h text

/-- Only a carriage return at the end of a key can be lost on the way. -/
lemma map_reread_eq {presets : List Preset} : presets.map Preset.reread = presets ↔
    ∀ p ∈ presets, ∀ b ∈ p.buttons, b.key.getLast? ≠ some 13 := by
  have hpop : ∀ key : List UInt8, popCr key = key ↔ key.getLast? ≠ some 13 := fun key => by
    unfold popCr
    constructor
    · intro he hlast
      rw [if_pos hlast] at he
      have hlen := congrArg List.length he
      have hne : key ≠ [] := by rintro rfl; simp at hlast
      have := List.length_pos_iff.mpr hne
      rw [List.length_dropLast] at hlen
      omega
    · exact fun hlast => if_neg hlast
  have hkey : ∀ b : CustomButton, b.reread = b ↔ b.key.getLast? ≠ some 13 := fun b => by
    rw [← hpop, CustomButton.reread, CustomButton.ext_iff]
    simp
  have hmap : ∀ bs : List CustomButton, bs.map CustomButton.reread = bs ↔
      ∀ b ∈ bs, b.key.getLast? ≠ some 13 := fun bs => by
    conv_lhs => rhs; rw [← List.map_id bs]
    rw [List.map_inj_left]
    exact forall₂_congr fun b _ => hkey b
  conv_lhs => rhs; rw [← List.map_id presets]
  rw [List.map_inj_left]
  refine forall₂_congr fun p _ => ?_
  rw [← hmap, id, Preset.reread, Preset.ext_iff]
  simp

/-- What was read from a file could be read back from the next, but for the carriage returns. -/
lemma FromFile.presets_of_load {externalDir : List UInt8} (h : externalDir ≠ [])
    (text : List UInt8) : FromFile (load {} externalDir (some text)).presets := by
  rw [load_presets h]
  split_ifs with hno
  · exact fromFile_nil.snoc fresh_preset_tidy rfl (by decide)
  · exact fromFile_lines text

/-- **The button file loses nothing exactly when it can be read back.** Whatever was done to the
store, a fresh one that loads what was saved has the same presets with the same buttons exactly
when there are at most 256 buttons in all of them together and no key has a tab or a line end in
it or a carriage return at its end. -/
theorem load_save_iff (ops : List Op) {externalDir text : List UInt8} (hdir : externalDir ≠ [])
    (hsave : (run ops).save = some text) :
    (load {} externalDir (some text)).presets = (run ops).presets ↔
      Loadable (run ops).presets := by
  have htidy := run_tidy ops
  have htext := save_eq_some hsave
  constructor
  · intro heq
    have hfile := FromFile.presets_of_load hdir text
    rw [heq] at hfile
    have hread := readLines_fileText htidy.presets_tidy htidy.few hfile.total_le hfile.keys
    have hne : (run ops).presets.map Preset.reread ≠ [] := by
      have := (run ops).current_lt
      intro hnil
      rw [List.map_eq_nil_iff.mp hnil] at this
      exact absurd this (Nat.not_lt_zero _)
    rw [load_presets hdir, htext, hread, if_neg hne, map_reread_eq] at heq
    exact ⟨hfile.total_le, fun p hp b hb =>
      ⟨(hfile.keys p hp b hb).1, (hfile.keys p hp b hb).2, heq p hp b hb⟩⟩
  · rintro ⟨htotal, hkeys⟩
    have hread := readLines_fileText htidy.presets_tidy htidy.few htotal fun p hp b hb =>
      ⟨(hkeys p hp b hb).1, (hkeys p hp b hb).2.1⟩
    rw [map_reread_eq.mpr fun p hp b hb => (hkeys p hp b hb).2.2] at hread
    have hne : (run ops).presets ≠ [] := List.ne_nil_of_length_pos (Nat.zero_lt_of_lt
      (run ops).current_lt)
    rw [load_presets hdir, htext, hread, if_neg hne]

/-- A button for a save icon and one for a shortcut, after the first of two presets was renamed. -/
def someEdits : List Op :=
  [.load (ascii "files") none, .add { label := ascii "save", target := { x := 1600, y := -40 } },
    .rename 0 (ascii "draw\ting"), .create (ascii "code"),
    .add { kind := .shortcut, label := ascii "undo", modifiers := 1, key := ascii "z" }]

theorem load_save_iff_someEdits :
    ascii "files" ≠ [] ∧ (run someEdits).save = some (fileText (run someEdits).presets) ∧
      (load {} (ascii "files") (some (fileText (run someEdits).presets))).presets =
        (run someEdits).presets :=
  ⟨by decide, rfl, (load_save_iff someEdits (by decide) rfl).mpr (by decide)⟩

/-- A shortcut whose key has a tab in it comes back with half its key. -/
theorem tab_in_key_is_cut :
    let s := run [.load (ascii "files") none,
      .add { kind := .shortcut, label := ascii "both", key := ascii "a\tb" }]
    s.save = some (fileText s.presets) ∧
      (load {} (ascii "files") (some (fileText s.presets))).presets ≠ s.presets ∧
      (load {} (ascii "files") (some (fileText s.presets))).buttons =
        [{ kind := .shortcut, label := ascii "both", key := ascii "a" }] :=
  ⟨rfl, by decide, by decide⟩

end Digitiz.ButtonStore
