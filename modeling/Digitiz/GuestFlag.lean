import Digitiz.Settings

/-!
The auto-launch switch as the guest and the host read it.

Both sides cut a line at its first equals sign and trim the two halves, and to both a line with
that key is one whatever blanks stand around it; but where there are several, the host takes the
first and the guest the last. And the file is emptied before it is written, so for a moment the host
finds no such line and takes the switch to be on.
-/

namespace Digitiz

open TextLines

/-- The value a line gives to the key, if it is a line for it. -/
def flagOf (key line : List UInt8) : Option (List UInt8) :=
  (cutAtEq line).bind fun kv => if trim kv.1 = key then some (trim kv.2) else none

/-- The values a file gives to the key, one for each line that has it. -/
def flagValues (key text : List UInt8) : List (List UInt8) := (lines 10 text).filterMap (flagOf key)

/-! ### One line -/

lemma cutAtEq_append {u v : List UInt8} (h : 61 ∉ u) : cutAtEq (u ++ 61 :: v) = some (u, v) := by
  have hall : ∀ c ∈ u, decide (c ≠ 61) = true := fun c hc =>
    decide_eq_true fun he => h (he ▸ hc)
  rw [cutAtEq, if_pos (by simp), List.takeWhile_append_of_pos hall,
    List.dropWhile_append_of_pos hall]
  simp

lemma cutAtEq_cases (line : List UInt8) : 61 ∉ line ∧ cutAtEq line = none ∨
    ∃ u v, 61 ∉ u ∧ line = u ++ 61 :: v := by
  by_cases h : 61 ∈ line
  · obtain ⟨u, v, rfl, hu⟩ := List.eq_append_cons_of_mem h
    exact Or.inr ⟨u, v, hu, rfl⟩
  · exact Or.inl ⟨h, if_neg h⟩

lemma flagOf_append {u v key : List UInt8} (h : 61 ∉ u) :
    flagOf key (u ++ 61 :: v) = if trim u = key then some (trim v) else none := by
  rw [flagOf, cutAtEq_append h]
  rfl

lemma flagOf_eq_none {line key : List UInt8} (h : 61 ∉ line) : flagOf key line = none := by
  rw [flagOf, cutAtEq, if_neg h]
  rfl

/-- The host trims the whole line first, which changes nothing. -/
lemma flagOf_trim (key line : List UInt8) : flagOf key (trim line) = flagOf key line := by
  obtain ⟨h, -⟩ | ⟨u, v, hu, rfl⟩ := cutAtEq_cases line
  · have h' : 61 ∉ trim line := fun hm => h (mem_of_mem_trimBy hm)
    rw [flagOf_eq_none h, flagOf_eq_none h']
  · have hu' : 61 ∉ u.dropWhile isBlank := fun hm => hu ((List.dropWhile_suffix _).subset hm)
    rw [trim, trimBy_append_cons (by decide), flagOf_append hu', flagOf_append hu, trim,
      trimBy_dropWhile, trim, trimBy_rdropWhile]
    rfl

/-- A line the host takes for a comment is none for a key that does not look like one. -/
lemma flagOf_comment {line key : List UInt8} (hkey : key.head? ≠ some 35)
    (h : trim line = [] ∨ (trim line).head? = some 35) : flagOf key line = none := by
  rw [← flagOf_trim]
  obtain h | h := h
  · rw [h]
    rfl
  · obtain ⟨hno, -⟩ | ⟨u, v, hu, hline⟩ := cutAtEq_cases (trim line)
    · exact flagOf_eq_none hno
    · rw [hline, flagOf_append hu]
      refine if_neg fun he => hkey ?_
      cases u with
      | nil =>
        rw [hline] at h
        exact absurd h (by simp)
      | cons c u =>
        rw [hline] at h
        obtain rfl : c = 35 := by simpa using h
        have htrim : trim (35 :: u) = 35 :: u.rdropWhile isBlank := by
          rw [trim, trimBy, List.dropWhile_cons_of_neg (by decide)]
          exact rdropWhile_append_cons (u := []) (by decide)
        rw [← he, htrim, List.head?_cons]

/-! ### Whole files -/

/-- **The host takes the first.** -/
theorem readGuestFlag_eq {key : List UInt8} (hkey : key.head? ≠ some 35) (fallback : Bool)
    (text : List UInt8) : readGuestFlag (some text) key fallback =
      ((flagValues key text).head?.map Settings.isOn).getD fallback := by
  rw [readGuestFlag, flagValues]
  induction lines 10 text with
  | nil => rfl
  | cons line rest ih =>
    dsimp only [readFlagLines]
    split_ifs with hskip
    · rw [ih, List.filterMap_cons_none (flagOf_comment hkey hskip)]
    · have htrim := flagOf_trim key line
      obtain ⟨hno, hcut⟩ | ⟨u, v, hu, hline⟩ := cutAtEq_cases (trim line)
      · rw [flagOf_eq_none hno] at htrim
        rw [hcut, List.filterMap_cons_none htrim.symm]
        exact ih
      · rw [hline, flagOf_append hu] at htrim
        rw [hline, cutAtEq_append hu]
        dsimp only
        split_ifs at htrim ⊢ with hname
        · rw [List.filterMap_cons_some htrim.symm]
          rfl
        · rw [List.filterMap_cons_none htrim.symm]
          exact ih

variable {F : Type*} [FloatText F]

lemma Settings.readLine_autoLaunch (s : Settings F) (line : List UInt8) :
    (s.readLine line).autoLaunch =
      ((flagOf kAutoLaunchKey line).map Settings.isOn).getD s.autoLaunch := by
  obtain ⟨hno, hcut⟩ | ⟨u, v, hu, rfl⟩ := cutAtEq_cases line
  · rw [Settings.readLine, hcut, flagOf_eq_none hno]
    rfl
  · rw [Settings.readLine, cutAtEq_append hu, flagOf_append hu]
    dsimp only
    by_cases hname : trim u = kAutoLaunchKey
    · rw [Settings.set, if_pos hname, if_pos hname]
      rfl
    · rw [Settings.set, if_neg hname, if_neg hname]
      split_ifs <;> rfl

/-- **The guest takes the last.** -/
theorem Settings.foldl_autoLaunch (s : Settings F) (ls : List (List UInt8)) :
    (ls.foldl Settings.readLine s).autoLaunch =
      ((ls.filterMap (flagOf kAutoLaunchKey)).getLast?.map Settings.isOn).getD s.autoLaunch := by
  induction ls generalizing s with
  | nil => rfl
  | cons line rest ih =>
    rw [List.foldl_cons, ih, s.readLine_autoLaunch]
    cases hflag : flagOf kAutoLaunchKey line with
    | none => rw [List.filterMap_cons_none hflag]; rfl
    | some value =>
      rw [List.filterMap_cons_some hflag, List.getLast?_cons]
      cases (rest.filterMap (flagOf kAutoLaunchKey)).getLast? <;> rfl

/-- The host's question. -/
def autoLaunchFlag (text : List UInt8) : Bool := readGuestFlag (some text) kAutoLaunchKey true

lemma autoLaunchFlag_eq (text : List UInt8) : autoLaunchFlag text =
    ((flagValues kAutoLaunchKey text).head?.map Settings.isOn).getD true :=
  readGuestFlag_eq (by decide) true text

lemma load_autoLaunch {externalDir : List UInt8} (h : externalDir ≠ []) (text : List UInt8) :
    (Settings.load ({} : Settings F) externalDir (some text)).1.autoLaunch =
      ((flagValues kAutoLaunchKey text).getLast?.map Settings.isOn).getD true := by
  rw [Settings.load, if_neg h]
  exact Settings.foldl_autoLaunch _ _

/-- The first and the last line for the switch say the same. -/
def EndsAgree (text : List UInt8) : Prop :=
  ∀ v w, (flagValues kAutoLaunchKey text).head? = some v →
    (flagValues kAutoLaunchKey text).getLast? = some w → (v = ascii "0" ↔ w = ascii "0")

lemma isOn_eq_iff (v w : List UInt8) :
    Settings.isOn v = Settings.isOn w ↔ (v = ascii "0" ↔ w = ascii "0") := by
  unfold Settings.isOn
  by_cases hv : v = ascii "0" <;> by_cases hw : w = ascii "0" <;> simp [hv, hw]

lemma same_reading_iff {externalDir : List UInt8} (h : externalDir ≠ []) (text : List UInt8) :
    autoLaunchFlag text =
      (Settings.load ({} : Settings F) externalDir (some text)).1.autoLaunch ↔ EndsAgree text := by
  rw [autoLaunchFlag_eq, load_autoLaunch h, EndsAgree]
  cases hvs : flagValues kAutoLaunchKey text with
  | nil => simp
  | cons v vs =>
    obtain ⟨w, hw⟩ : ∃ w, (v :: vs).getLast? = some w :=
      ⟨_, List.getLast?_eq_getLast_of_ne_nil (List.cons_ne_nil v vs)⟩
    rw [hw, List.head?_cons, Option.map_some, Option.map_some, Option.getD_some, Option.getD_some,
      isOn_eq_iff]
    simp

/-! ### While the file is written -/

/-- The lines up to the one with the switch. -/
def firstLines (on : Bool) : List (List UInt8) :=
  [ascii "# digitiz guest settings", Settings.line kAutoLaunchKey (Settings.bit on)]

lemma Settings.fileText_eq (s : Settings F) :
    ∃ more, s.fileText = unlines 10 (firstLines s.autoLaunch) ++ more := by
  obtain ⟨ls, hls⟩ : ∃ ls, s.fileText = unlines 10 (firstLines s.autoLaunch ++ ls) := ⟨_, rfl⟩
  exact ⟨unlines 10 ls, hls.trans List.flatMap_append⟩

/-- Once the line is there the host reads it, whatever comes after. -/
lemma autoLaunchFlag_firstLines (on : Bool) (more : List UInt8) :
    autoLaunchFlag (unlines 10 (firstLines on) ++ more) = on := by
  have hclean : ∀ l ∈ firstLines on, 10 ∉ l := by cases on <;> decide
  have hvalues : (firstLines on).filterMap (flagOf kAutoLaunchKey) = [Settings.bit on] := by
    cases on <;> decide
  rw [autoLaunchFlag_eq, flagValues, lines_unlines_append hclean, List.filterMap_append, hvalues]
  cases on <;> rfl

/-- The beginning of the line says nothing, or that the switch is on, or what the line says. -/
lemma flagOf_cut {on : Bool} {rest : List UInt8}
    (h : rest <+: Settings.line kAutoLaunchKey (Settings.bit on)) :
    ((flagOf kAutoLaunchKey rest).map Settings.isOn).getD true = true ∨
      ((flagOf kAutoLaunchKey rest).map Settings.isOn).getD true = on := by
  obtain ⟨hno, -⟩ | ⟨u, v, hu, rfl⟩ := cutAtEq_cases rest
  · rw [flagOf_eq_none hno]
    exact Or.inl rfl
  · -- the key is whole, and the value is there or not
    obtain ⟨tail, htail⟩ := h
    have hcut : cutAtEq (u ++ 61 :: (v ++ tail)) = some (kAutoLaunchKey, Settings.bit on) := by
      rw [← List.cons_append, ← List.append_assoc, htail]
      cases on <;> decide
    rw [cutAtEq_append hu] at hcut
    obtain ⟨rfl, hv⟩ := Prod.mk.inj (Option.some.inj hcut)
    rw [flagOf_append hu, if_pos (by decide)]
    have hv' : v <+: Settings.bit on := ⟨tail, hv⟩
    obtain rfl | rfl : v = [] ∨ v = Settings.bit on := by
      cases on <;> exact eq_of_prefix_singleton hv'
    · exact Or.inl rfl
    · exact Or.inr (by cases on <;> decide)

/-- Before the line is there the switch seems to be on. -/
lemma autoLaunchFlag_cut {on : Bool} {text : List UInt8}
    (h : text <+: unlines 10 (firstLines on)) :
    autoLaunchFlag text = true ∨ autoLaunchFlag text = on := by
  obtain ⟨k, rest, rfl, hk, hrest⟩ := prefix_unlines h
  obtain _ | _ | _ | k := k
  · have hclean : 10 ∉ rest := fun hm => absurd (hrest.subset hm) (by cases on <;> decide)
    have hno : 61 ∉ rest := fun hm => absurd (hrest.subset hm) (by cases on <;> decide)
    rw [autoLaunchFlag_eq, flagValues, List.take_zero, lines_unlines_rest (by simp) hclean]
    left
    split_ifs
    · rfl
    · rw [List.nil_append, List.filterMap_cons_none (flagOf_eq_none hno)]
      rfl
  · have hclean : 10 ∉ rest := fun hm => absurd (hrest.subset hm) (by cases on <;> decide)
    have hfirst : (firstLines on).take 1 = [ascii "# digitiz guest settings"] := rfl
    rw [autoLaunchFlag_eq, flagValues, hfirst, lines_unlines_rest (by decide) hclean,
      List.filterMap_append, List.filterMap_cons_none (by decide)]
    split_ifs with hnil
    · exact Or.inl rfl
    · have hcut := flagOf_cut hrest
      cases hflag : flagOf kAutoLaunchKey rest with
      | none =>
        rw [List.filterMap_cons_none hflag]
        exact Or.inl rfl
      | some value =>
        rw [hflag] at hcut
        rw [List.filterMap_cons_some hflag]
        exact hcut
  · exact Or.inr (autoLaunchFlag_firstLines on rest)
  · simp only [firstLines, List.length_cons, List.length_nil] at hk
    omega

/-- **At any moment of a save** the host finds the switch on or as it is being written. -/
theorem autoLaunchFlag_prefix (s : Settings F) {text : List UInt8} (h : text <+: s.fileText) :
    autoLaunchFlag text = true ∨ autoLaunchFlag text = s.autoLaunch := by
  obtain ⟨more, hmore⟩ := s.fileText_eq
  rw [hmore] at h
  obtain hlt | hge := le_total text.length (unlines 10 (firstLines s.autoLaunch)).length
  · exact autoLaunchFlag_cut (List.prefix_of_prefix_length_le h (List.prefix_append _ _) hlt)
  · obtain ⟨rest, rfl⟩ := List.prefix_of_prefix_length_le (List.prefix_append _ more) h hge
    exact Or.inr (autoLaunchFlag_firstLines _ rest)

/-- Of all the changes only one touches the switch. -/
lemma Settings.apply_cases (s : Settings F) (change : Settings.Change F) {text : List UInt8}
    (h : (s.apply change).2 = some text) : text = (s.apply change).1.fileText ∧
      ((s.apply change).1.autoLaunch = s.autoLaunch ∨
        change = .autoLaunch (s.apply change).1.autoLaunch) := by
  have hsave : ∀ t : Settings F, t.save = some text → text = t.fileText := fun t ht => by
    unfold Settings.save at ht
    split_ifs at ht
    exact (Option.some.inj ht).symm
  cases change with
  | load externalDir file =>
    simp only [Settings.apply, Settings.load] at h ⊢
    split_ifs at h ⊢
    cases file with
    | none => exact ⟨hsave _ h, Or.inl rfl⟩
    | some content => exact absurd h (by simp)
  | throttle intervalMs distanceDp =>
    simp only [Settings.apply, Settings.setThrottle] at h ⊢
    split_ifs at h ⊢
    exact ⟨hsave _ h, Or.inl rfl⟩
  | strip vertical expanded =>
    simp only [Settings.apply, Settings.setStrip] at h ⊢
    split_ifs at h ⊢
    exact ⟨hsave _ h, Or.inl rfl⟩
  | stripSlots slots =>
    simp only [Settings.apply, Settings.setStripSlots] at h ⊢
    split_ifs at h ⊢
    exact ⟨hsave _ h, Or.inl rfl⟩
  | screenEnabled on =>
    simp only [Settings.apply, Settings.setScreenEnabled] at h ⊢
    split_ifs at h ⊢
    exact ⟨hsave _ h, Or.inl rfl⟩
  | stylusOnly on =>
    simp only [Settings.apply, Settings.setStylusOnly] at h ⊢
    split_ifs at h ⊢
    exact ⟨hsave _ h, Or.inl rfl⟩
  | autoLaunch on =>
    simp only [Settings.apply, Settings.setAutoLaunch] at h ⊢
    split_ifs at h ⊢
    exact ⟨hsave _ h, Or.inr rfl⟩

lemma Settings.setAutoLaunch_autoLaunch (s : Settings F) (on : Bool) :
    (s.setAutoLaunch on).1.autoLaunch = on := by
  unfold Settings.setAutoLaunch
  split_ifs with h
  · exact h
  · rfl

lemma save_reading_iff (s : Settings F) (change : Settings.Change F) {text : List UInt8}
    (h : (s.apply change).2 = some text) :
    (∀ seen, seen <+: text → autoLaunchFlag seen = s.autoLaunch ∨
        autoLaunchFlag seen = (s.apply change).1.autoLaunch) ↔
      s.autoLaunch = true ∨ change = .autoLaunch true := by
  obtain ⟨htext, hkeeps⟩ := s.apply_cases change h
  constructor
  · intro hall
    -- the file has just been emptied
    have hempty : autoLaunchFlag [] = true := rfl
    have h0 := hall [] List.nil_prefix
    rw [hempty] at h0
    obtain hold | hnew := h0
    · exact Or.inl hold.symm
    · obtain hsame | hchange := hkeeps
      · exact Or.inl (hsame.symm.trans hnew.symm)
      · rw [← hnew] at hchange
        exact Or.inr hchange
  · intro hon seen hseen
    rw [htext] at hseen
    obtain htrue | hnew := autoLaunchFlag_prefix _ hseen
    · obtain hold | rfl := hon
      · exact Or.inl (htrue.trans hold.symm)
      · exact Or.inr (htrue.trans (s.setAutoLaunch_autoLaunch true).symm)
    · exact Or.inr hnew

/-- **The switch as both sides read it.** On every content of the file the host reads what the
guest reads exactly when the first and the last line for the switch say the same; and at every
moment of every save the host reads the old value or the new one exactly when the switch was on
before or is being switched on. -/
theorem auto_launch_read_iff {externalDir : List UInt8} (hdir : externalDir ≠ []) :
    (∀ content, readGuestFlag (some content) kAutoLaunchKey true =
        (Settings.load ({} : Settings F) externalDir (some content)).1.autoLaunch ↔
      EndsAgree content) ∧
    ∀ (s : Settings F) (change : Settings.Change F) (text : List UInt8),
      (s.apply change).2 = some text →
        ((∀ seen, seen <+: text → readGuestFlag (some seen) kAutoLaunchKey true = s.autoLaunch ∨
            readGuestFlag (some seen) kAutoLaunchKey true = (s.apply change).1.autoLaunch) ↔
          s.autoLaunch = true ∨ change = .autoLaunch true) :=
  ⟨fun content => same_reading_iff hdir content, fun s change _ h => save_reading_iff s change h⟩

/-- Distances without a fraction, which print and read like integers. -/
instance : FloatText ℤ where
  zero := 0
  same a b := a = b
  atof := strtol
  print := decimal

/-- The settings of a first run, and the switch turned off then. -/
theorem auto_launch_read_iff_turned_off :
    let s := (Settings.load ({} : Settings ℤ) (ascii "files") none).1
    readGuestFlag (some s.fileText) kAutoLaunchKey true =
        (Settings.load ({} : Settings ℤ) (ascii "files") (some s.fileText)).1.autoLaunch ∧
      (s.apply (.autoLaunch false)).2 = some (s.apply (.autoLaunch false)).1.fileText ∧
      ∀ seen, seen <+: (s.apply (.autoLaunch false)).1.fileText →
        readGuestFlag (some seen) kAutoLaunchKey true = s.autoLaunch ∨
          readGuestFlag (some seen) kAutoLaunchKey true =
            (s.apply (.autoLaunch false)).1.autoLaunch := by
  intro s
  have hdir : ascii "files" ≠ [] := by decide
  have hrule := auto_launch_read_iff (F := ℤ) hdir
  have hsave : (s.apply (.autoLaunch false)).2 =
      some (s.apply (.autoLaunch false)).1.fileText := rfl
  refine ⟨(hrule.1 s.fileText).mpr ?_, hsave, (hrule.2 s _ _ hsave).mpr (Or.inl rfl)⟩
  have hvalues : flagValues kAutoLaunchKey s.fileText = [ascii "1"] := by decide
  intro v w hv hw
  rw [hvalues] at hv hw
  rw [← Option.some.inj hv, ← Option.some.inj hw]
  exact Iff.rfl

/-- The switch is off, the stylus setting is changed, and the host looks when the file has just
been emptied; and a file with two lines for the switch. -/
theorem switch_off_seen_on :
    let s : Settings ℤ := { path := ascii "files/settings.txt", autoLaunch := false }
    let twice := ascii "auto_launch=1\nauto_launch=0\n"
    (s.apply (.stylusOnly true)).2 = some (s.apply (.stylusOnly true)).1.fileText ∧
      [] <+: (s.apply (.stylusOnly true)).1.fileText ∧
      readGuestFlag (some []) kAutoLaunchKey true ≠ s.autoLaunch ∧
      readGuestFlag (some []) kAutoLaunchKey true ≠ (s.apply (.stylusOnly true)).1.autoLaunch ∧
      readGuestFlag (some twice) kAutoLaunchKey true ≠
        (Settings.load ({} : Settings ℤ) (ascii "files") (some twice)).1.autoLaunch := by
  refine ⟨rfl, List.nil_prefix, ?_, ?_, ?_⟩ <;> decide

end Digitiz
