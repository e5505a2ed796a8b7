import Digitiz.ButtonFile
import Digitiz.MessageCodecs

/-!
A preset bound to a program.

The name of the program comes in a field of 64 bytes and is kept in one of 24. It is compared as a
whole, without regard to case. After a save it is found again in the file, as long as the presets
before it in the file are all read.
-/

namespace Digitiz.ButtonStore

open TextLines

/-! ### Names of programs -/

/-- `std::tolower` in the locale a program starts in. -/
def tolower (c : UInt8) : UInt8 := if 65 ≤ c ∧ c ≤ 90 then c + 32 else c

def iequals (a b : List UInt8) : Bool :=
  if a.length ≠ b.length then false
  else (a.zip b).all fun c => tolower c.1 = tolower c.2

/-- Two names are equal but for the case of their letters. -/
lemma iequals_iff {a b : List UInt8} : iequals a b = true ↔ a.map tolower = b.map tolower := by
  unfold iequals
  split_ifs with hlen
  · refine iff_of_false id fun h => hlen ?_
    simpa using congrArg List.length h
  · rw [not_not] at hlen
    induction a generalizing b with
    | nil =>
      obtain rfl := List.length_eq_zero_iff.mp hlen.symm
      simp
    | cons c a ih =>
      cases b with
      | nil => simp at hlen
      | cons d b => simp [ih (Nat.succ.inj hlen)]

lemma iequals_length {a b : List UInt8} (h : iequals a b = true) : a.length = b.length := by
  simpa using congrArg List.length (iequals_iff.mp h)

lemma iequals_congr {a b m : List UInt8} (h : iequals a b = true) : iequals m a = iequals m b := by
  rw [Bool.eq_iff_iff, iequals_iff, iequals_iff, iequals_iff.mp h]

/-- A preset with that match asks for the program. -/
def asksFor (match' process : List UInt8) : Bool := match' ≠ [] && iequals match' process

/-- Which preset asks for this program, or -1. -/
def presetFor (s : ButtonStore) (process : List UInt8) : ℤ :=
  if process = [] then -1
  else
    match s.presets.findIdx? fun p => asksFor p.match' process with
    | some i => i
    | none => -1

/-- The programs the presets ask for. -/
def programs (s : ButtonStore) : List (List UInt8) := s.presets.map Preset.match'

variable {s t : ButtonStore} {process : List UInt8}

lemma presetFor_eq (h : process ≠ []) : s.presetFor process =
    match s.programs.findIdx? fun m => asksFor m process with
    | some i => (i : ℤ)
    | none => -1 := by
  rw [presetFor, if_neg h, programs, List.findIdx?_map]
  rfl

/-- The first preset that asks for the program. -/
lemma presetFor_eq_iff {i : ℕ} (h : process ≠ []) : s.presetFor process = i ↔
    (∃ m, s.programs[i]? = some m ∧ asksFor m process = true) ∧
      ∀ j < i, ∀ m, s.programs[j]? = some m → asksFor m process = false := by
  rw [presetFor_eq h]
  have hfind : s.programs.findIdx? (fun m => asksFor m process) = some i ↔
      (∃ m, s.programs[i]? = some m ∧ asksFor m process = true) ∧
        ∀ j < i, ∀ m, s.programs[j]? = some m → asksFor m process = false := by
    rw [List.findIdx?_eq_some_iff_getElem]
    constructor
    · rintro ⟨hi, hask, hno⟩
      refine ⟨⟨_, List.getElem?_eq_getElem hi, hask⟩, fun j hj m hm => ?_⟩
      obtain ⟨_, rfl⟩ := List.getElem?_eq_some_iff.mp hm
      exact Bool.not_eq_true _ ▸ hno j hj
    · rintro ⟨⟨m, hm, hask⟩, hno⟩
      obtain ⟨hi, rfl⟩ := List.getElem?_eq_some_iff.mp hm
      exact ⟨hi, hask, fun j hj => Bool.not_eq_true _ ▸ hno j hj _ (List.getElem?_eq_getElem _)⟩
  rw [← hfind]
  cases s.programs.findIdx? fun m => asksFor m process with
  | none => simp
  | some k => simp

/-! ### What can arrive -/

/-- A name as a message can bring it. -/
structure Arrives (process : List UInt8) : Prop where
  ne_nil : process ≠ []
  fits : process.length ≤ kProcessNameBytes
  no_control : ∀ c ∈ process, 32 ≤ c

/-- The message that brings it. -/
lemma Arrives.decode (h : Arrives process) (pid : UInt32) :
    ActiveWindow.decode (ActiveWindow.payload { pid, process }) = some { pid, process } := by
  have h0 : 0 ∉ process := fun hm => absurd (h.no_control 0 hm) (by decide)
  exact ActiveWindow.strict.lossless _ ⟨h.fits, h0⟩

lemma Arrives.tidy (h : Arrives process) (hlen : process.length ≤ 24) : TidyText process := by
  have hnot : ∀ c : UInt8, c < 32 → c ∉ process := fun c hc hm =>
    absurd (h.no_control c hm) (UInt8.not_le.mpr hc)
  exact ⟨hlen, hnot 9 (by decide), hnot 10 (by decide), hnot 13 (by decide)⟩

/-! ### What the file keeps of the programs -/

/-- The presets of which the file is read as far as the line that opens them. -/
def reached : ℕ → List Preset → List Preset
  | _, [] => []
  | n, q :: qs =>
    if n + q.buttons.length ≤ kMaxButtons then q :: reached (n + q.buttons.length) qs else [q]

lemma reached_initial (n : ℕ) (qs : List Preset) : reached n qs <+: qs := by
  induction qs generalizing n with
  | nil => exact List.prefix_rfl
  | cons q qs ih =>
    rw [reached]
    split_ifs
    · exact (List.prefix_cons_inj q).mpr (ih _)
    · exact ⟨qs, rfl⟩

/-- Every preset is reached when the ones before the last leave room for no more than they have. -/
lemma reached_eq_iff (qs : List Preset) (n : ℕ) (hne : qs ≠ []) (hn : n ≤ kMaxButtons) :
    reached n qs = qs ↔ n + total qs.dropLast ≤ kMaxButtons := by
  induction qs generalizing n with
  | nil => contradiction
  | cons q qs ih =>
    rw [reached]
    by_cases hqs : qs = []
    · subst hqs
      have hnone : n + total [q].dropLast ≤ kMaxButtons := hn
      refine iff_of_true ?_ hnone
      split_ifs <;> rfl
    · rw [List.dropLast_cons_of_ne_nil hqs, total_cons, ← Nat.add_assoc]
      split_ifs with hroom
      · rw [List.cons_inj_right, ih _ hqs hroom]
      · refine iff_of_false (fun h => hqs (List.cons.inj h).2.symm) ?_
        omega

/-- The buttons of a preset, as far as they are read. Whatever becomes of them, the preset keeps
its program. -/
lemma readLines_buttons_program (bs : List CustomButton) (hbs : ∀ b ∈ bs, TidyText b.label)
    (rest : List (List UInt8)) (ps : List Preset) (p : Preset) (n : ℕ) :
    ∃ q : Preset, q.match' = p.match' ∧
      readLines (bs.map buttonLine ++ rest) (ps ++ [p]) n =
        if n + bs.length ≤ kMaxButtons ∨ bs = [] then readLines rest (ps ++ [q]) (n + bs.length)
        else ps ++ [q] := by
  induction bs generalizing p n with
  | nil => exact ⟨p, rfl, by simp⟩
  | cons b bs ih =>
    have hne : ps ++ [p] ≠ [] := List.append_ne_nil_of_right_ne_nil _ (List.cons_ne_nil _ _)
    rw [List.map_cons, List.cons_append, readLines,
      readLine_buttonLine_key (hbs b List.mem_cons_self)]
    dsimp only
    rw [if_neg hne, pushButton_concat]
    by_cases hfull : n ≥ kMaxButtons
    · refine ⟨p, rfl, ?_⟩
      rw [if_pos hfull, if_neg]
      simp only [List.length_cons, reduceCtorEq, or_false]
      omega
    · obtain ⟨q, hq, hread⟩ := ih (fun c hc => hbs c (List.mem_cons_of_mem _ hc))
        { p with buttons := p.buttons ++ [{ b with key := ((popCr b.key).splitOn 9).headD [] }] }
        (n + 1)
      refine ⟨q, hq, ?_⟩
      rw [if_neg hfull, hread, List.length_cons, Nat.add_assoc, Nat.add_comm 1]
      simp only [reduceCtorEq, or_false]
      refine if_congr ?_ rfl rfl
      constructor
      · rintro (h | rfl)
        · exact h
        · simp only [List.length_nil]
          omega
      · exact Or.inl

/-- **The programs come back** with the presets that are reached. -/
theorem readLines_programs (qs : List Preset) (htidy : ∀ q ∈ qs, q.Tidy) (ps : List Preset)
    {n : ℕ} (hn : n ≤ kMaxButtons) (hfew : ps.length + qs.length ≤ kMaxPresets) :
    (readLines (qs.flatMap presetLines) ps n).map Preset.match' =
      ps.map Preset.match' ++ (reached n qs).map Preset.match' := by
  induction qs generalizing ps n with
  | nil => simp [readLines, reached]
  | cons q qs ih =>
    have hq := htidy q List.mem_cons_self
    rw [List.length_cons] at hfew
    rw [List.flatMap_cons, presetLines, List.cons_append, readLines, readLine_presetLine hq]
    dsimp only
    rw [if_neg (by omega)]
    obtain ⟨p, hp, hread⟩ := readLines_buttons_program q.buttons hq.labels_tidy
      (qs.flatMap presetLines) ps { q with buttons := [] } n
    rw [hread, reached]
    have hcond : n + q.buttons.length ≤ kMaxButtons ∨ q.buttons = [] ↔
        n + q.buttons.length ≤ kMaxButtons := by
      refine or_iff_left_of_imp fun hnil => ?_
      rw [hnil]
      exact hn
    simp only [hcond]
    split_ifs with hroom
    · rw [ih (fun r hr => htidy r (List.mem_cons_of_mem _ hr)) _ hroom (by simp; omega)]
      simp [hp]
    · simp [hp]

/-- **The programs in the file.** A store that loads what another saved asks for the programs of
the presets that are reached. -/
theorem load_programs (h : s.Tidy)
    (hkeys : ∀ p ∈ s.presets, ∀ b ∈ p.buttons, 10 ∉ b.key) {externalDir : List UInt8}
    (hdir : externalDir ≠ []) :
    (t.load externalDir (some (fileText s.presets))).programs =
      (reached 0 s.presets).map Preset.match' := by
  have hlines := lines_unlines_append (fileLines_clean s.presets h.presets_tidy hkeys) []
  rw [lines_nil, List.append_nil, List.append_nil] at hlines
  have hread : (readLines (lines 10 (fileText s.presets)) [] 0).map Preset.match' =
      (reached 0 s.presets).map Preset.match' := by
    rw [fileText, hlines, fileLines_eq, readLines, readLine_header]
    simpa using readLines_programs s.presets h.presets_tidy [] (Nat.zero_le _)
      (by simpa using h.few)
  have hsome : readLines (lines 10 (fileText s.presets)) [] 0 ≠ [] := by
    intro hnil
    rw [hnil, List.map_nil, eq_comm, List.map_eq_nil_iff] at hread
    obtain ⟨q, qs, hq⟩ := List.exists_cons_of_ne_nil
      (List.ne_nil_of_length_pos (Nat.zero_lt_of_lt s.current_lt))
    rw [hq, reached] at hread
    split_ifs at hread
  rw [programs, presets_load t hdir, if_neg hsome, hread]

/-! ### Binding a preset -/

/-- In `t` preset `i` is found for the program, however its name is capitalised, and the other
presets ask for what they asked for in `s`. -/
structure Bound (s t : ButtonStore) (i : ℕ) (process : List UInt8) : Prop where
  found : ∀ q, iequals q process = true → t.presetFor q = i
  others : ∀ j ≠ i, t.programs[j]? = s.programs[j]?

/-- Preset `i` is bound to the program at once, and in every store that then loads the file. -/
def FindsAgain (s : ButtonStore) (i : ℤ) (process : List UInt8) : Prop :=
  Bound s (s.setMatch i process).1 i.toNat process ∧
    ∀ (t : ButtonStore) (externalDir text : List UInt8), externalDir ≠ [] →
      (s.setMatch i process).2 = some text →
      Bound s (t.load externalDir (some text)) i.toNat process

/-- No preset before that one asks for the program already. -/
def FirstFor (s : ButtonStore) (i : ℤ) (process : List UInt8) : Prop :=
  ∀ j < i.toNat, ∀ m, s.programs[j]? = some m → asksFor m process = false

lemma Bound.congr {t' : ButtonStore} {i : ℕ} (ht : t'.programs = t.programs)
    (h : Bound s t i process) (hne : process ≠ []) : Bound s t' i process := by
  refine ⟨fun q hq => ?_, fun j hj => ht ▸ h.others j hj⟩
  have hq0 : q ≠ [] := by
    rintro rfl
    exact hne (List.length_eq_zero_iff.mp (iequals_length hq).symm)
  rw [presetFor_eq hq0, ht, ← presetFor_eq hq0]
  exact h.found q hq

section setMatch

variable {i : ℤ}

lemma setMatch_valid (hv : s.validPreset i) : s.setMatch i process =
    (s.modifyPreset i.toNat fun p => { p with match' := sanitizeLabel process }).saved :=
  if_neg (not_not.mpr hv)

lemma setMatch_programs (hv : s.validPreset i) :
    (s.setMatch i process).1.programs = s.programs.set i.toNat (sanitizeLabel process) := by
  rw [setMatch_valid hv]
  change (s.presets.modify i.toNat _).map Preset.match' = _
  refine List.ext_getElem? fun j => ?_
  rw [List.getElem?_map, List.getElem?_modify, programs, List.getElem?_set, List.length_map,
    List.getElem?_map]
  split_ifs with hj hlt
  · subst hj
    rw [List.getElem?_eq_getElem hlt]
    rfl
  · exact absurd (hj ▸ hv.2) hlt
  · simp

lemma length_programs : s.programs.length = s.presets.length := List.length_map _

/-- The name is found where it was put exactly when it was put there whole. -/
lemma setMatch_bound_iff (hv : s.validPreset i) (hp : Arrives process)
    (hfirst : s.FirstFor i process) :
    Bound s (s.setMatch i process).1 i.toNat process ↔ process.length ≤ 24 := by
  have hat : (s.setMatch i process).1.programs[i.toNat]? = some (sanitizeLabel process) := by
    rw [setMatch_programs hv, List.getElem?_set_self (length_programs ▸ hv.2)]
  constructor
  · intro h
    have hself : iequals process process = true := iequals_iff.mpr rfl
    obtain ⟨⟨m, hm, hask⟩, -⟩ := (presetFor_eq_iff hp.ne_nil).mp (h.found process hself)
    obtain rfl := Option.some.inj (hat.symm.trans hm)
    rw [← iequals_length (Bool.and_eq_true_iff.mp hask).2]
    exact (sanitizeLabel_tidy process).1
  · intro hlen
    have hkept : sanitizeLabel process = process := sanitizeLabel_of_tidy (hp.tidy hlen)
    refine ⟨fun q hq => ?_, fun j hj => ?_⟩
    · have hq0 : q ≠ [] := by
        rintro rfl
        exact hp.ne_nil (List.length_eq_zero_iff.mp (iequals_length hq).symm)
      refine (presetFor_eq_iff hq0).mpr ⟨⟨_, hat, ?_⟩, fun j hj m hm => ?_⟩
      · have hne := hp.ne_nil
        rw [hkept, asksFor, iequals_congr hq]
        simpa [hne] using iequals_iff.mpr rfl
      · rw [setMatch_programs hv, List.getElem?_set_ne hj.ne'] at hm
        rw [asksFor, iequals_congr hq]
        exact hfirst j hj m hm
    · rw [setMatch_programs hv, List.getElem?_set_ne hj.symm]

/-- Setting a match changes no number of buttons. -/
lemma total_setMatch (hv : s.validPreset i) :
    total (s.setMatch i process).1.presets.dropLast = total s.presets.dropLast := by
  have hbuttons : (s.setMatch i process).1.presets.map Preset.buttons =
      s.presets.map Preset.buttons := by
    rw [setMatch_valid hv]
    change (s.presets.modify i.toNat _).map Preset.buttons = _
    refine List.ext_getElem? fun j => ?_
    rw [List.getElem?_map, List.getElem?_modify, List.getElem?_map]
    split_ifs <;> cases s.presets[j]? <;> rfl
  have htotal : ∀ ps : List Preset,
      total ps.dropLast = ((ps.map Preset.buttons).dropLast.map List.length).sum := fun ps => by
    rw [total, List.map_dropLast, List.map_dropLast, List.map_map]
    rfl
  rw [htotal, htotal, hbuttons]

lemma setMatch_keys (hv : s.validPreset i)
    (hkeys : ∀ p ∈ s.presets, ∀ b ∈ p.buttons, (10 : UInt8) ∉ b.key) :
    ∀ p ∈ (s.setMatch i process).1.presets, ∀ b ∈ p.buttons, (10 : UInt8) ∉ b.key := by
  rw [setMatch_valid hv]
  exact forall_mem_modify hkeys fun p hp => hkeys p (List.mem_of_getElem? hp)

/-- A store that loads the file finds the preset again exactly when all of them are reached. -/
lemma load_bound_iff (hv : s.validPreset i) (hp : Arrives process)
    (hbound : Bound s (s.setMatch i process).1 i.toNat process)
    (hload : t.programs = (reached 0 (s.setMatch i process).1.presets).map Preset.match') :
    Bound s t i.toNat process ↔
      reached 0 (s.setMatch i process).1.presets = (s.setMatch i process).1.presets := by
  constructor
  · intro h
    have hlen : s.presets.length ≤ t.programs.length := by
      by_contra hlt
      obtain hlast | hlast := eq_or_ne (t.programs.length) i.toNat
      · have hself : iequals process process = true := iequals_iff.mpr rfl
        obtain ⟨⟨m, hm, -⟩, -⟩ := (presetFor_eq_iff hp.ne_nil).mp (h.found process hself)
        obtain ⟨hi, -⟩ := List.getElem?_eq_some_iff.mp hm
        omega
      · have hother := h.others _ hlast
        rw [List.getElem?_eq_none le_rfl, eq_comm, List.getElem?_eq_none_iff,
          length_programs] at hother
        omega
    rw [hload, List.length_map] at hlen
    refine (reached_initial 0 _).eq_of_length_le ?_
    refine le_trans (le_of_eq ?_) hlen
    rw [← length_programs, setMatch_programs hv, List.length_set, length_programs]
  · intro hall
    rw [hall] at hload
    exact hbound.congr hload hp.ne_nil

/-- **Binding a preset to a program.** It is found again under that name exactly when the name has
at most 24 bytes. When it has, and no key of a button has a line end in it, it is also found again
in the file exactly when the presets before the last have at most 256 buttons between them, or
there is no file. -/
theorem setMatch_findsAgain_iff (ops : List Op) (i : ℤ) (process : List UInt8)
    (hv : (run ops).validPreset i) (hp : Arrives process)
    (hfirst : (run ops).FirstFor i process) :
    (Bound (run ops) ((run ops).setMatch i process).1 i.toNat process ↔ process.length ≤ 24) ∧
      ((∀ p ∈ (run ops).presets, ∀ b ∈ p.buttons, 10 ∉ b.key) →
        ((run ops).FindsAgain i process ↔ process.length ≤ 24 ∧
          ((run ops).path = [] ∨ total (run ops).presets.dropLast ≤ kMaxButtons))) := by
  have hiff := setMatch_bound_iff hv hp hfirst
  refine ⟨hiff, fun hkeys => ?_⟩
  have htidy : ((run ops).setMatch i process).1.Tidy := setMatch_tidy (run_tidy ops) i process
  have hne : ((run ops).setMatch i process).1.presets ≠ [] :=
    List.ne_nil_of_length_pos (Nat.zero_lt_of_lt ((run ops).setMatch i process).1.current_lt)
  have hall := reached_eq_iff _ 0 hne (Nat.zero_le _)
  rw [Nat.zero_add, total_setMatch hv] at hall
  have hwritten : ((run ops).setMatch i process).2 = ((run ops).setMatch i process).1.save := by
    rw [setMatch_valid hv]
    rfl
  have hpath : ((run ops).setMatch i process).1.path = (run ops).path := by
    rw [setMatch_valid hv]
    rfl
  rw [FindsAgain, hiff]
  refine and_congr_right fun hlen => ?_
  have hload : ∀ (t : ButtonStore) (externalDir text : List UInt8), externalDir ≠ [] →
      ((run ops).setMatch i process).2 = some text →
      (Bound (run ops) (t.load externalDir (some text)) i.toNat process ↔
        total (run ops).presets.dropLast ≤ kMaxButtons) := fun t externalDir text hdir htext => by
    rw [save_eq_some (hwritten.symm.trans htext), ← hall]
    exact load_bound_iff hv hp (hiff.mpr hlen)
      (load_programs htidy (setMatch_keys hv hkeys) hdir)
  constructor
  · intro h
    refine or_iff_not_imp_left.mpr fun hsome => ?_
    have htext : ((run ops).setMatch i process).2 =
        some (fileText ((run ops).setMatch i process).1.presets) := by
      rw [hwritten, save, if_neg (hpath ▸ hsome)]
    exact (hload {} (ascii "files") _ (by decide) htext).mp (h _ _ _ (by decide) htext)
  · rintro (hnone | hroom) t externalDir text hdir htext
    · rw [hwritten, save, if_pos (hpath.trans hnone)] at htext
      exact absurd htext nofun
    · exact (hload t externalDir text hdir htext).mpr hroom

/-- A store with a file and a second preset. -/
def bothPresets : List Op := [.load (ascii "files") none, .create (ascii "Ink")]

lemma arrives_of_all (hne : process ≠ []) (hfits : process.length ≤ kProcessNameBytes)
    (hall : process.all (32 ≤ ·) = true) : Arrives process :=
  ⟨hne, hfits, fun c hc => by simpa using List.all_eq_true.mp hall c hc⟩

lemma firstFor_of_all (h : (s.programs.take i.toNat).all (! asksFor · process) = true) :
    s.FirstFor i process := fun j hj m hm => by
  have hmem : m ∈ s.programs.take i.toNat :=
    List.mem_of_getElem? ((List.getElem?_take_of_lt hj).trans hm)
  simpa using List.all_eq_true.mp h m hmem

theorem setMatch_findsAgain_short : (run bothPresets).FindsAgain 1 (ascii "mspaint.exe") :=
  ((setMatch_findsAgain_iff bothPresets 1 (ascii "mspaint.exe") (by decide)
    (arrives_of_all (by decide) (by decide) (by decide)) (firstFor_of_all (by decide))).2
      (by decide)).mpr (by decide)

/-- **A long name is not found.** -/
theorem setMatch_loses_long_name :
    (run bothPresets).validPreset 1 ∧ Arrives (ascii "WindowsTerminalPreview.exe") ∧
      (run bothPresets).FirstFor 1 (ascii "WindowsTerminalPreview.exe") ∧
      ((run bothPresets).setMatch 1 (ascii "WindowsTerminalPreview.exe")).1.programs =
        [[], ascii "WindowsTerminalPreview.e"] ∧
      ((run bothPresets).setMatch 1 (ascii "WindowsTerminalPreview.exe")).1.presetFor
        (ascii "WindowsTerminalPreview.exe") = -1 ∧
      ¬ (run bothPresets).FindsAgain 1 (ascii "WindowsTerminalPreview.exe") := by
  refine ⟨by decide, arrives_of_all (by decide) (by decide) (by decide),
    firstFor_of_all (by decide), by decide, by decide, fun h => ?_⟩
  have := h.1.found _ (iequals_iff.mpr rfl)
  revert this
  decide

end setMatch

/-- A line end in a key opens a preset of its own when the file is read. -/
example : (lines 10 (buttonLine { key := ascii "a\nP" })).map readLine =
    [.button { key := ascii "a" }, .preset {}] := by decide

end Digitiz.ButtonStore
