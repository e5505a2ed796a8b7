import Digitiz.AppSettings

/-!
The app, killed and started again.

The system may kill the app between any two steps, and of what it held only the files are left. The
settings were written where they were collected, so the app that is started over the file has them
again, and so has the drawer. And the host, which looks for the launch switch in the same file while
the app is gone, sees the switch as the drawer last showed it.
-/

namespace Digitiz

open ButtonStore TextLines

variable {R : Type}

namespace Settings

variable {F : Type} [FloatText F]

lemma readLine_path (s : Settings F) (line : List UInt8) : (s.readLine line).path = s.path := by
  unfold readLine
  split
  · rfl
  · unfold set
    split_ifs <;> rfl

/-- The file does not say where it is. -/
lemma load_path (s : Settings F) {externalDir : List UInt8} (hdir : externalDir ≠ [])
    (file : Option (List UInt8)) :
    (s.load externalDir file).1.path = externalDir ++ ascii "/" ++ ascii "settings.txt" := by
  rw [load, if_neg hdir]
  cases file with
  | none => rfl
  | some text =>
    dsimp only
    induction lines 10 text using List.reverseRecOn with
    | nil => rfl
    | append_singleton ls l ih =>
      rw [List.foldl_append]
      exact (readLine_path _ l).trans ih

lemma save_of_path {s : Settings F} {externalDir : List UInt8}
    (h : s.path = externalDir ++ ascii "/" ++ ascii "settings.txt") : s.save = some s.fileText :=
  if_neg (by simp [h, ascii])

/-! What is written of a change is all the settings. -/

section writes

variable (s : Settings F)

lemma setStrip_writes (vertical expanded : Bool) : s.setStrip vertical expanded = (s, none) ∨
    s.setStrip vertical expanded =
      saved { s with stripVertical := vertical, stripExpanded := expanded } :=
  ite_eq_or_eq _ _ _

lemma setStripSlots_writes (slots : Int32) : s.setStripSlots slots = (s, none) ∨
    s.setStripSlots slots = saved { s with stripSlots := slots } :=
  ite_eq_or_eq _ _ _

lemma setScreenEnabled_writes (on : Bool) : s.setScreenEnabled on = (s, none) ∨
    s.setScreenEnabled on = saved { s with screenEnabled := on } :=
  ite_eq_or_eq _ _ _

lemma setStylusOnly_writes (on : Bool) : s.setStylusOnly on = (s, none) ∨
    s.setStylusOnly on = saved { s with stylusOnly := on } :=
  ite_eq_or_eq _ _ _

lemma setAutoLaunch_writes (on : Bool) : s.setAutoLaunch on = (s, none) ∨
    s.setAutoLaunch on = saved { s with autoLaunch := on } :=
  ite_eq_or_eq _ _ _

lemma setThrottle_writes (intervalMs : Int32) (distanceDp : F) :
    s.setThrottle intervalMs distanceDp = (s, none) ∨
    s.setThrottle intervalMs distanceDp =
      saved { s with minIntervalMs := intervalMs, minDistanceDp := distanceDp } :=
  ite_eq_or_eq _ _ _

end writes

end Settings

namespace SideMenu

/-- The settings in the drawer that outlive the app. -/
def kept (m : SideMenu R) : Bool × Bool × Bool × Bool × ℤ × R :=
  (m.autoLaunch, m.stripVertical, m.screenEnabled, m.stylusOnly, m.minIntervalMs, m.minDistanceDp)

end SideMenu

namespace AppUi

open SideMenu

variable [Field R] [LinearOrder R] [FloatOps R] [FloatText R] {a b : AppUi R}
  {externalDir : List UInt8} {first buttonsFile : Option (List UInt8)}

/-! ### What the file holds -/

/-- The file holds the settings, or it is still the one the app was first started over and they are
from there. -/
structure Filed (externalDir : List UInt8) (first : Option (List UInt8)) (a : AppUi R) : Prop where
  path : a.settings.path = externalDir ++ ascii "/" ++ ascii "settings.txt"
  file : a.settingsFile = some a.settings.fileText ∨
    a.settingsFile = first ∧ first ≠ none ∧
      a.settings = (Settings.load ({} : Settings R) externalDir first).1
  reads : Reads a.settings.minDistanceDp
  readsShown : Reads a.menu.minDistanceDp

omit [LinearOrder R] [FloatOps R] in
lemma Filed.drift (hreads : ∀ d : R, OnSlider d → Reads d) (h : Filed externalDir first a)
    (hd : Drifts a b) : Filed externalDir first b where
  path := hd.settings ▸ h.path
  file := by
    rw [hd.settings, hd.file]
    exact h.file
  reads := hd.settings ▸ h.reads
  readsShown := by
    obtain he | hon := hd.menu.distance
    · exact he ▸ h.readsShown
    · exact hreads _ hon

omit [Field R] [LinearOrder R] [FloatOps R] in
lemma Filed.same (h : Filed externalDir first a) (hs : b.settings = a.settings)
    (hfile : b.settingsFile = a.settingsFile)
    (hshown : b.menu.minDistanceDp = a.menu.minDistanceDp) : Filed externalDir first b :=
  ⟨hs ▸ h.path, by rw [hs, hfile]; exact h.file, hs ▸ h.reads, hshown ▸ h.readsShown⟩

omit [Field R] [LinearOrder R] [FloatOps R] in
/-- Settings that are changed are written, and what is not written has not changed. -/
lemma Filed.write (h : Filed externalDir first a) {r : Settings R × Option (List UInt8)}
    {t : Settings R} (hr : r = (a.settings, none) ∨ r = t.saved)
    (hpath : t.path = a.settings.path) (ht : Reads t.minDistanceDp) :
    Filed externalDir first (a.withSettings r) := by
  obtain rfl | rfl := hr
  · exact h.same rfl rfl rfl
  · have hp := hpath.trans h.path
    refine ⟨hp, .inl ?_, ht, h.readsShown⟩
    show (t.save <|> a.settingsFile) = _
    rw [Settings.save_of_path hp]
    rfl

/-! ### A frame -/

lemma collectMode_filed (h : Filed externalDir first a) :
    Filed externalDir first a.collectMode := by
  unfold collectMode
  split_ifs
  · exact h.same rfl rfl rfl
  · exact h

lemma collectStripChange_filed (h : Filed externalDir first a) :
    Filed externalDir first a.collectStripChange := by
  unfold collectStripChange
  split_ifs
  · refine Filed.write (h.same ?_ ?_ ?_) (Settings.setStrip_writes _ _ _) ?_ ?_
    exacts [rfl, rfl, rfl, rfl, h.reads]
  · exact h

omit [Field R] [LinearOrder R] [FloatOps R] in
lemma collectStateChange_filed (h : Filed externalDir first a) :
    Filed externalDir first a.collectStateChange := by
  unfold collectStateChange
  split_ifs
  · refine Filed.write (h.same ?_ ?_ ?_) (Settings.setStrip_writes _ _ _) ?_ ?_
    exacts [rfl, rfl, rfl, rfl, h.reads]
  · exact h

lemma collectStripSlots_filed (h : Filed externalDir first a) :
    Filed externalDir first a.collectStripSlots := by
  unfold collectStripSlots
  split_ifs
  · refine Filed.write (h.same ?_ ?_ ?_) (Settings.setStripSlots_writes _ _) ?_ ?_
    exacts [rfl, rfl, rfl, rfl, h.reads]
  · exact h

lemma collectStylus_filed (h : Filed externalDir first a) :
    Filed externalDir first a.collectStylus := by
  unfold collectStylus
  split_ifs
  · refine Filed.write (h.same ?_ ?_ ?_) (Settings.setStylusOnly_writes _ _) ?_ ?_
    exacts [rfl, rfl, rfl, rfl, h.reads]
  · exact h

omit [Field R] [LinearOrder R] [FloatOps R] in
lemma collectScreen_filed (h : Filed externalDir first a) :
    Filed externalDir first a.collectScreen := by
  unfold collectScreen
  split_ifs
  · refine Filed.write (h.same ?_ ?_ ?_) (Settings.setScreenEnabled_writes _ _) ?_ ?_
    exacts [rfl, rfl, rfl, rfl, h.reads]
  · exact h

omit [Field R] [LinearOrder R] [FloatOps R] in
lemma collectAutoLaunch_filed (h : Filed externalDir first a) :
    Filed externalDir first a.collectAutoLaunch := by
  unfold collectAutoLaunch
  split_ifs
  · refine Filed.write (h.same ?_ ?_ ?_) (Settings.setAutoLaunch_writes _ _) ?_ ?_
    exacts [rfl, rfl, rfl, rfl, h.reads]
  · exact h

lemma collectThrottle_filed (h : Filed externalDir first a) :
    Filed externalDir first a.collectThrottle := by
  unfold collectThrottle
  split_ifs
  · have hw : Filed externalDir first
        ({ a with menu := { a.menu with throttleChanged := false } }.withSettings
          (a.settings.setThrottle (Int32.ofInt a.menu.minIntervalMs) a.menu.minDistanceDp)) := by
      refine Filed.write (h.same ?_ ?_ ?_) (Settings.setThrottle_writes _ _ _) ?_ ?_
      exacts [rfl, rfl, rfl, rfl, h.readsShown]
    exact hw.same rfl rfl rfl
  · exact h

lemma Filed.collect (hreads : ∀ d : R, OnSlider d → Reads d) (h : Filed externalDir first a)
    (f : FrameInput R) : Filed externalDir first (a.collect f) := by
  rw [collect_eq]
  have hstrip := collectStripSlots_filed (collectStateChange_filed (collectStripChange_filed
    (collectMode_filed h)))
  have hdialogs := hstrip.drift hreads (collectDialogs_beside f).drifts
  exact collectThrottle_filed (collectAutoLaunch_filed (collectScreen_filed
    (collectStylus_filed hdialogs)))

omit [FloatOps R] in
/-- What the drawer makes of a distance that reads as itself is one that does. -/
lemma reads_clamp (hreads : ∀ d : R, OnSlider d → Reads d) [IsStrictOrderedRing R] {d : R}
    (h : Reads d) : Reads (ViewTransform.clamp d 0 kMaxDistanceDp) := by
  unfold ViewTransform.clamp
  split_ifs
  · exact hreads 0 ⟨0, le_rfl, by decide, by simp⟩
  · refine hreads _ ⟨32, by decide, le_rfl, ?_⟩
    unfold kMaxDistanceDp
    norm_num
  · exact h

section start

variable [IsStrictOrderedRing R] (hreads : ∀ d : R, OnSlider d → Reads d)
  (hdir : externalDir ≠ [])

include hreads hdir

lemma filed_start
    (hfirst : Reads (Settings.load ({} : Settings R) externalDir first).1.minDistanceDp) :
    Filed externalDir first (start externalDir first buttonsFile : AppUi R) := by
  have hpath := Settings.load_path ({} : Settings R) hdir first
  refine ⟨hpath, ?_, hfirst, reads_clamp hreads hfirst⟩
  show ((Settings.load ({} : Settings R) externalDir first).2 <|> first) =
      some (Settings.load ({} : Settings R) externalDir first).1.fileText ∨
    ((Settings.load ({} : Settings R) externalDir first).2 <|> first) = first ∧ first ≠ none ∧
      (Settings.load ({} : Settings R) externalDir first).1 =
        (Settings.load ({} : Settings R) externalDir first).1
  cases first with
  | none =>
    left
    rw [Settings.load, if_neg hdir] at hpath ⊢
    dsimp only at hpath ⊢
    rw [Settings.save_of_path hpath]
    rfl
  | some text =>
    right
    refine ⟨?_, Option.some_ne_none text, rfl⟩
    rw [Settings.load, if_neg hdir]
    rfl

/-- The app finds again what it left. -/
lemma Filed.again (h : Filed externalDir first a) :
    Filed externalDir first (start externalDir a.settingsFile buttonsFile : AppUi R) ∧
      (start externalDir a.settingsFile buttonsFile : AppUi R).settings = a.settings := by
  obtain hfile | ⟨hfile, -, hsettings⟩ := h.file
  · have hload : Settings.load ({} : Settings R) externalDir a.settingsFile =
        (a.settings, none) := by
      rw [hfile, Settings.load_fileText _ h.reads hdir, ← h.path]
    have hstart : (start externalDir a.settingsFile buttonsFile : AppUi R).settings = a.settings :=
      congrArg Prod.fst hload
    refine ⟨⟨hstart ▸ h.path, .inl ?_, hstart ▸ h.reads, ?_⟩, hstart⟩
    · rw [hstart]
      show ((Settings.load ({} : Settings R) externalDir a.settingsFile).2 <|> a.settingsFile) = _
      rw [hload]
      exact hfile
    · show Reads (ViewTransform.clamp
        (Settings.load ({} : Settings R) externalDir a.settingsFile).1.minDistanceDp 0 _)
      rw [hload]
      exact reads_clamp hreads h.reads
  · rw [hfile]
    exact ⟨filed_start hreads hdir (hsettings ▸ h.reads), hsettings.symm⟩

end start

/-! ### Lives -/

/-- What the app can be when it is started, killed between any two steps and started again over the
file it left, any number of times. -/
inductive Lived (externalDir : List UInt8) (first : Option (List UInt8)) : AppUi R → Prop
  | born {buttonsFile : Option (List UInt8)} {acts : List (Act R)} {a : AppUi R} :
    Run step (fun _ _ => True) (start externalDir first buttonsFile) acts a →
    Lived externalDir first a
  | again {buttonsFile : Option (List UInt8)} {acts : List (Act R)} {a b : AppUi R} :
    Lived externalDir first a →
    Run step (fun _ _ => True) (start externalDir a.settingsFile buttonsFile) acts b →
    Lived externalDir first b

lemma Lived.agrees [IsStrictOrderedRing R] (hr : RoundsNear R)
    (hsame : ∀ x y : R, FloatText.same x y = true → x = y) (h : Lived externalDir first a) :
    a.Agrees := by
  cases h with
  | born hrun => exact (run_agrees hr hsame hrun).2
  | again _ hrun => exact (run_agrees hr hsame hrun).2

end AppUi

end Digitiz
