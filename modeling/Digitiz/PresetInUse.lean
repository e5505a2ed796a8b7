import Digitiz.ButtonStore

/-!
The preset in use, while another preset is removed.

Which preset is in use is an index. Adding, replacing, removing and moving buttons looks at the
preset it points at and at no other. Taking a preset out of the list moves every preset behind it
one place down, and the index is then only brought back into the range.
-/

namespace Digitiz.ButtonStore

/-! ### Places in a list that loses an entry -/

section places

variable {α : Type*} {i j : ℕ}

/-- Where the entry at `j` is once the one at `i` has been taken out. -/
def placeAfter (i j : ℕ) : ℕ := if i < j then j - 1 else j

lemma getElem?_eraseIdx_placeAfter (h : i ≠ j) (l : List α) :
    (l.eraseIdx i)[placeAfter i j]? = l[j]? := by
  unfold placeAfter
  split_ifs with hlt
  · rw [List.getElem?_eraseIdx_of_ge (by omega), Nat.sub_add_cancel (by omega)]
  · exact List.getElem?_eraseIdx_of_lt (by omega)

lemma eraseIdx_modify (h : i ≠ j) (l : List α) (f : α → α) :
    (l.modify j f).eraseIdx i = (l.eraseIdx i).modify (placeAfter i j) f := by
  unfold placeAfter
  split_ifs with hlt
  · exact List.eraseIdx_modify_of_lt f j i l hlt
  · exact List.eraseIdx_modify_of_gt f j i l (by omega)

end places

/-! ### What is done to the buttons -/

/-- The preset in use. -/
def currentPreset (s : ButtonStore) : Preset := s.presets.get ⟨s.current, s.current_lt⟩

lemma getElem?_currentPreset (s : ButtonStore) : s.presets[s.current]? = some s.currentPreset :=
  getElem?_current

/-- The operations on the buttons of the preset in use. -/
inductive Edit where
  | add (button : CustomButton)
  | replace (index : ℤ) (button : CustomButton)
  | remove (index : ℤ)
  | move (index delta : ℤ)
  deriving DecidableEq, Repr

def Edit.toOp : Edit → Op
  | .add button => .add button
  | .replace index button => .replace index button
  | .remove index => .remove index
  | .move index delta => .move index delta

/-- The store after the edits. -/
def edited (s : ButtonStore) (edits : List Edit) : ButtonStore :=
  edits.foldl (fun s e => (s.apply e.toOp).1) s

/-- What an edit makes of the buttons it is given. -/
def Edit.act : Edit → List CustomButton → List CustomButton
  | .add button, bs => if bs.length < kMaxButtons then bs ++ [button.kept] else bs
  | .replace index button, bs =>
    if 0 ≤ index ∧ index.toNat < bs.length then bs.set index.toNat button.kept else bs
  | .remove index, bs =>
    if 0 ≤ index ∧ index.toNat < bs.length then bs.eraseIdx index.toNat else bs
  | .move index delta, bs =>
    if 0 ≤ index ∧ index.toNat < bs.length then
      (bs.eraseIdx index.toNat).insertIdx
        (max 0 (min ((bs.length : ℤ) - 1) (index + delta))).toNat (bs.getD index.toNat {})
    else bs

section edits

variable {s : ButtonStore} {f g : List CustomButton → List CustomButton}

lemma modifyButtons_congr (h : f s.buttons = g s.buttons) :
    s.modifyButtons f = s.modifyButtons g := by
  have hp : s.presets.modify s.current (fun p => { p with buttons := f p.buttons }) =
      s.presets.modify s.current fun p => { p with buttons := g p.buttons } := by
    refine List.ext_getElem? fun j => ?_
    rw [List.getElem?_modify, List.getElem?_modify]
    split_ifs with hj
    · subst hj
      rw [getElem?_currentPreset]
      exact congrArg (fun bs => some { s.currentPreset with buttons := bs }) h
    · rfl
  simp only [modifyButtons, hp]

lemma modifyButtons_id : s.modifyButtons id = s := by
  have hp : s.presets.modify s.current (fun p => { p with buttons := id p.buttons }) = s.presets :=
    List.modify_id s.current s.presets
  simp only [modifyButtons, hp]

lemma modifyButtons_of_eq (h : f s.buttons = s.buttons) : s.modifyButtons f = s :=
  (modifyButtons_congr (g := id) h).trans modifyButtons_id

lemma modifyButtons_modifyButtons :
    (s.modifyButtons f).modifyButtons g = s.modifyButtons (g ∘ f) := by
  simp only [modifyButtons, List.modify_modify_eq]
  rfl

/-- A button that is moved takes the place it is moved to, if that is another one. -/
lemma move_eq (s : ButtonStore) (index delta : ℤ) :
    (s.move index delta).1 = s.modifyButtons (Edit.act (.move index delta)) := by
  by_cases hv : s.valid index
  · have hact : Edit.act (.move index delta) s.buttons = _ := if_pos hv
    by_cases hsame : max 0 (min ((s.buttons.length : ℤ) - 1) (index + delta)) = index
    · -- the button goes back where it was
      have hback : Edit.act (.move index delta) s.buttons = s.buttons := by
        rw [hact, hsame, List.getD_eq_getElem _ _ hv.2, List.insertIdx_eraseIdx_getElem hv.2]
      rw [modifyButtons_of_eq hback, move]
      split_ifs
      · rfl
      · exact congrArg Prod.fst (if_pos hsame)
    · have hdelta : delta ≠ 0 := by
        rintro rfl
        have := hv.1
        have := hv.2
        omega
      have hgo : ¬ (¬ s.valid index ∨ delta = 0) := not_or.mpr ⟨not_not.mpr hv, hdelta⟩
      rw [modifyButtons_congr (g := fun bs => (bs.eraseIdx index.toNat).insertIdx
        (max 0 (min ((s.buttons.length : ℤ) - 1) (index + delta))).toNat
        (s.buttons.getD index.toNat {})) hact, move, if_neg hgo, if_neg hsame]
      rfl
  · have hact : Edit.act (.move index delta) s.buttons = s.buttons := if_neg hv
    rw [modifyButtons_of_eq hact, move, if_pos (Or.inl hv)]

/-- **The selection is all that counts.** An edit changes the buttons of the preset in use by
something that depends on nothing else. -/
theorem apply_toOp (s : ButtonStore) (e : Edit) : (s.apply e.toOp).1 = s.modifyButtons e.act := by
  cases e with
  | add button =>
    by_cases hfull : s.buttons.length ≥ kMaxButtons
    · have hact : Edit.act (.add button) s.buttons = s.buttons := if_neg (not_lt.mpr hfull)
      rw [modifyButtons_of_eq hact]
      exact congrArg Prod.fst (if_pos hfull : s.add button = _)
    · have hact : Edit.act (.add button) s.buttons = s.buttons ++ [button.kept] :=
        if_pos (not_le.mp hfull)
      rw [modifyButtons_congr (g := (· ++ [button.kept])) hact]
      exact congrArg Prod.fst (if_neg hfull : s.add button = _)
  | replace index button =>
    by_cases hv : s.valid index
    · have hact : Edit.act (.replace index button) s.buttons = _ := if_pos hv
      rw [modifyButtons_congr (g := (·.set index.toNat button.kept)) hact]
      exact congrArg Prod.fst (if_neg (not_not.mpr hv) : s.replace index button = _)
    · have hact : Edit.act (.replace index button) s.buttons = s.buttons := if_neg hv
      rw [modifyButtons_of_eq hact]
      exact congrArg Prod.fst (if_pos hv : s.replace index button = _)
  | remove index =>
    by_cases hv : s.valid index
    · have hact : Edit.act (.remove index) s.buttons = _ := if_pos hv
      rw [modifyButtons_congr (g := (·.eraseIdx index.toNat)) hact]
      exact congrArg Prod.fst (if_neg (not_not.mpr hv) : s.remove index = _)
    · have hact : Edit.act (.remove index) s.buttons = s.buttons := if_neg hv
      rw [modifyButtons_of_eq hact]
      exact congrArg Prod.fst (if_pos hv : s.remove index = _)
  | move index delta => exact move_eq s index delta

/-- What several edits make of the buttons. -/
def actAll (edits : List Edit) (bs : List CustomButton) : List CustomButton :=
  edits.foldl (fun bs e => e.act bs) bs

lemma edited_eq (s : ButtonStore) (edits : List Edit) :
    s.edited edits = s.modifyButtons (actAll edits) := by
  induction edits generalizing s with
  | nil => exact modifyButtons_id.symm
  | cons e es ih =>
    have hstep : s.edited (e :: es) = (s.apply e.toOp).1.edited es := rfl
    rw [hstep, ih, apply_toOp, modifyButtons_modifyButtons]
    rfl

end edits

/-! ### Another preset goes -/

section removal

variable {s : ButtonStore} {i : ℤ}

/-- The preset in use stays the one it was when preset `i` is removed, and everything that is then
done to the buttons is done to it. -/
def KeepsInUse (s : ButtonStore) (i : ℤ) : Prop :=
  ∀ edits : List Edit,
    ((s.removePreset i).1.edited edits).currentPreset = (s.edited edits).currentPreset ∧
      ((s.removePreset i).1.edited edits).presets = (s.edited edits).presets.eraseIdx i.toNat

lemma removePreset_of_valid (hv : s.validPreset i) (hlen : 1 < s.presets.length) :
    (s.removePreset i).1.presets = s.presets.eraseIdx i.toNat ∧
      (s.removePreset i).1.current = min s.current (s.presets.length - 2) := by
  have h : ¬ (¬ s.validPreset i ∨ s.presets.length ≤ 1) :=
    not_or.mpr ⟨not_not.mpr hv, not_le.mpr hlen⟩
  rw [removePreset, dif_neg h]
  exact ⟨rfl, rfl⟩

/-- There is another preset, so one may go. -/
lemma two_presets (hv : s.validPreset i) (hi : i ≠ s.current) : 1 < s.presets.length := by
  have := s.current_lt
  have := hv.1
  have := hv.2
  omega

/-- The selection follows its preset. -/
def Follows (s : ButtonStore) (i : ℤ) : Prop :=
  (s.removePreset i).1.current = placeAfter i.toNat s.current

lemma follows_iff (hv : s.validPreset i) (hi : i ≠ s.current) :
    s.Follows i ↔ (s.current : ℤ) < i ∨ s.current + 1 = s.presets.length := by
  have := s.current_lt
  have := hv.1
  have := hv.2
  unfold Follows placeAfter
  rw [(removePreset_of_valid hv (two_presets hv hi)).2]
  split_ifs <;> omega

/-- The stores with and without the preset, after the same edits. -/
lemma presets_edited (hv : s.validPreset i) (hi : i ≠ s.current) (edits : List Edit) :
    (s.edited edits).presets.eraseIdx i.toNat =
      (s.presets.eraseIdx i.toNat).modify (placeAfter i.toNat s.current)
        fun p => { p with buttons := actAll edits p.buttons } := by
  have hne : i.toNat ≠ s.current := by
    have := hv.1
    omega
  rw [edited_eq]
  exact eraseIdx_modify hne _ _

lemma presets_removed_edited (hv : s.validPreset i) (hi : i ≠ s.current) (edits : List Edit) :
    ((s.removePreset i).1.edited edits).presets =
      (s.presets.eraseIdx i.toNat).modify (s.removePreset i).1.current
        fun p => { p with buttons := actAll edits p.buttons } := by
  rw [edited_eq, ← (removePreset_of_valid hv (two_presets hv hi)).1]
  rfl

lemma current_edited (s : ButtonStore) (edits : List Edit) :
    (s.edited edits).current = s.current := by
  rw [edited_eq]
  rfl

lemma Follows.keepsInUse (h : s.Follows i) (hv : s.validPreset i) (hi : i ≠ s.current) :
    s.KeepsInUse i := by
  intro edits
  have hpresets : ((s.removePreset i).1.edited edits).presets =
      (s.edited edits).presets.eraseIdx i.toNat := by
    rw [presets_removed_edited hv hi, presets_edited hv hi, h]
  refine ⟨Option.some.inj ?_, hpresets⟩
  have hne : i.toNat ≠ s.current := by
    have := hv.1
    omega
  rw [← getElem?_currentPreset, ← getElem?_currentPreset, hpresets, current_edited, current_edited,
    h, getElem?_eraseIdx_placeAfter hne]

/-- There is always an edit that can be seen. -/
lemma exists_visible (bs : List CustomButton) : ∃ e : Edit, e.act bs ≠ bs := by
  by_cases hfull : bs.length < kMaxButtons
  · refine ⟨.add {}, fun h => ?_⟩
    rw [Edit.act, if_pos hfull] at h
    simpa using congrArg List.length h
  · have hpos : 0 < bs.length := lt_of_lt_of_le (by decide) (not_lt.mp hfull)
    refine ⟨.remove 0, fun h => ?_⟩
    rw [Edit.act, if_pos ⟨le_rfl, hpos⟩] at h
    have hlen := List.length_eraseIdx_of_lt hpos
    have := congrArg List.length h
    simp only [Int.toNat_zero] at this
    omega

lemma KeepsInUse.follows (h : s.KeepsInUse i) (hv : s.validPreset i) (hi : i ≠ s.current) :
    s.Follows i := by
  have hne : i.toNat ≠ s.current := by
    have := hv.1
    omega
  obtain ⟨e, he⟩ := exists_visible s.currentPreset.buttons
  by_contra hmoved
  -- the edit changes the preset that was in use, and it has to change it in both stores
  have hboth := congrArg (·[placeAfter i.toNat s.current]?) (h [e]).2
  simp only [presets_removed_edited hv hi, presets_edited hv hi, List.getElem?_modify,
    getElem?_eraseIdx_placeAfter hne, getElem?_currentPreset, if_true] at hboth
  rw [Follows] at hmoved
  simp only [if_neg hmoved] at hboth
  exact he (congrArg Preset.buttons (Option.some.inj hboth)).symm

/-- **Removing another preset.** It leaves the one in use alone exactly when it comes after it, or
when the one in use is the last. -/
theorem removePreset_keepsInUse_iff (ops : List Op) (i : ℤ) (hv : (run ops).validPreset i)
    (hi : i ≠ (run ops).current) :
    (run ops).KeepsInUse i ↔
      ((run ops).current : ℤ) < i ∨ (run ops).current + 1 = (run ops).presets.length :=
  ⟨fun h => (follows_iff hv hi).mp (h.follows hv hi),
    fun h => ((follows_iff hv hi).mpr h).keepsInUse hv hi⟩

/-- Three presets, and the one in the middle is in use. -/
def three : List Op := [.create (ascii "Ink"), .create (ascii "Games"), .select 1]

theorem removePreset_keepsInUse_last : (run three).KeepsInUse 2 :=
  (removePreset_keepsInUse_iff three 2 (by decide) (by decide)).mpr (by decide)

/-- **The first of three goes.** Then another preset is in use, and a button that is added is
added to that one. -/
theorem removePreset_changes_inUse :
    (run three).validPreset 0 ∧ (0 : ℤ) ≠ (run three).current ∧
      (run three).currentPreset.name = ascii "Ink" ∧
      ((run three).removePreset 0).1.currentPreset.name = ascii "Games" ∧
      (((run three).removePreset 0).1.edited [.add {}]).presets =
        [{ name := ascii "Ink" }, { name := ascii "Games", buttons := [{}] }] ∧
      ¬ (run three).KeepsInUse 0 := by
  refine ⟨by decide, by decide, by decide, by decide, by decide, fun h => ?_⟩
  have := (h []).1
  revert this
  decide

end removal

end Digitiz.ButtonStore
