import Digitiz.PresetInUse
import Mathlib.Data.List.Perm.Basic

/-!
What a button store keeps to, whatever is done to it.

The screens that show the buttons index the presets, and the buttons of the one in use, without
looking first. That is safe for a store that was only ever changed by its own operations.
-/

namespace Digitiz.ButtonStore

/-- What holds between any two operations. -/
structure Invariant (s : ButtonStore) : Prop where
  some_preset : 1 ≤ s.presets.length
  few_presets : s.presets.length ≤ kMaxPresets
  current_valid : s.validPreset s.current
  few_buttons : ∀ p ∈ s.presets, p.buttons.length ≤ kMaxButtons
  texts_fit : ∀ p ∈ s.presets,
    TidyText p.name ∧ TidyText p.match' ∧ ∀ b ∈ p.buttons, TidyText b.label

lemma Tidy.invariant {s : ButtonStore} (h : s.Tidy) : s.Invariant where
  some_preset := by
    have := s.current_lt
    omega
  few_presets := h.few
  current_valid := ⟨Int.natCast_nonneg _, by simpa using s.current_lt⟩
  few_buttons p hp := (h.presets_tidy p hp).few
  texts_fit p hp := by
    obtain ⟨hname, hmatch, hlabels, -⟩ := h.presets_tidy p hp
    exact ⟨hname, hmatch, hlabels⟩

/-! ### An index that is not one -/

/-- The operation asks for a button, or a preset, that does not exist. -/
def Op.Misses (s : ButtonStore) : Op → Prop
  | .replace index _ | .remove index | .move index _ => ¬ s.valid index
  | .select index | .rename index _ | .setMatch index _ | .removePreset index =>
    ¬ s.validPreset index
  | .load _ _ | .add _ | .create _ => False

lemma apply_of_misses {s : ButtonStore} {op : Op} (h : op.Misses s) : s.apply op = (s, none) := by
  cases op with
  | load externalDir file => exact absurd h id
  | add button => exact absurd h id
  | replace index button => exact if_pos h
  | remove index => exact if_pos h
  | move index delta => exact if_pos (Or.inl h)
  | select index =>
    have hstay : s.select index = (s, false) := dif_pos (Or.inl h)
    rw [apply, hstay]
  | create name => exact absurd h id
  | rename index name => exact if_pos h
  | setMatch index process => exact if_pos h
  | removePreset index => exact dif_pos (Or.inl h)

/-! ### Buttons that are moved -/

lemma act_move_perm (index delta : ℤ) (bs : List CustomButton) :
    (Edit.act (.move index delta) bs).Perm bs := by
  by_cases hv : 0 ≤ index ∧ index.toNat < bs.length
  · have hlen := List.length_eraseIdx_of_lt hv.2
    have hdest : (max 0 (min ((bs.length : ℤ) - 1) (index + delta))).toNat ≤
        (bs.eraseIdx index.toNat).length := by
      omega
    rw [Edit.act, if_pos hv, List.getD_eq_getElem _ _ hv.2]
    exact (List.perm_insertIdx _ _ hdest).trans (List.getElem_cons_eraseIdx_perm hv.2)
  · rw [Edit.act, if_neg hv]

/-- Only the buttons of the preset in use have changed, and they are the same ones. -/
def Rearranged (s t : ButtonStore) : Prop :=
  ∃ bs : List CustomButton, bs.Perm s.currentPreset.buttons ∧
    t.presets = s.presets.set s.current { s.currentPreset with buttons := bs } ∧
    t.current = s.current ∧ t.path = s.path

lemma move_rearranges (s : ButtonStore) (index delta : ℤ) :
    s.Rearranged (s.move index delta).1 := by
  have hmove : (s.move index delta).1 = s.modifyButtons (Edit.act (.move index delta)) :=
    apply_toOp s (.move index delta)
  rw [hmove]
  refine ⟨_, act_move_perm index delta s.currentPreset.buttons, ?_, rfl, rfl⟩
  change s.presets.modify s.current _ = _
  rw [List.modify_eq_set_getElem?, getElem?_currentPreset]
  rfl

/-- **The store keeps its invariant.** After any operations with any arguments, files of any
content among them, it holds; an operation with an index that is not one does nothing and writes
nothing; and moving a button rearranges the buttons of the preset in use. -/
theorem run_invariant (ops : List Op) :
    (run ops).Invariant ∧
      (∀ op : Op, op.Misses (run ops) → (run ops).apply op = (run ops, none)) ∧
      ∀ index delta : ℤ, (run ops).Rearranged ((run ops).move index delta).1 :=
  ⟨(run_tidy ops).invariant, fun _ h => apply_of_misses h, move_rearranges (run ops)⟩

end Digitiz.ButtonStore
