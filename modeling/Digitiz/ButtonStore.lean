import Digitiz.KeyNames
import Digitiz.TextLines
import Mathlib.Data.List.Basic
import Mathlib.Data.List.GetD
import Mathlib.Data.List.InsertIdx

/-!
The user's custom buttons, grouped into presets, and the file they live in.

One record per line, tab separated: `P` opens a preset, `B` is a button in it, and a line that
starts with a number is a button from before presets existed. Strings are byte strings. Every
operation gives the store after it and the text it wrote to the file, if it wrote one.
-/

namespace Digitiz

namespace ButtonStore

open TextLines

def kMaxButtons : ℕ := 256
def kMaxPresets : ℕ := 64

inductive ButtonKind where
  | point
  | region
  | shortcut
  deriving DecidableEq, Repr

def ButtonKind.toInt : ButtonKind → ℤ
  | .point => 0
  | .region => 1
  | .shortcut => 2

/-- The kind of that number; any other number is no kind. -/
def ButtonKind.ofInt (kind : Int32) : Option ButtonKind :=
  if kind = 0 then some .point
  else if kind = 1 then some .region
  else if kind = 2 then some .shortcut
  else none

/-- The place a button stands for, in 32-bit offsets inside the focused window. -/
structure Target where
  x : Int32 := 0
  y : Int32 := 0
  w : Int32 := 0
  h : Int32 := 0
  deriving DecidableEq, Repr

@[ext]
structure CustomButton where
  kind : ButtonKind := .point
  label : List UInt8 := []
  target : Target := {}
  modifiers : UInt8 := 0
  key : List UInt8 := []
  deriving DecidableEq, Repr

@[ext]
structure Preset where
  name : List UInt8 := []
  match' : List UInt8 := []
  buttons : List CustomButton := []
  deriving DecidableEq, Repr

/-- Anything that would break the line format is stripped, and what is too long is cut. -/
def sanitizeLabel (label : List UInt8) : List UInt8 :=
  (label.filter fun c => !(c = 9 ∨ c = 10 ∨ c = 13)).take 24

@[simp] lemma sanitizeLabel_nil : sanitizeLabel [] = [] := rfl

/-! ### Reading the file -/

def toInt (s : List UInt8) : Int32 := atoi s

/-- The fields of a button from the one at `first` on, if there are enough of them. -/
def parseButton (f : List (List UInt8)) (first : ℕ) : Option CustomButton :=
  if f.length < first + 8 then none
  else
    (ButtonKind.ofInt (toInt (f.getD first []))).map fun kind =>
      { kind
        label := sanitizeLabel (f.getD (first + 1) [])
        target :=
          { x := toInt (f.getD (first + 2) []), y := toInt (f.getD (first + 3) []),
            w := toInt (f.getD (first + 4) []), h := toInt (f.getD (first + 5) []) }
        modifiers := UInt8.ofInt (toInt (f.getD (first + 6) [])).toInt
        key := f.getD (first + 7) [] }

/-- What one line of the file says. -/
inductive Record where
  | skipped
  | preset (p : Preset)
  | button (b : CustomButton)
  deriving DecidableEq, Repr

def Record.ofButton : Option CustomButton → Record
  | none => .skipped
  | some b => .button b

/-- A carriage return at the end of a line is not part of it. -/
def popCr (line : List UInt8) : List UInt8 :=
  if line.getLast? = some 13 then line.dropLast else line

def readLine (line : List UInt8) : Record :=
  let line := popCr line
  if line = [] ∨ line.head? = some 35 then .skipped
  else
    let f := line.splitOn 9
    if f.getD 0 [] = ascii "P" then
      .preset { name := sanitizeLabel (f.getD 1 []), match' := sanitizeLabel (f.getD 2 []) }
    else
      -- bare numbers are from before presets existed
      Record.ofButton (parseButton f (if f.getD 0 [] = ascii "B" then 1 else 0))

/-- The last preset gets the button. -/
def pushButton (loaded : List Preset) (button : CustomButton) : List Preset :=
  loaded.modify (loaded.length - 1) fun p => { p with buttons := p.buttons ++ [button] }

/-- The loop of `load`, over the lines not yet read. -/
def readLines : List (List UInt8) → List Preset → ℕ → List Preset
  | [], loaded, _ => loaded
  | line :: rest, loaded, buttons =>
    match readLine line with
    | .skipped => readLines rest loaded buttons
    | .preset p =>
      if loaded.length ≥ kMaxPresets then loaded else readLines rest (loaded ++ [p]) buttons
    | .button b =>
      let loaded := if loaded = [] then [{}] else loaded
      if buttons ≥ kMaxButtons then loaded else readLines rest (pushButton loaded b) (buttons + 1)

/-! ### Writing the file -/

def presetLine (p : Preset) : List UInt8 := List.intercalate [9] [ascii "P", p.name, p.match']

def buttonLine (b : CustomButton) : List UInt8 :=
  List.intercalate [9] [ascii "B", decimal b.kind.toInt, b.label, decimal b.target.x.toInt,
    decimal b.target.y.toInt, decimal b.target.w.toInt, decimal b.target.h.toInt,
    decimal b.modifiers.toNat, b.key]

def header : List UInt8 :=
  ascii "# digitiz buttons.  P\tname\tmatch   |   B\tkind\tlabel\tx\ty\tw\th\tmodifiers\tkey"

def fileLines (presets : List Preset) : List (List UInt8) :=
  header :: presets.flatMap fun p => presetLine p :: p.buttons.map buttonLine

/-- What `save` writes. -/
def fileText (presets : List Preset) : List UInt8 := unlines 10 (fileLines presets)

end ButtonStore

open ButtonStore

/-- The store. There is always a preset in use. -/
structure ButtonStore where
  path : List UInt8 := []
  presets : List Preset := [{}]
  current : ℕ := 0
  current_lt : current < presets.length := by decide
  deriving DecidableEq, Repr

namespace ButtonStore

open TextLines

/-- The presets the file gives, unless it gives none. -/
def takeLoaded (s : ButtonStore) (loaded : List Preset) : ButtonStore :=
  { s with
    presets := if loaded = [] then s.presets else loaded
    current := 0
    current_lt := by
      have := s.current_lt
      split_ifs with h
      · omega
      · exact List.length_pos_iff.mpr h }

/-- `load`, from the directory given (empty for none) and the file in it (none if it cannot be
opened). -/
def load (s : ButtonStore) (externalDir : List UInt8) (file : Option (List UInt8)) : ButtonStore :=
  if externalDir = [] then s
  else
    let s := { s with path := externalDir ++ ascii "/" ++ ascii "buttons.txt" }
    match file with
    | none => s
    | some text => s.takeLoaded (readLines (lines 10 text) [] 0)

def save (s : ButtonStore) : Option (List UInt8) :=
  if s.path = [] then none else some (fileText s.presets)

/-! ### The preset in use -/

def buttons (s : ButtonStore) : List CustomButton :=
  (s.presets.get ⟨s.current, s.current_lt⟩).buttons

/-- A change to the buttons of the preset in use. -/
def modifyButtons (s : ButtonStore) (f : List CustomButton → List CustomButton) : ButtonStore :=
  { s with
    presets := s.presets.modify s.current fun p => { p with buttons := f p.buttons }
    current_lt := by simpa using s.current_lt }

def valid (s : ButtonStore) (index : ℤ) : Prop := 0 ≤ index ∧ index.toNat < s.buttons.length

def validPreset (s : ButtonStore) (index : ℤ) : Prop := 0 ≤ index ∧ index.toNat < s.presets.length

instance (s : ButtonStore) (index : ℤ) : Decidable (s.valid index) :=
  inferInstanceAs (Decidable (_ ∧ _))

instance (s : ButtonStore) (index : ℤ) : Decidable (s.validPreset index) :=
  inferInstanceAs (Decidable (_ ∧ _))

/-- An operation that did something and saved it. -/
def saved (s : ButtonStore) : ButtonStore × Option (List UInt8) := (s, s.save)

@[simp] lemma saved_fst (s : ButtonStore) : s.saved.1 = s := rfl
@[simp] lemma saved_snd (s : ButtonStore) : s.saved.2 = s.save := rfl

def add (s : ButtonStore) (button : CustomButton) : ButtonStore × Option (List UInt8) :=
  if s.buttons.length ≥ kMaxButtons then (s, none)
  else
    let button := { button with label := sanitizeLabel button.label }
    (s.modifyButtons (· ++ [button])).saved

def replace (s : ButtonStore) (index : ℤ) (button : CustomButton) :
    ButtonStore × Option (List UInt8) :=
  if ¬ s.valid index then (s, none)
  else
    let button := { button with label := sanitizeLabel button.label }
    (s.modifyButtons (·.set index.toNat button)).saved

def remove (s : ButtonStore) (index : ℤ) : ButtonStore × Option (List UInt8) :=
  if ¬ s.valid index then (s, none) else (s.modifyButtons (·.eraseIdx index.toNat)).saved

/-- One button slides along the list, as far as the list goes. -/
def move (s : ButtonStore) (index delta : ℤ) : ButtonStore × Option (List UInt8) :=
  if ¬ s.valid index ∨ delta = 0 then (s, none)
  else
    let last : ℤ := s.buttons.length - 1
    let dest := max 0 (min last (index + delta))
    if dest = index then (s, none)
    else
      let moved := s.buttons.getD index.toNat {}
      (s.modifyButtons fun bs => (bs.eraseIdx index.toNat).insertIdx dest.toNat moved).saved

/-! ### The presets themselves -/

/-- The store, and whether the selection actually moved. Nothing is written: which preset is in
use is not in the file. -/
def select (s : ButtonStore) (index : ℤ) : ButtonStore × Bool :=
  if h : ¬ s.validPreset index ∨ index = s.current then (s, false)
  else
    ({ s with
        current := index.toNat
        current_lt := (not_not.mp (not_or.mp h).1).2 }, true)

def create (s : ButtonStore) (name : List UInt8) : ButtonStore × Option (List UInt8) :=
  if s.presets.length ≥ kMaxPresets then (s, none)
  else
    saved { s with
      presets := s.presets ++ [{ name := sanitizeLabel name }]
      current := s.presets.length
      current_lt := by simp }

/-- A change to one preset. -/
def modifyPreset (s : ButtonStore) (index : ℕ) (f : Preset → Preset) : ButtonStore :=
  { s with
    presets := s.presets.modify index f
    current_lt := by simpa using s.current_lt }

def rename (s : ButtonStore) (index : ℤ) (name : List UInt8) : ButtonStore × Option (List UInt8) :=
  if ¬ s.validPreset index then (s, none)
  else (s.modifyPreset index.toNat fun p => { p with name := sanitizeLabel name }).saved

def setMatch (s : ButtonStore) (index : ℤ) (process : List UInt8) :
    ButtonStore × Option (List UInt8) :=
  if ¬ s.validPreset index then (s, none)
  else (s.modifyPreset index.toNat fun p => { p with match' := sanitizeLabel process }).saved

/-- The last preset stays: something has to hold the buttons. -/
def removePreset (s : ButtonStore) (index : ℤ) : ButtonStore × Option (List UInt8) :=
  if h : ¬ s.validPreset index ∨ s.presets.length ≤ 1 then (s, none)
  else
    saved { s with
      presets := s.presets.eraseIdx index.toNat
      current := min s.current (s.presets.length - 2)
      current_lt := by
        obtain ⟨hv, hlen⟩ := not_or.mp h
        have := (not_not.mp hv).2
        rw [List.length_eraseIdx_of_lt this]
        omega }

/-! ### Runs -/

/-- What can be done to a store. -/
inductive Op where
  | load (externalDir : List UInt8) (file : Option (List UInt8))
  | add (button : CustomButton)
  | replace (index : ℤ) (button : CustomButton)
  | remove (index : ℤ)
  | move (index delta : ℤ)
  | select (index : ℤ)
  | create (name : List UInt8)
  | rename (index : ℤ) (name : List UInt8)
  | setMatch (index : ℤ) (process : List UInt8)
  | removePreset (index : ℤ)
  deriving DecidableEq, Repr

/-- The store after the operation, and what was written to the file. -/
def apply (s : ButtonStore) : Op → ButtonStore × Option (List UInt8)
  | .load externalDir file => (s.load externalDir file, none)
  | .add button => s.add button
  | .replace index button => s.replace index button
  | .remove index => s.remove index
  | .move index delta => s.move index delta
  | .select index => ((s.select index).1, none)
  | .create name => s.create name
  | .rename index name => s.rename index name
  | .setMatch index process => s.setMatch index process
  | .removePreset index => s.removePreset index

/-- A fresh store after the operations. -/
def run (ops : List Op) : ButtonStore := ops.foldl (fun s op => (s.apply op).1) {}

/-! ### What an operation does

Either nothing, and nothing is written, or the one thing it is for, and that is saved.
-/

section cases

variable (s : ButtonStore)

/-- The button as it is kept. -/
def CustomButton.kept (button : CustomButton) : CustomButton :=
  { button with label := sanitizeLabel button.label }

lemma add_cases (button : CustomButton) : s.add button = (s, none) ∨
    s.buttons.length < kMaxButtons ∧
      s.add button = (s.modifyButtons (· ++ [button.kept])).saved := by
  by_cases h : s.buttons.length ≥ kMaxButtons
  · exact Or.inl (if_pos h)
  · exact Or.inr ⟨not_le.mp h, if_neg h⟩

lemma replace_cases (index : ℤ) (button : CustomButton) : s.replace index button = (s, none) ∨
    s.valid index ∧
      s.replace index button = (s.modifyButtons (·.set index.toNat button.kept)).saved := by
  by_cases h : s.valid index
  · exact Or.inr ⟨h, if_neg (not_not.mpr h)⟩
  · exact Or.inl (if_pos h)

lemma remove_cases (index : ℤ) : s.remove index = (s, none) ∨
    s.valid index ∧ s.remove index = (s.modifyButtons (·.eraseIdx index.toNat)).saved := by
  by_cases h : s.valid index
  · exact Or.inr ⟨h, if_neg (not_not.mpr h)⟩
  · exact Or.inl (if_pos h)

lemma move_cases (index delta : ℤ) : s.move index delta = (s, none) ∨
    s.valid index ∧ ∃ dest < s.buttons.length, (dest : ℤ) ≠ index ∧
      s.move index delta = (s.modifyButtons fun bs =>
        (bs.eraseIdx index.toNat).insertIdx dest (s.buttons.getD index.toNat {})).saved := by
  by_cases h : ¬ s.valid index ∨ delta = 0
  · exact Or.inl (if_pos h)
  · have hv := not_not.mp (not_or.mp h).1
    by_cases hsame : max 0 (min ((s.buttons.length : ℤ) - 1) (index + delta)) = index
    · exact Or.inl ((if_neg h).trans (if_pos hsame))
    · refine Or.inr ⟨hv, (max 0 (min ((s.buttons.length : ℤ) - 1) (index + delta))).toNat, ?_, ?_,
        (if_neg h).trans (if_neg hsame)⟩
      · have := hv.2
        omega
      · rw [Int.toNat_of_nonneg (le_max_left _ _)]
        exact hsame

lemma create_cases (name : List UInt8) : s.create name = (s, none) ∨
    s.presets.length < kMaxPresets ∧ (s.create name).2 = (s.create name).1.save ∧
      (s.create name).1.path = s.path ∧
      (s.create name).1.presets = s.presets ++ [{ name := sanitizeLabel name }] := by
  unfold create
  split_ifs with h
  · exact Or.inl rfl
  · exact Or.inr ⟨not_le.mp h, rfl, rfl, rfl⟩

lemma rename_cases (index : ℤ) (name : List UInt8) : s.rename index name = (s, none) ∨
    s.validPreset index ∧ s.rename index name =
      (s.modifyPreset index.toNat fun p => { p with name := sanitizeLabel name }).saved := by
  by_cases h : s.validPreset index
  · exact Or.inr ⟨h, if_neg (not_not.mpr h)⟩
  · exact Or.inl (if_pos h)

lemma setMatch_cases (index : ℤ) (process : List UInt8) : s.setMatch index process = (s, none) ∨
    s.validPreset index ∧ s.setMatch index process =
      (s.modifyPreset index.toNat fun p => { p with match' := sanitizeLabel process }).saved := by
  by_cases h : s.validPreset index
  · exact Or.inr ⟨h, if_neg (not_not.mpr h)⟩
  · exact Or.inl (if_pos h)

lemma removePreset_cases (index : ℤ) : s.removePreset index = (s, none) ∨
    s.validPreset index ∧ 1 < s.presets.length ∧
      (s.removePreset index).2 = (s.removePreset index).1.save ∧
      (s.removePreset index).1.path = s.path ∧
      (s.removePreset index).1.presets = s.presets.eraseIdx index.toNat := by
  unfold removePreset
  split_ifs with h
  · exact Or.inl rfl
  · obtain ⟨hv, hlen⟩ := not_or.mp h
    exact Or.inr ⟨not_not.mp hv, not_le.mp hlen, rfl, rfl, rfl⟩

lemma select_presets (index : ℤ) : (s.select index).1.presets = s.presets := by
  unfold select
  split_ifs <;> rfl

end cases

/-! ### What the line format can hold -/

/-- A text that fits into a field of the file. -/
def TidyText (l : List UInt8) : Prop := l.length ≤ 24 ∧ 9 ∉ l ∧ 10 ∉ l ∧ 13 ∉ l

lemma sanitizeLabel_tidy (l : List UInt8) : TidyText (sanitizeLabel l) := by
  have hnot : ∀ c : UInt8, c = 9 ∨ c = 10 ∨ c = 13 → c ∉ sanitizeLabel l := fun c hc hm => by
    have := (List.mem_filter.mp (List.mem_of_mem_take hm)).2
    simp [hc] at this
  refine ⟨?_, hnot 9 (by decide), hnot 10 (by decide), hnot 13 (by decide)⟩
  rw [sanitizeLabel, List.length_take]
  exact min_le_left _ _

lemma sanitizeLabel_of_tidy {l : List UInt8} (h : TidyText l) : sanitizeLabel l = l := by
  obtain ⟨hlen, h9, h10, h13⟩ := h
  have hall : ∀ c ∈ l, (!decide (c = 9 ∨ c = 10 ∨ c = 13)) = true := fun c hc => by
    have h9' : c ≠ 9 := fun he => h9 (he ▸ hc)
    have h10' : c ≠ 10 := fun he => h10 (he ▸ hc)
    have h13' : c ≠ 13 := fun he => h13 (he ▸ hc)
    simp [h9', h10', h13']
  rw [sanitizeLabel, List.filter_eq_self.mpr hall, List.take_of_length_le hlen]

structure Preset.Tidy (p : Preset) : Prop where
  name_tidy : TidyText p.name
  match_tidy : TidyText p.match'
  labels_tidy : ∀ b ∈ p.buttons, TidyText b.label
  few : p.buttons.length ≤ kMaxButtons

/-- What every operation keeps: the texts fit, and nothing has grown past its limit. -/
structure Tidy (s : ButtonStore) : Prop where
  presets_tidy : ∀ p ∈ s.presets, p.Tidy
  few : s.presets.length ≤ kMaxPresets

lemma fresh_preset_tidy : Preset.Tidy {} :=
  ⟨sanitizeLabel_tidy [], sanitizeLabel_tidy [], by simp, Nat.zero_le _⟩

lemma named_preset_tidy (name match' : List UInt8) :
    Preset.Tidy { name := sanitizeLabel name, match' := sanitizeLabel match' } :=
  ⟨sanitizeLabel_tidy _, sanitizeLabel_tidy _, by simp, Nat.zero_le _⟩

lemma fresh_tidy : Tidy {} := by
  refine ⟨fun p hp => ?_, by decide⟩
  obtain rfl := List.mem_singleton.mp hp
  exact fresh_preset_tidy

lemma forall_mem_modify {l : List Preset} {i : ℕ} {f : Preset → Preset} {P : Preset → Prop}
    (h : ∀ p ∈ l, P p) (hf : ∀ p, l[i]? = some p → P (f p)) : ∀ p ∈ l.modify i f, P p := by
  intro p hp
  obtain ⟨j, hj⟩ := List.mem_iff_getElem?.mp hp
  rw [List.getElem?_modify] at hj
  split_ifs at hj with hij
  · subst hij
    obtain ⟨q, hq, rfl⟩ := Option.map_eq_some_iff.mp hj
    exact hf q hq
  · have hj : l[j]? = some p := by simpa using hj
    exact h p (List.mem_of_getElem? hj)

variable {s : ButtonStore}

lemma getElem?_current : s.presets[s.current]? = some (s.presets.get ⟨s.current, s.current_lt⟩) :=
  List.getElem?_eq_getElem s.current_lt

lemma Tidy.current (h : s.Tidy) : (s.presets.get ⟨s.current, s.current_lt⟩).Tidy :=
  h.presets_tidy _ (List.get_mem _ _)

lemma Tidy.modifyButtons {f : List CustomButton → List CustomButton} (h : s.Tidy)
    (hlen : (f s.buttons).length ≤ kMaxButtons) (hf : ∀ b ∈ f s.buttons, TidyText b.label) :
    (s.modifyButtons f).Tidy := by
  refine ⟨forall_mem_modify h.presets_tidy fun p hp => ?_, ?_⟩
  · obtain rfl : s.presets.get ⟨s.current, s.current_lt⟩ = p := by
      rw [getElem?_current] at hp
      exact Option.some.inj hp
    exact ⟨h.current.name_tidy, h.current.match_tidy, hf, hlen⟩
  · simpa [ButtonStore.modifyButtons] using h.few

lemma Tidy.modifyPreset {f : Preset → Preset} (h : s.Tidy) (index : ℕ)
    (hf : ∀ p : Preset, p.Tidy → (f p).Tidy) : (s.modifyPreset index f).Tidy := by
  refine ⟨forall_mem_modify h.presets_tidy fun p hp => ?_, ?_⟩
  · exact hf p (h.presets_tidy p (List.mem_of_getElem? hp))
  · simpa [ButtonStore.modifyPreset] using h.few

lemma add_tidy (h : s.Tidy) (button : CustomButton) : (s.add button).1.Tidy := by
  obtain he | ⟨hlt, he⟩ := s.add_cases button <;> rw [he]
  · exact h
  · rw [saved_fst]
    refine h.modifyButtons ?_ fun b hb => ?_
    · rw [List.length_append, List.length_singleton]
      exact hlt
    · obtain hb | hb := List.mem_append.mp hb
      · exact h.current.labels_tidy b hb
      · rw [List.mem_singleton.mp hb]
        exact sanitizeLabel_tidy _

lemma replace_tidy (h : s.Tidy) (index : ℤ) (button : CustomButton) :
    (s.replace index button).1.Tidy := by
  obtain he | ⟨-, he⟩ := s.replace_cases index button <;> rw [he]
  · exact h
  · rw [saved_fst]
    refine h.modifyButtons ?_ fun b hb => ?_
    · rw [List.length_set]
      exact h.current.few
    · obtain hb | rfl := List.mem_or_eq_of_mem_set hb
      · exact h.current.labels_tidy b hb
      · exact sanitizeLabel_tidy _

lemma remove_tidy (h : s.Tidy) (index : ℤ) : (s.remove index).1.Tidy := by
  obtain he | ⟨-, he⟩ := s.remove_cases index <;> rw [he]
  · exact h
  · rw [saved_fst]
    refine h.modifyButtons ?_ fun b hb => ?_
    · exact (List.length_eraseIdx_le _ _).trans h.current.few
    · exact h.current.labels_tidy b (List.mem_of_mem_eraseIdx hb)

lemma move_tidy (h : s.Tidy) (index delta : ℤ) : (s.move index delta).1.Tidy := by
  obtain he | ⟨hv, dest, -, -, he⟩ := s.move_cases index delta <;> rw [he]
  · exact h
  · rw [saved_fst]
    have hmoved : s.buttons.getD index.toNat {} ∈ s.buttons := by
      rw [List.getD_eq_getElem _ _ hv.2]
      exact List.getElem_mem hv.2
    refine h.modifyButtons ?_ fun b hb => ?_
    · have hlen := List.length_eraseIdx_of_lt hv.2
      have hins := List.length_insertIdx_le_succ (l := s.buttons.eraseIdx index.toNat)
        (x := s.buttons.getD index.toNat {}) (i := dest)
      have hpos := hv.2
      have hfew : s.buttons.length ≤ kMaxButtons := h.current.few
      omega
    · obtain rfl | hb := List.eq_or_mem_of_mem_insertIdx hb
      · exact h.current.labels_tidy _ hmoved
      · exact h.current.labels_tidy b (List.mem_of_mem_eraseIdx hb)

lemma create_tidy (h : s.Tidy) (name : List UInt8) : (s.create name).1.Tidy := by
  obtain he | ⟨hlt, -, -, he⟩ := s.create_cases name
  · rw [he]
    exact h
  · refine ⟨fun p hp => ?_, ?_⟩
    · rw [he] at hp
      obtain hp | hp := List.mem_append.mp hp
      · exact h.presets_tidy p hp
      · rw [List.mem_singleton.mp hp]
        exact named_preset_tidy name []
    · rw [he, List.length_append, List.length_singleton]
      exact hlt

lemma rename_tidy (h : s.Tidy) (index : ℤ) (name : List UInt8) :
    (s.rename index name).1.Tidy := by
  obtain he | ⟨-, he⟩ := s.rename_cases index name <;> rw [he]
  · exact h
  · rw [saved_fst]
    exact h.modifyPreset _ fun p hp =>
      ⟨sanitizeLabel_tidy name, hp.match_tidy, hp.labels_tidy, hp.few⟩

lemma setMatch_tidy (h : s.Tidy) (index : ℤ) (process : List UInt8) :
    (s.setMatch index process).1.Tidy := by
  obtain he | ⟨-, he⟩ := s.setMatch_cases index process <;> rw [he]
  · exact h
  · rw [saved_fst]
    exact h.modifyPreset _ fun p hp =>
      ⟨hp.name_tidy, sanitizeLabel_tidy process, hp.labels_tidy, hp.few⟩

lemma removePreset_tidy (h : s.Tidy) (index : ℤ) : (s.removePreset index).1.Tidy := by
  obtain he | ⟨-, -, -, -, he⟩ := s.removePreset_cases index
  · rw [he]
    exact h
  · refine ⟨fun p hp => ?_, ?_⟩
    · rw [he] at hp
      exact h.presets_tidy p (List.mem_of_mem_eraseIdx hp)
    · rw [he]
      exact (List.length_eraseIdx_le _ _).trans h.few

/-! ### What a file gives -/

/-- How many buttons there are in all the presets together. -/
def total (presets : List Preset) : ℕ := (presets.map fun p => p.buttons.length).sum

@[simp] lemma total_nil : total [] = 0 := rfl

@[simp] lemma total_append (ps qs : List Preset) : total (ps ++ qs) = total ps + total qs := by
  simp [total]

@[simp] lemma total_cons (p : Preset) (ps : List Preset) :
    total (p :: ps) = p.buttons.length + total ps := by
  simp [total]

/-- What can be read from a file: the limits hold for the file as a whole, and no key has a tab or
a line end in it. -/
structure FromFile (loaded : List Preset) : Prop where
  presets_tidy : ∀ p ∈ loaded, p.Tidy
  few : loaded.length ≤ kMaxPresets
  total_le : total loaded ≤ kMaxButtons
  keys : ∀ p ∈ loaded, ∀ b ∈ p.buttons, 9 ∉ b.key ∧ 10 ∉ b.key

lemma fromFile_nil : FromFile [] := ⟨by simp, Nat.zero_le _, Nat.zero_le _, by simp⟩

lemma pushButton_concat (ps : List Preset) (p : Preset) (b : CustomButton) :
    pushButton (ps ++ [p]) b = ps ++ [{ p with buttons := p.buttons ++ [b] }] := by
  have hlast : (ps ++ [p]).length - 1 = ps.length := by simp
  rw [pushButton, hlast, List.modify_eq_take_cons_drop (by simp)]
  simp

lemma mem_popCr {line : List UInt8} {c : UInt8} (h : c ∈ popCr line) : c ∈ line := by
  unfold popCr at h
  split_ifs at h
  · exact List.mem_of_mem_dropLast h
  · exact h

lemma getD_mem_or {l : List (List UInt8)} (i : ℕ) : l.getD i [] ∈ l ∨ l.getD i [] = [] := by
  by_cases h : i < l.length
  · rw [List.getD_eq_getElem _ _ h]
    exact Or.inl (List.getElem_mem h)
  · exact Or.inr (List.getD_eq_default _ _ (not_lt.mp h))

/-- A button that is read is tidy and its key was part of the line. -/
lemma parseButton_spec {line : List UInt8} {first : ℕ} {b : CustomButton}
    (h : parseButton (line.splitOn 9) first = some b) :
    TidyText b.label ∧ 9 ∉ b.key ∧ ∀ c ∈ b.key, c ∈ line := by
  unfold parseButton at h
  split_ifs at h
  obtain ⟨kind, -, rfl⟩ := Option.map_eq_some_iff.mp h
  refine ⟨sanitizeLabel_tidy _, ?_, fun c hc => ?_⟩
  · obtain hm | he := getD_mem_or (l := line.splitOn 9) (first + 7)
    · exact not_mem_of_mem_splitOn hm
    · rw [he]
      exact List.not_mem_nil
  · obtain hm | he := getD_mem_or (l := line.splitOn 9) (first + 7)
    · exact mem_of_mem_splitOn hm hc
    · rw [he] at hc
      exact absurd hc List.not_mem_nil

/-- What a line can say. -/
lemma readLine_cases (line : List UInt8) : readLine line = .skipped ∨
    (∃ name match', readLine line =
      .preset { name := sanitizeLabel name, match' := sanitizeLabel match' }) ∨
    ∃ b, readLine line = .button b ∧ TidyText b.label ∧ 9 ∉ b.key ∧ ∀ c ∈ b.key, c ∈ line := by
  rw [readLine]
  dsimp only
  generalize (if ((popCr line).splitOn 9).getD 0 [] = ascii "B" then 1 else 0) = first
  split_ifs
  · exact Or.inl rfl
  · exact Or.inr (Or.inl ⟨_, _, rfl⟩)
  · cases hb : parseButton ((popCr line).splitOn 9) first with
    | none => exact Or.inl rfl
    | some b =>
      obtain ⟨hlabel, htab, hmem⟩ := parseButton_spec hb
      exact Or.inr (Or.inr ⟨b, rfl, hlabel, htab, fun c hc => mem_popCr (hmem c hc)⟩)

lemma FromFile.snoc {loaded : List Preset} {p : Preset} (h : FromFile loaded) (hp : p.Tidy)
    (hempty : p.buttons = []) (hlen : loaded.length < kMaxPresets) : FromFile (loaded ++ [p]) := by
  refine ⟨fun q hq => ?_, ?_, ?_, fun q hq b hb => ?_⟩
  · obtain hq | hq := List.mem_append.mp hq
    · exact h.presets_tidy q hq
    · rw [List.mem_singleton.mp hq]
      exact hp
  · rw [List.length_append, List.length_singleton]
    exact hlen
  · simpa [hempty] using h.total_le
  · obtain hq | hq := List.mem_append.mp hq
    · exact h.keys q hq b hb
    · rw [List.mem_singleton.mp hq, hempty] at hb
      exact absurd hb List.not_mem_nil

lemma FromFile.push {loaded : List Preset} {b : CustomButton} (h : FromFile loaded)
    (hne : loaded ≠ []) (hlabel : TidyText b.label) (hkey : 9 ∉ b.key ∧ 10 ∉ b.key)
    (htotal : total loaded < kMaxButtons) :
    FromFile (pushButton loaded b) ∧ total (pushButton loaded b) = total loaded + 1 := by
  obtain rfl | ⟨ps, p, rfl⟩ := List.eq_nil_or_concat' loaded
  · contradiction
  rw [pushButton_concat]
  have hp := h.presets_tidy p (by simp)
  have hsum : total (ps ++ [{ p with buttons := p.buttons ++ [b] }]) = total (ps ++ [p]) + 1 := by
    simp
    omega
  refine ⟨⟨fun q hq => ?_, ?_, ?_, fun q hq c hc => ?_⟩, hsum⟩
  · obtain hq | hq := List.mem_append.mp hq
    · exact h.presets_tidy q (List.mem_append_left _ hq)
    · rw [List.mem_singleton.mp hq]
      refine ⟨hp.name_tidy, hp.match_tidy, fun c hc => ?_, ?_⟩
      · obtain hc | hc := List.mem_append.mp hc
        · exact hp.labels_tidy c hc
        · rw [List.mem_singleton.mp hc]
          exact hlabel
      · simp only [total_append, total_cons, total_nil] at htotal
        simp only [List.length_append, List.length_singleton]
        omega
  · simpa using h.few
  · rw [hsum]
    exact htotal
  · obtain hq | hq := List.mem_append.mp hq
    · exact h.keys q (List.mem_append_left _ hq) c hc
    · rw [List.mem_singleton.mp hq] at hc
      obtain hc | hc := List.mem_append.mp hc
      · exact h.keys p (by simp) c hc
      · rw [List.mem_singleton.mp hc]
        exact hkey

/-- **The loop keeps to the limits.** Whatever the lines say, what is read from them is tidy. -/
theorem readLines_fromFile {ls : List (List UInt8)} {loaded : List Preset}
    (hls : ∀ l ∈ ls, 10 ∉ l) (h : FromFile loaded) :
    FromFile (readLines ls loaded (total loaded)) := by
  induction ls generalizing loaded with
  | nil => exact h
  | cons line rest ih =>
    have hrest : ∀ l ∈ rest, 10 ∉ l := fun l hl => hls l (List.mem_cons_of_mem _ hl)
    rw [readLines]
    obtain hr | ⟨name, match', hr⟩ | ⟨b, hr, hlabel, htab, hmem⟩ := readLine_cases line
    · rw [hr]
      exact ih hrest h
    · rw [hr]
      dsimp only
      split_ifs with hfull
      · exact h
      · have := ih hrest (h.snoc (named_preset_tidy name match') rfl (not_le.mp hfull))
        simpa using this
    · rw [hr]
      dsimp only
      have hkey : 9 ∉ b.key ∧ 10 ∉ b.key :=
        ⟨htab, fun hc => hls line List.mem_cons_self (hmem 10 hc)⟩
      -- the preset that has to be there
      have hbase : ∃ base, (if loaded = [] then [{}] else loaded) = base ∧ base ≠ [] ∧
          FromFile base ∧ total base = total loaded := by
        split_ifs with he
        · rw [he]
          exact ⟨_, rfl, by simp, fromFile_nil.snoc fresh_preset_tidy rfl (by decide), rfl⟩
        · exact ⟨_, rfl, he, h, rfl⟩
      obtain ⟨base, hbase, hne, hfrom, htotal⟩ := hbase
      rw [hbase, ← htotal]
      split_ifs with hfull
      · exact hfrom
      · obtain ⟨hpush, hsum⟩ := hfrom.push hne hlabel hkey (not_le.mp hfull)
        rw [← hsum]
        exact ih hrest hpush

/-- **Whatever the file.** What is loaded is tidy. -/
theorem fromFile_lines (text : List UInt8) : FromFile (readLines (lines 10 text) [] 0) :=
  readLines_fromFile (fun _ hl => not_mem_of_mem_lines hl) fromFile_nil

lemma load_tidy (h : s.Tidy) (externalDir : List UInt8) (file : Option (List UInt8)) :
    (s.load externalDir file).Tidy := by
  unfold load
  split_ifs
  · exact h
  · cases file with
    | none => exact ⟨h.presets_tidy, h.few⟩
    | some text =>
      have hfile := fromFile_lines text
      dsimp only [takeLoaded]
      split_ifs with hno
      · exact ⟨h.presets_tidy, h.few⟩
      · exact ⟨hfile.presets_tidy, hfile.few⟩

lemma apply_tidy (h : s.Tidy) (op : Op) : (s.apply op).1.Tidy := by
  cases op with
  | load externalDir file => exact load_tidy h externalDir file
  | add button => exact add_tidy h button
  | replace index button => exact replace_tidy h index button
  | remove index => exact remove_tidy h index
  | move index delta => exact move_tidy h index delta
  | select index =>
    have := s.select_presets index
    exact ⟨fun p hp => h.presets_tidy p (this ▸ hp), (congrArg List.length this).trans_le h.few⟩
  | create name => exact create_tidy h name
  | rename index name => exact rename_tidy h index name
  | setMatch index process => exact setMatch_tidy h index process
  | removePreset index => exact removePreset_tidy h index

/-- **Whatever is done.** Every store that can be reached is tidy. -/
theorem run_tidy (ops : List Op) : (run ops).Tidy :=
  List.foldlRecOn ops _ fresh_tidy fun _ h op _ => apply_tidy h op

end ButtonStore

end Digitiz
