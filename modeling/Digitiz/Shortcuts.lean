import Digitiz.TextLines
import Mathlib.Data.Fin.Basic
import Mathlib.Data.Nat.Bitwise

/-!
The shortcut editor.

A shortcut is typed as names with plus signs between them. The names of modifiers are collected
into bits, and the one name that is left is the key. A shortcut that is edited is shown in the same
form, with one label for each modifier. Strings are sequences of 16-bit code units; lowering their
case is the platform's business.
-/

namespace Digitiz.Shortcuts

open TextLines

abbrev JString := List UInt16

/-- The code units of an ASCII string. -/
def utf16 (s : String) : JString := s.toList.map fun c => UInt16.ofNat c.toNat

def plus : UInt16 := 43

/-- `String.trim` takes these off both ends. -/
def isBlank (c : UInt16) : Bool := c ≤ 32

def trim (s : JString) : JString := trimBy isBlank s

/-- `String.split` around plus signs: the empty pieces at the end are dropped, and a text without a
plus sign is one piece. -/
def splitPlus (text : JString) : List JString :=
  if plus ∈ text then (text.splitOn plus).rdropWhile (· = []) else [text]

def MOD_CTRL : ℕ := 1
def MOD_SHIFT : ℕ := 2
def MOD_ALT : ℕ := 4
def MOD_META : ℕ := 8

def isModifierName (piece : JString) : Bool :=
  piece ∈ ["ctrl", "control", "shift", "alt", "option", "win", "meta", "cmd", "super"].map utf16

/-- The bit of a modifier's name, or none of them. -/
def modifierBit (piece : JString) : ℕ :=
  if piece = utf16 "ctrl" ∨ piece = utf16 "control" then MOD_CTRL
  else if piece = utf16 "shift" then MOD_SHIFT
  else if piece = utf16 "alt" ∨ piece = utf16 "option" then MOD_ALT
  else if piece = utf16 "win" ∨ piece = utf16 "meta" ∨ piece = utf16 "cmd" ∨
      piece = utf16 "super" then MOD_META
  else 0

section editor

variable (toLowerCase : JString → JString)

def parseModifiers (text : JString) : ℕ :=
  (splitPlus (toLowerCase text)).foldl (fun mods part => mods ||| modifierBit (trim part)) 0

/-- The loop of `parseKeyName`, with the key found so far. -/
def keyNameLoop : List JString → JString → JString
  | [], key => key
  | part :: rest, key =>
    let piece := trim part
    if piece = [] ∨ isModifierName piece then keyNameLoop rest key
    else if key ≠ [] then []
    else keyNameLoop rest piece

/-- The one segment that is not a modifier. Empty when there is not exactly one. -/
def parseKeyName (text : JString) : JString := keyNameLoop (splitPlus (toLowerCase text)) []

end editor

def formatShortcut (modifiers : ℕ) (key : JString) : JString :=
  (if modifiers &&& MOD_CTRL ≠ 0 then utf16 "Ctrl+" else []) ++
    (if modifiers &&& MOD_SHIFT ≠ 0 then utf16 "Shift+" else []) ++
    (if modifiers &&& MOD_ALT ≠ 0 then utf16 "Alt+" else []) ++
    (if modifiers &&& MOD_META ≠ 0 then utf16 "Win+" else []) ++ key

/-! ### The pieces that count -/

/-- What is not a modifier and not empty. -/
def isKey (piece : JString) : Bool := piece ≠ [] ∧ ¬ isModifierName piece

/-- The pieces of a text that are keys. -/
def keys (parts : List JString) : List JString := (parts.map trim).filter isKey

lemma keys_cons (part : JString) (rest : List JString) : keys (part :: rest) =
    if trim part = [] ∨ isModifierName (trim part) then keys rest
    else trim part :: keys rest := by
  rw [keys, List.map_cons]
  split_ifs with h
  · rw [List.filter_cons_of_neg, keys]
    rw [isKey, decide_eq_true_eq]
    tauto
  · rw [List.filter_cons_of_pos, keys]
    rw [isKey, decide_eq_true_eq]
    tauto

@[simp] lemma keys_append (ps qs : List JString) : keys (ps ++ qs) = keys ps ++ keys qs := by
  simp [keys]

lemma keyNameLoop_of_ne_nil (parts : List JString) {key : JString} (h : key ≠ []) :
    keyNameLoop parts key = if keys parts = [] then key else [] := by
  induction parts with
  | nil => rfl
  | cons part rest ih =>
    rw [keyNameLoop, keys_cons]
    by_cases hpart : trim part = [] ∨ isModifierName (trim part)
    · rw [if_pos hpart, if_pos hpart, ih]
    · rw [if_neg hpart, if_neg hpart, if_pos h, if_neg (List.cons_ne_nil _ _)]

/-- The loop gives the one key there is, if there is exactly one. -/
lemma keyNameLoop_nil (parts : List JString) :
    keyNameLoop parts [] = if (keys parts).length = 1 then (keys parts).headD [] else [] := by
  induction parts with
  | nil => rfl
  | cons part rest ih =>
    rw [keyNameLoop, keys_cons]
    by_cases hpart : trim part = [] ∨ isModifierName (trim part)
    · rw [if_pos hpart, if_pos hpart, ih]
    · rw [if_neg hpart, if_neg hpart, if_neg (not_not.mpr rfl),
        keyNameLoop_of_ne_nil _ fun he => hpart (Or.inl he)]
      simp

lemma keys_singleton_nil : keys [[]] = [] := rfl

/-- The empty pieces that are dropped are no keys. -/
lemma keys_splitPlus (text : JString) : keys (splitPlus text) = keys (text.splitOn plus) := by
  unfold splitPlus
  split_ifs with hplus
  · induction text.splitOn plus using List.reverseRecOn with
    | nil => rfl
    | append_singleton ps p ih =>
      rw [List.rdropWhile_concat]
      split_ifs with hp
      · rw [ih, keys_append, of_decide_eq_true hp, keys_singleton_nil, List.append_nil]
      · rfl
  · rw [List.splitOn_eq_singleton hplus]

/-! ### Lowering the case -/

/-- What the editor relies on. Plus signs and blanks have no case, and what is on one side of them
does not matter to the other. -/
structure LowerCases (toLowerCase : JString → JString) : Prop where
  idempotent : ∀ s, toLowerCase (toLowerCase s) = toLowerCase s
  ctrl : toLowerCase (utf16 "Ctrl") = utf16 "ctrl"
  shift : toLowerCase (utf16 "Shift") = utf16 "shift"
  alt : toLowerCase (utf16 "Alt") = utf16 "alt"
  win : toLowerCase (utf16 "Win") = utf16 "win"
  across : ∀ (u v : JString) (c : UInt16), c = plus ∨ isBlank c = true →
    toLowerCase (u ++ c :: v) = toLowerCase u ++ c :: toLowerCase v

section lowered

variable {L : JString → JString} (hL : LowerCases L) {u v s : JString} {c : UInt16}
include hL

/-- What is in lower case is so on both sides of a mark. -/
lemma LowerCases.sides (hc : c = plus ∨ isBlank c = true) (h : L (u ++ c :: v) = u ++ c :: v) :
    L u = u ∧ L v = v := by
  rw [hL.across u v c hc] at h
  obtain ⟨w, hu, hv⟩ | ⟨w, hu, hv⟩ := List.append_eq_append_iff.mp h
  · cases w with
    | nil => exact ⟨by simpa using hu.symm, (List.cons.inj hv).2⟩
    | cons d w =>
      -- the left side has the mark in it, which its lower case keeps
      obtain rfl := (List.cons.inj hv).1
      have hlow := congrArg L hu
      rw [hL.across _ _ _ hc, hL.idempotent] at hlow
      simpa using congrArg List.length hlow
  · cases w with
    | nil => exact ⟨by simpa using hu, (List.cons.inj hv).2.symm⟩
    | cons d w =>
      obtain rfl := (List.cons.inj hv).1
      have hlow : L v = L (w ++ c :: L v) := congrArg L (List.cons.inj hv).2
      rw [hL.across _ _ _ hc, hL.idempotent] at hlow
      have hlen := congrArg List.length hlow
      rw [List.length_append, List.length_cons] at hlen
      omega

lemma LowerCases.of_mem_splitOn {p : JString} (hs : L s = s) (hp : p ∈ s.splitOn plus) :
    L p = p := by
  have hjoin : ∀ ls : List JString, L (List.intercalate [plus] ls) = List.intercalate [plus] ls →
      ∀ p ∈ ls, L p = p := by
    intro ls
    induction ls with
    | nil => simp
    | cons l ls ih =>
      intro hfix
      cases ls with
      | nil => simpa using hfix
      | cons l' ls =>
        rw [List.intercalate_cons_cons, List.append_assoc, List.singleton_append] at hfix
        obtain ⟨hl, hrest⟩ := hL.sides (Or.inl rfl) hfix
        exact List.forall_mem_cons.mpr ⟨hl, ih hrest⟩
  refine hjoin _ ?_ p hp
  rw [List.intercalate_splitOn, hs]

lemma LowerCases.trim (hs : L s = s) : L (trim s) = trim s := by
  have hfront : ∀ s, L s = s → L (s.dropWhile isBlank) = s.dropWhile isBlank := by
    intro s
    induction s with
    | nil => exact id
    | cons c s ih =>
      intro hs
      rw [List.dropWhile_cons]
      split_ifs with hc
      · exact ih (hL.sides (u := []) (Or.inr hc) hs).2
      · exact hs
  have hback : ∀ s, L s = s → L (s.rdropWhile isBlank) = s.rdropWhile isBlank := by
    intro s
    induction s using List.reverseRecOn with
    | nil => exact id
    | append_singleton s c ih =>
      intro hs
      rw [List.rdropWhile_concat]
      split_ifs with hc
      · exact ih (hL.sides (v := []) (Or.inr hc) hs).1
      · exact hs
  exact hback _ (hfront _ hs)

lemma LowerCases.joined (ls : List JString) (key : JString) :
    L (ls.flatMap (· ++ [plus]) ++ key) = (ls.map L).flatMap (· ++ [plus]) ++ L key := by
  induction ls with
  | nil => rfl
  | cons l ls ih =>
    have h := hL.across l (ls.flatMap (· ++ [plus]) ++ key) plus (Or.inl rfl)
    simpa [ih] using h

end lowered

/-! ### What is shown -/

/-- The labels of the modifiers that are set. -/
def labels (modifiers : ℕ) : List JString :=
  (if modifiers &&& MOD_CTRL ≠ 0 then [utf16 "Ctrl"] else []) ++
    (if modifiers &&& MOD_SHIFT ≠ 0 then [utf16 "Shift"] else []) ++
    (if modifiers &&& MOD_ALT ≠ 0 then [utf16 "Alt"] else []) ++
    (if modifiers &&& MOD_META ≠ 0 then [utf16 "Win"] else [])

/-- And their names. -/
def names (modifiers : ℕ) : List JString :=
  (if modifiers &&& MOD_CTRL ≠ 0 then [utf16 "ctrl"] else []) ++
    (if modifiers &&& MOD_SHIFT ≠ 0 then [utf16 "shift"] else []) ++
    (if modifiers &&& MOD_ALT ≠ 0 then [utf16 "alt"] else []) ++
    (if modifiers &&& MOD_META ≠ 0 then [utf16 "win"] else [])

lemma formatShortcut_eq (modifiers : ℕ) (key : JString) :
    formatShortcut modifiers key = (labels modifiers).flatMap (· ++ [plus]) ++ key := by
  unfold formatShortcut labels
  split_ifs <;> rfl

lemma map_labels {L : JString → JString} (hL : LowerCases L) (modifiers : ℕ) :
    (labels modifiers).map L = names modifiers := by
  unfold labels names
  split_ifs <;> simp [hL.ctrl, hL.shift, hL.alt, hL.win]

lemma eq_of_mem_if {p : Prop} [Decidable p] {x name : JString}
    (h : name ∈ if p then [x] else []) : name = x := by
  split_ifs at h
  · exact List.mem_singleton.mp h
  · exact absurd h List.not_mem_nil

lemma mem_names {modifiers : ℕ} {name : JString} (h : name ∈ names modifiers) :
    name ∈ ["ctrl", "shift", "alt", "win"].map utf16 := by
  rw [names, List.mem_append, List.mem_append, List.mem_append] at h
  obtain ((h | h) | h) | h := h
  all_goals simp [eq_of_mem_if h]

lemma names_spec : ∀ name ∈ ["ctrl", "shift", "alt", "win"].map utf16,
    plus ∉ name ∧ isModifierName (trim name) = true := by decide

lemma splitOn_joined {ls : List JString} (hls : ∀ l ∈ ls, plus ∉ l) {key : JString}
    (hkey : plus ∉ key) : (ls.flatMap (· ++ [plus]) ++ key).splitOn plus = ls ++ [key] := by
  induction ls with
  | nil => exact List.splitOn_eq_singleton hkey
  | cons l ls ih =>
    rw [List.flatMap_cons, List.append_assoc, List.append_assoc, List.singleton_append,
      List.splitOn_append_cons_self, List.splitOn_eq_singleton (hls l List.mem_cons_self),
      ih fun m hm => hls m (List.mem_cons_of_mem _ hm)]
    rfl

lemma splitPlus_joined {ls : List JString} (hls : ∀ l ∈ ls, plus ∉ l) {key : JString}
    (hkey : plus ∉ key) (hne : key ≠ []) :
    splitPlus (ls.flatMap (· ++ [plus]) ++ key) = ls ++ [key] := by
  unfold splitPlus
  split_ifs with hplus
  · rw [splitOn_joined hls hkey, List.rdropWhile_concat_neg]
    simpa using hne
  · cases ls with
    | nil => rfl
    | cons l ls => simp at hplus

/-- The bits that are collected. -/
def bits (parts : List JString) : ℕ :=
  parts.foldl (fun mods part => mods ||| modifierBit (trim part)) 0

lemma modifierBit_lt (piece : JString) : modifierBit piece < 2 ^ 4 := by
  unfold modifierBit
  split_ifs <;> decide

lemma modifierBit_of_not {piece : JString} (h : isModifierName piece = false) :
    modifierBit piece = 0 := by
  simp only [isModifierName, List.map_cons, List.map_nil, List.mem_cons, List.not_mem_nil,
    or_false, decide_eq_false_iff_not, not_or] at h
  simp [modifierBit, h]

lemma bits_lt (parts : List JString) : bits parts < 2 ^ 4 := by
  have hstep : ∀ (ps : List JString) (mods : ℕ), mods < 2 ^ 4 →
      ps.foldl (fun mods part => mods ||| modifierBit (trim part)) mods < 2 ^ 4 := by
    intro ps
    induction ps with
    | nil => exact fun _ h => h
    | cons p ps ih => exact fun mods h => ih _ (Nat.or_lt_two_pow h (modifierBit_lt _))
  exact hstep parts 0 (by decide)

/-- The names of the bits give the bits. -/
lemma bits_names {modifiers : ℕ} (h : modifiers < 2 ^ 4) : bits (names modifiers) = modifiers := by
  have hall : ∀ m : Fin 16, bits (names m) = m := by decide
  exact hall ⟨modifiers, h⟩

/-! ### What is typed again -/

section editing

variable {L : JString → JString}

/-- The keys in a text, in lower case. -/
def typedKeys (toLowerCase : JString → JString) (text : JString) : List JString :=
  keys ((toLowerCase text).splitOn plus)

lemma parseKeyName_eq (text : JString) : parseKeyName L text =
    if (typedKeys L text).length = 1 then (typedKeys L text).headD [] else [] := by
  rw [parseKeyName, keyNameLoop_nil, keys_splitPlus, typedKeys]

lemma ne_nil_of_mem_keys {parts : List JString} {key : JString} (h : key ∈ keys parts) :
    key ≠ [] ∧ isModifierName key = false := by
  have := (List.mem_filter.mp h).2
  simpa [isKey] using this

lemma parseKeyName_eq_nil_iff (text : JString) :
    parseKeyName L text = [] ↔ (typedKeys L text).length ≠ 1 := by
  rw [parseKeyName_eq]
  split_ifs with h
  · obtain ⟨key, hkey⟩ := List.length_eq_one_iff.mp h
    have hmem : key ∈ keys ((L text).splitOn plus) := by
      rw [← typedKeys, hkey]
      exact List.mem_singleton_self key
    have hne : key ≠ [] := (ne_nil_of_mem_keys hmem).1
    simpa [hkey] using hne
  · simpa using h

/-- The key a text has is in lower case, has no plus sign in it, no blanks around it and is no
modifier. -/
structure Key (L : JString → JString) (key : JString) : Prop where
  ne_nil : key ≠ []
  lower : L key = key
  no_plus : plus ∉ key
  trimmed : trim key = key
  no_modifier : isModifierName key = false

lemma trim_trim (s : JString) : trim (trim s) = trim s :=
  (trimBy_rdropWhile isBlank _).trans (trimBy_dropWhile isBlank s)

lemma parseKeyName_key (hL : LowerCases L) {text : JString} (h : parseKeyName L text ≠ []) :
    Key L (parseKeyName L text) := by
  have hone := not_not.mp (mt (parseKeyName_eq_nil_iff text).mpr h)
  obtain ⟨key, hkeys⟩ := List.length_eq_one_iff.mp hone
  have hkey : parseKeyName L text = key := by rw [parseKeyName_eq, if_pos hone, hkeys]; rfl
  have hmem : key ∈ keys ((L text).splitOn plus) := by
    rw [← typedKeys, hkeys]
    exact List.mem_singleton_self key
  obtain ⟨hne, hmod⟩ := ne_nil_of_mem_keys hmem
  obtain ⟨part, hpart, rfl⟩ := List.mem_map.mp (List.mem_filter.mp hmem).1
  rw [hkey]
  exact ⟨hne, hL.trim (hL.of_mem_splitOn (hL.idempotent text) hpart),
    fun hp => not_mem_of_mem_splitOn hpart (mem_of_mem_trimBy hp), trim_trim part, hmod⟩

lemma splitPlus_formatShortcut (hL : LowerCases L) {key : JString} (hkey : Key L key)
    (modifiers : ℕ) :
    splitPlus (L (formatShortcut modifiers key)) = names modifiers ++ [key] := by
  have hplus : ∀ name ∈ names modifiers, plus ∉ name := fun name hname =>
    (names_spec name (mem_names hname)).1
  rw [formatShortcut_eq, hL.joined, map_labels hL, hkey.lower,
    splitPlus_joined hplus hkey.no_plus hkey.ne_nil]

lemma parseModifiers_formatShortcut (hL : LowerCases L) {key : JString} (hkey : Key L key)
    {modifiers : ℕ} (h : modifiers < 2 ^ 4) :
    parseModifiers L (formatShortcut modifiers key) = modifiers := by
  have hbit : modifierBit (trim key) = 0 := by
    rw [hkey.trimmed]
    exact modifierBit_of_not hkey.no_modifier
  rw [parseModifiers, splitPlus_formatShortcut hL hkey, List.foldl_append]
  change bits (names modifiers) ||| modifierBit (trim key) = modifiers
  rw [bits_names h, hbit, Nat.or_zero]

lemma parseKeyName_formatShortcut (hL : LowerCases L) {key : JString} (hkey : Key L key)
    (modifiers : ℕ) : parseKeyName L (formatShortcut modifiers key) = key := by
  have hnames : keys (names modifiers) = [] := by
    rw [keys, List.filter_eq_nil_iff]
    intro piece hpiece
    obtain ⟨name, hname, rfl⟩ := List.mem_map.mp hpiece
    simp [isKey, (names_spec name (mem_names hname)).2]
  have hlast : keys [key] = [key] := by
    rw [keys_cons, hkey.trimmed, if_neg]
    · rfl
    · simp [hkey.ne_nil, hkey.no_modifier]
  rw [parseKeyName, splitPlus_formatShortcut hL hkey, keyNameLoop_nil, keys_append, hnames, hlast]
  rfl

/-- **A shortcut that is shown and saved again is the same shortcut**, whatever was typed, and a
text has no key exactly when it does not have exactly one piece that is a key. -/
theorem shortcut_roundTrip (toLowerCase : JString → JString) (hL : LowerCases toLowerCase) :
    (∀ t : JString, parseKeyName toLowerCase t ≠ [] →
      parseModifiers toLowerCase (formatShortcut (parseModifiers toLowerCase t)
        (parseKeyName toLowerCase t)) = parseModifiers toLowerCase t ∧
      parseKeyName toLowerCase (formatShortcut (parseModifiers toLowerCase t)
        (parseKeyName toLowerCase t)) = parseKeyName toLowerCase t) ∧
      ∀ t : JString, parseKeyName toLowerCase t = [] ↔ (typedKeys toLowerCase t).length ≠ 1 :=
  ⟨fun _ ht => ⟨parseModifiers_formatShortcut hL (parseKeyName_key hL ht) (bits_lt _),
    parseKeyName_formatShortcut hL (parseKeyName_key hL ht) _⟩, parseKeyName_eq_nil_iff⟩

/-- Lower case where there are only ASCII letters. -/
def asciiLower (s : JString) : JString := s.map fun c => if 65 ≤ c ∧ c ≤ 90 then c + 32 else c

lemma asciiLower_lowerCases : LowerCases asciiLower where
  idempotent s := by
    rw [asciiLower, asciiLower, List.map_map]
    refine List.map_congr_left fun c _ => ?_
    simp only [Function.comp_apply, UInt16.le_iff_toNat_le]
    split_ifs with h hagain
    · rw [UInt16.toNat_add] at hagain
      simp only [UInt16.reduceToNat] at h hagain
      omega
    · rfl
    · rfl
  ctrl := by decide
  shift := by decide
  alt := by decide
  win := by decide
  across u v c hc := by
    have hkeep : (if 65 ≤ c ∧ c ≤ 90 then c + 32 else c) = c := by
      refine if_neg fun h => ?_
      obtain rfl | hblank := hc
      · exact absurd h (by decide)
      · have hle := UInt16.le_iff_toNat_le.mp (of_decide_eq_true hblank)
        have hge := UInt16.le_iff_toNat_le.mp h.1
        simp only [UInt16.reduceToNat] at hle hge
        omega
    rw [asciiLower, List.map_append, List.map_cons, hkeep]
    rfl

theorem shortcut_roundTrip_undo :
    parseModifiers asciiLower (formatShortcut (parseModifiers asciiLower (utf16 " Control + Z+"))
        (parseKeyName asciiLower (utf16 " Control + Z+"))) =
      parseModifiers asciiLower (utf16 " Control + Z+") ∧
    parseKeyName asciiLower (formatShortcut (parseModifiers asciiLower (utf16 " Control + Z+"))
        (parseKeyName asciiLower (utf16 " Control + Z+"))) =
      parseKeyName asciiLower (utf16 " Control + Z+") :=
  (shortcut_roundTrip asciiLower asciiLower_lowerCases).1 (utf16 " Control + Z+") (by decide)

end editing

end Digitiz.Shortcuts
