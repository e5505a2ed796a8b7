import Digitiz.HeldInput

/-!
What releasing everything leaves down.

The injector releases what is in its records, so what it can let go of is what the records cover.
Two calls can leave something down that no record covers. A batch of key events that is cut short
presses keys and is not recorded. And a release for a byte that names no button lets go of nothing
but is recorded as a release of the left one.
-/

namespace Digitiz

namespace Win32InputInjector

/-! ### Letting go -/

/-- Everything that is down is in the injector's records. -/
structure Tracked (i : Win32InputInjector) : Prop where
  keys : KeysTracked i
  buttons : ∀ b, i.desktop.buttons b = true → i.held b = true

/-- Nothing is down. -/
structure AllUp (d : Desktop) : Prop where
  keys : ∀ vk, d.keys vk = false
  buttons : ∀ b, d.buttons b = false

/-- A system that inserts every single event. -/
def Inserts (sys : SendInput) : Prop := ∀ n e, 0 < sys n [e]

variable {sys : SendInput} {i : Win32InputInjector}

lemma send_single (h : Inserts sys) (i : Win32InputInjector) (e : Input) :
    (i.send sys [e]).2.desktop = i.desktop.insert e := by
  have h1 : (i.send sys [e]).1 = 1 := by
    have := h i.sends e
    simp only [send, List.length_singleton]
    omega
  rw [send_desktop, h1]
  rfl

/-- Releasing keys one by one. -/
lemma releaseKeys_spec (h : Inserts sys) (vs : List UInt16) (i : Win32InputInjector) :
    let j := vs.foldl (fun i vk => (i.send sys [keyInput vk false]).2) i
    (∀ w, j.desktop.keys w = if w ∈ vs then false else i.desktop.keys w) ∧
      j.desktop.buttons = i.desktop.buttons ∧ j.held = i.held ∧ j.heldMods = i.heldMods := by
  induction vs generalizing i with
  | nil => exact ⟨fun _ => rfl, rfl, rfl, rfl⟩
  | cons v vs ih =>
    obtain ⟨hk, hb, hh, hm⟩ := ih (i.send sys [keyInput v false]).2
    rw [send_single h] at hk hb
    refine ⟨fun w => ?_, hb, hh, hm⟩
    rw [List.foldl_cons, hk w, insert_keyInput_keys]
    by_cases hv : w = v <;> by_cases hr : w ∈ vs <;> simp [hv, hr]

/-- Releases a button if it is recorded as held. -/
def releaseButton (sys : SendInput) (i : Win32InputInjector) (b : MouseKey) : Win32InputInjector :=
  if !i.held b then i
  else { (i.send sys [.mouse 0 0 false (some (b, false))]).2 with
    held := Function.update i.held b false }

lemma releaseButton_spec (h : Inserts sys) (i : Win32InputInjector) (b : MouseKey) :
    (i.releaseButton sys b).desktop.keys = i.desktop.keys ∧
      (∀ c, (i.releaseButton sys b).held c = if c = b then false else i.held c) ∧
      ∀ c, (i.releaseButton sys b).desktop.buttons c
        = if c = b ∧ i.held b = true then false else i.desktop.buttons c := by
  unfold releaseButton
  cases hb : i.held b with
  | false =>
    rw [if_pos (by decide)]
    refine ⟨rfl, fun c => ?_, fun c => by simp⟩
    split_ifs with hc
    · rw [hc, hb]
    · rfl
  | true =>
    rw [if_neg (by decide)]
    dsimp only
    rw [send_single h]
    refine ⟨insert_mouse_keys _ _ _ _ _, fun c => Function.update_apply _ _ _ _, fun c => ?_⟩
    rw [insert_mouse_buttons]
    simp

/-- Releasing buttons one by one. -/
lemma releaseButtons_spec (h : Inserts sys) (bs : List MouseKey) (i : Win32InputInjector) :
    (bs.foldl (releaseButton sys) i).desktop.keys = i.desktop.keys ∧
      ∀ c, (bs.foldl (releaseButton sys) i).desktop.buttons c
        = if c ∈ bs ∧ i.held c = true then false else i.desktop.buttons c := by
  induction bs generalizing i with
  | nil => exact ⟨rfl, fun c => by simp⟩
  | cons b bs ih =>
    obtain ⟨hk, hh, hb⟩ := releaseButton_spec h i b
    obtain ⟨hk', hb'⟩ := ih (i.releaseButton sys b)
    refine ⟨hk'.trans hk, fun c => ?_⟩
    rw [List.foldl_cons, hb' c, hh, hb]
    by_cases hc : c = b
    · subst hc
      simp
    · simp [hc]

/-- **What releasing everything leaves down**: what is down and in no record. -/
lemma releaseAll_spec (h : Inserts sys) (i : Win32InputInjector) :
    (∀ w, (i.releaseAll sys).desktop.keys w = true ↔
      i.desktop.keys w = true ∧ ¬Covered i.heldKeys i.heldMods w) ∧
    ∀ b, (i.releaseAll sys).desktop.buttons b = true ↔
      i.desktop.buttons b = true ∧ i.held b = false := by
  have hall : i.releaseAll sys = [MouseKey.left, .right, .middle].foldl (releaseButton sys)
      { (kModifierKeys.reverse.filter fun m =>
            (i.heldKeys.foldl (fun i vk => (i.send sys [keyInput vk false]).2) i).heldMods
              &&& m.bit ≠ 0).foldl (fun i m => (i.send sys [keyInput m.vk false]).2)
          { i.heldKeys.foldl (fun i vk => (i.send sys [keyInput vk false]).2) i with
            heldKeys := [] } with heldMods := 0 } := rfl
  rw [hall]
  obtain ⟨hk, hb, hh, hm⟩ := releaseKeys_spec h i.heldKeys i
  generalize i.heldKeys.foldl (fun i vk => (i.send sys [keyInput vk false]).2) i = j at hk hb hh hm
  -- the modifiers, by their keys
  have hmods := releaseKeys_spec h ((kModifierKeys.reverse.filter fun m =>
    j.heldMods &&& m.bit ≠ 0).map ModifierKey.vk) { j with heldKeys := [] }
  rw [List.foldl_map] at hmods
  obtain ⟨hk', hb', hh', -⟩ := hmods
  generalize (kModifierKeys.reverse.filter fun m => j.heldMods &&& m.bit ≠ 0).foldl
    (fun i m => (i.send sys [keyInput m.vk false]).2) { j with heldKeys := [] } = l at hk' hb' hh'
  obtain ⟨hk'', hb''⟩ := releaseButtons_spec h [.left, .right, .middle] { l with heldMods := 0 }
  refine ⟨fun w => ?_, fun b => ?_⟩
  · have hin : w ∈ (kModifierKeys.reverse.filter fun m => j.heldMods &&& m.bit ≠ 0).map
        ModifierKey.vk ↔ ∃ m ∈ kModifierKeys, m.vk = w ∧ i.heldMods &&& m.bit ≠ 0 := by
      rw [hm, List.mem_map]
      refine exists_congr fun m => ?_
      rw [List.mem_filter, List.mem_reverse, decide_eq_true_eq]
      tauto
    rw [hk'']
    dsimp only
    rw [hk' w, hk w, Covered, ← hin]
    generalize List.map ModifierKey.vk _ = mods
    by_cases hmod : w ∈ mods <;> by_cases hkey : w ∈ i.heldKeys <;> simp [hmod, hkey]
  · rw [hb'' b]
    dsimp only
    rw [hh', hh, hb', hb]
    have hall : b ∈ [MouseKey.left, .right, .middle] := by cases b <;> decide
    cases hheld : i.held b <;> simp [hall]

/-- Everything is let go of exactly when everything down is in the records. -/
lemma releaseAll_allUp_iff (h : Inserts sys) : AllUp (i.releaseAll sys).desktop ↔ Tracked i := by
  obtain ⟨hk, hb⟩ := releaseAll_spec h i
  constructor
  · intro hup
    refine ⟨fun w hw => ?_, fun b hd => ?_⟩
    · by_contra hno
      have := (hk w).mpr ⟨hw, hno⟩
      rw [hup.keys w] at this
      contradiction
    · by_contra hno
      have := (hb b).mpr ⟨hd, by simpa using hno⟩
      rw [hup.buttons b] at this
      contradiction
  · intro ht
    refine ⟨fun w => ?_, fun b => ?_⟩
    · by_contra hw
      obtain ⟨hd, hno⟩ := (hk w).mp (by simpa using hw)
      exact hno (ht.keys w hd)
    · by_contra hw
      obtain ⟨hd, hno⟩ := (hb b).mp (by simpa using hw)
      rw [ht.buttons b hd] at hno
      contradiction

/-! ### One call at a time -/

/-- A call that presses or releases something. -/
inductive Op
  | button (b : MouseButton) (down : Bool) (x y : ℤ)
  | key (k : Key)
  deriving DecidableEq, Repr

def op (sys : SendInput) (i : Win32InputInjector) : Op → Win32InputInjector
  | .button b down x y => (i.button sys b down x y).2
  | .key k => (i.key sys k).2

/-- The event a button call sends. -/
def buttonEvent (i : Win32InputInjector) (b : MouseButton) (down : Bool) (x y : ℤ) : Input :=
  .mouse (i.normalize x y).1.1 (i.normalize x y).1.2 true (buttonFlag b down)

/-- The call leaves nothing down behind the injector's back. A button call that names no button
must not be a release that is inserted while the left button is down; and the keys that a key
message cut short pressed and did not release must be in the records already. -/
def Safe (sys : SendInput) (i : Win32InputInjector) : Op → Prop
  | .button b down x y => buttonFlag b down = none → down = false →
      i.desktop.buttons .left = true → sys i.sends [i.buttonEvent b down x y] = 0
  | .key k => ∀ vk, keyNameToCode k.key = some vk →
      (keyBatch k vk).length ≤ sys i.sends (keyBatch k vk) ∨
      ∀ w, (((keyBatch k vk).take (sys i.sends (keyBatch k vk))).foldl Desktop.insert {}).keys w
        = true → Covered i.heldKeys i.heldMods w

/-- The same events leave no less down where no less was down before. -/
lemma keys_insert_mono {d d' : Desktop} {w : UInt16} (hd : d.keys w = true → d'.keys w = true)
    (es : List Input) (h : (es.foldl Desktop.insert d).keys w = true) :
    (es.foldl Desktop.insert d').keys w = true := by
  induction es generalizing d d' with
  | nil => exact hd h
  | cons e es ih =>
    refine ih (fun hw => ?_) h
    cases e with
    | mouse dx dy move flag =>
      rw [insert_mouse_keys] at hw ⊢
      exact hd hw
    | keyboard vk up ext =>
      by_cases hv : w = vk
      · simpa [Desktop.insert, hv] using hw
      · simp only [Desktop.insert, Function.update_apply, if_neg hv] at hw ⊢
        exact hd hw

/-- A message that is cut short keeps the records covering if they cover what it left down. -/
lemma key_tracked_iff_of_part {k : Key} {vk : UInt16} (hc : keyNameToCode k.key = some vk)
    (hn : sys i.sends (keyBatch k vk) < (keyBatch k vk).length) (h : KeysTracked i) :
    KeysTracked (i.key sys k).2 ↔ ∀ w, (((keyBatch k vk).take
      (sys i.sends (keyBatch k vk))).foldl Desktop.insert {}).keys w = true →
        Covered i.heldKeys i.heldMods w := by
  have hmin : (i.send sys (keyBatch k vk)).1 = sys i.sends (keyBatch k vk) := min_eq_left hn.le
  have hkey : (i.key sys k).2 = (i.send sys (keyBatch k vk)).2 := by
    unfold key
    rw [hc]
    dsimp only
    rw [if_pos (by omega)]
  have hdesk := send_desktop sys i (keyBatch k vk)
  rw [hmin] at hdesk
  rw [hkey, KeysTracked, hdesk]
  refine forall_congr' fun w => ⟨fun ht hw => ?_, fun ht hw => ?_⟩
  · exact ht (keys_insert_mono (fun hno => absurd hno Bool.false_ne_true) _ hw)
  · by_cases hd : i.desktop.keys w = true
    · exact h w hd
    · exact ht (keys_insert_mono (fun hyes => absurd hyes hd) _ hw)

/-- A button event is inserted and recorded, or neither. -/
lemma button_cases (sys : SendInput) (i : Win32InputInjector) (b : MouseButton) (down : Bool)
    (x y : ℤ) :
    sys i.sends [i.buttonEvent b down x y] = 0 ∧
        (i.button sys b down x y).2.desktop = i.desktop ∧
        (i.button sys b down x y).2.held = i.held ∨
      sys i.sends [i.buttonEvent b down x y] ≠ 0 ∧
        (i.button sys b down x y).2.desktop = i.desktop.insert (i.buttonEvent b down x y) ∧
        (i.button sys b down x y).2.held = Function.update i.held (buttonIndex b) down := by
  obtain ⟨j, hj, hd, hh, hs⟩ : ∃ j, (i.normalize x y).2 = j ∧ j.desktop = i.desktop ∧
      j.held = i.held ∧ j.sends = i.sends := by
    refine ⟨_, rfl, ?_⟩
    unfold normalize
    dsimp only
    split_ifs <;> exact ⟨rfl, rfl, rfl⟩
  have he : i.emit sys x y (buttonFlag b down)
      = ((j.send sys [i.buttonEvent b down x y]).1 == 1,
        (j.send sys [i.buttonEvent b down x y]).2) := by
    rw [← hj]
    rfl
  unfold button
  rw [he, ← hs, ← hd, ← hh]
  by_cases h0 : sys j.sends [i.buttonEvent b down x y] = 0
  · have hsend : (j.send sys [i.buttonEvent b down x y]).1 = 0 := by simp [send, h0]
    refine .inl ⟨h0, ?_, ?_⟩
    · simp only [hsend]
      exact (send_desktop sys j _).trans (by rw [hsend]; rfl)
    · simp only [hsend]
      rfl
  · have hsend : (j.send sys [i.buttonEvent b down x y]).1 = 1 := by
      simp only [send, List.length_singleton]
      omega
    refine .inr ⟨h0, ?_, ?_⟩
    · simp only [hsend]
      exact (send_desktop sys j _).trans (by rw [hsend]; rfl)
    · simp only [hsend]
      rfl

lemma buttonIndex_of_flag {b : MouseButton} {c : MouseKey} {down : Bool}
    (h : buttonFlag b down = some (c, down)) : buttonIndex b = c := by
  unfold buttonFlag at h
  unfold buttonIndex
  split_ifs at h with hl hr hm
  · rw [hl]
    exact congrArg Prod.fst (Option.some.inj h)
  · rw [hr]
    exact congrArg Prod.fst (Option.some.inj h)
  · rw [hm]
    exact congrArg Prod.fst (Option.some.inj h)

/-- A byte that names no button counts as the left one. -/
lemma buttonIndex_of_no_flag {b : MouseButton} {down : Bool} (h : buttonFlag b down = none) :
    buttonIndex b = .left := by
  unfold buttonFlag at h
  unfold buttonIndex
  split_ifs at h with hl hr hm
  rw [if_neg hr, if_neg hm]

lemma button_tracked_iff (h : Tracked i) (b : MouseButton) (down : Bool) (x y : ℤ) :
    Tracked (i.button sys b down x y).2 ↔ Safe sys i (.button b down x y) := by
  have hkeys : KeysTracked (i.button sys b down x y).2 := button_tracked i b down x y h.keys
  rcases button_cases sys i b down x y with ⟨h0, hd, hh⟩ | ⟨h0, hd, hh⟩
  · refine iff_of_true ⟨hkeys, fun c hc => ?_⟩ fun _ _ _ => h0
    rw [hd] at hc
    rw [hh]
    exact h.buttons c hc
  · cases hf : buttonFlag b down with
    | none =>
      rw [buttonEvent, hf] at hd
      rw [buttonIndex_of_no_flag hf] at hh
      constructor
      · intro ht _ hdown hleft
        have hheld := ht.buttons .left (by rw [hd]; exact hleft)
        rw [hh, Function.update_self, hdown] at hheld
        contradiction
      · intro hs
        refine ⟨hkeys, fun c hc => ?_⟩
        rw [hd] at hc
        rw [hh, Function.update_apply]
        split_ifs with hleft
        · cases hdown : down with
          | true => rfl
          | false => exact absurd (hs hf hdown (hleft ▸ hc)) h0
        · exact h.buttons c hc
    | some p =>
      obtain ⟨c, hc⟩ : ∃ c, buttonFlag b down = some (c, down) := by
        rcases buttonFlag_cases b with hb | ⟨c, hb⟩
        · rw [hb] at hf
          contradiction
        · exact ⟨c, hb down⟩
      rw [buttonEvent, hc] at hd
      rw [buttonIndex_of_flag hc] at hh
      refine iff_of_true ⟨hkeys, fun c' hc' => ?_⟩ fun hno => ?_
      · rw [hd, insert_mouse_buttons] at hc'
        rw [hh, Function.update_apply]
        split_ifs at hc' ⊢
        · exact hc'
        · exact h.buttons c' hc'
      · rw [hf] at hno
        contradiction

lemma key_held (sys : SendInput) (i : Win32InputInjector) (k : Key) :
    (i.key sys k).2.held = i.held := by
  unfold key
  cases keyNameToCode k.key with
  | none => rfl
  | some vk =>
    dsimp only
    split_ifs <;> rfl

lemma key_tracked_iff (h : Tracked i) (k : Key) :
    Tracked (i.key sys k).2 ↔ Safe sys i (.key k) := by
  have hbuttons : ∀ b, (i.key sys k).2.desktop.buttons b = true →
      (i.key sys k).2.held b = true := by
    intro b hb
    rw [key_buttons] at hb
    rw [key_held]
    exact h.buttons b hb
  have hiff : Tracked (i.key sys k).2 ↔ KeysTracked (i.key sys k).2 :=
    ⟨fun ht => ht.keys, fun ht => ⟨ht, hbuttons⟩⟩
  rw [hiff]
  cases hc : keyNameToCode k.key with
  | none =>
    have hkey : (i.key sys k).2 = i := by
      unfold key
      rw [hc]
    refine iff_of_true (hkey.symm ▸ h.keys) fun vk hvk => ?_
    rw [hc] at hvk
    contradiction
  | some vk =>
    have hsafe : Safe sys i (.key k) ↔ (keyBatch k vk).length ≤ sys i.sends (keyBatch k vk) ∨
        ∀ w, (((keyBatch k vk).take (sys i.sends (keyBatch k vk))).foldl Desktop.insert {}).keys w
          = true → Covered i.heldKeys i.heldMods w := by
      refine ⟨fun hs => hs vk hc, fun hs vk' hvk' => ?_⟩
      obtain rfl : vk = vk' := Option.some.inj (hc.symm.trans hvk')
      exact hs
    rw [hsafe]
    rcases Nat.lt_or_ge (sys i.sends (keyBatch k vk)) (keyBatch k vk).length with hn | hn
    · rw [key_tracked_iff_of_part hc hn h.keys, or_iff_right (Nat.not_le.mpr hn)]
    · exact iff_of_true (key_tracked_of_whole hc (min_eq_right hn) h.keys) (.inl hn)

/-- The records go on covering what is down exactly across the calls that are safe. -/
lemma op_tracked_iff (h : Tracked i) (o : Op) : Tracked (i.op sys o) ↔ Safe sys i o := by
  cases o with
  | button b down x y => exact button_tracked_iff h b down x y
  | key k => exact key_tracked_iff h k

/-! ### Whole runs -/

def ops (sys : SendInput) (i : Win32InputInjector) (os : List Op) : Win32InputInjector :=
  os.foldl (op sys) i

/-- Every call of a run is safe where it is made. -/
def AllSafe (sys : SendInput) : Win32InputInjector → List Op → Prop
  | _, [] => True
  | i, o :: os => Safe sys i o ∧ AllSafe sys (i.op sys o) os

lemma tracked_iff_allSafe (h : Tracked i) (os : List Op) :
    (∀ k, Tracked (i.ops sys (os.take k))) ↔ AllSafe sys i os := by
  induction os generalizing i with
  | nil =>
    refine iff_of_true (fun k => ?_) trivial
    rw [List.take_nil]
    exact h
  | cons o os ih =>
    rw [AllSafe, ← op_tracked_iff h o]
    constructor
    · intro ht
      have h1 : Tracked (i.op sys o) := ht 1
      exact ⟨h1, (ih h1).mp fun k => ht (k + 1)⟩
    · rintro ⟨h1, hs⟩ k
      cases k with
      | zero => exact h
      | succ k => exact (ih h1).mpr hs k

/-- **When releasing everything really does.** However much of each batch is inserted, releasing
everything at any moment of a run leaves nothing down exactly when every call of the run is safe. -/
theorem releaseAll_allUp_iff_allSafe (sys : SendInput) {ok : SendInput} (hok : Inserts ok)
    (bounds : Recti) (os : List Op) :
    (∀ k, AllUp ((ops sys { bounds := bounds } (os.take k)).releaseAll ok).desktop) ↔
      AllSafe sys { bounds := bounds } os := by
  have h0 : Tracked { bounds := bounds } :=
    ⟨fun _ hw => absurd hw Bool.false_ne_true, fun _ hb => absurd hb Bool.false_ne_true⟩
  rw [← tracked_iff_allSafe h0]
  exact forall_congr' fun k => releaseAll_allUp_iff hok

/-- A system that takes one event of every batch but the first two. -/
def oneOfThird : SendInput := fun n batch => if n < 2 then batch.length else 1

/-- The left button goes down, then Ctrl and C, and their release is cut short. -/
def halfReleased : List Op :=
  [.button .left true 40 30, .key { modifiers := kModCtrl, action := .down, key := [0x63] },
    .key { modifiers := kModCtrl, action := .up, key := [0x63] }]

theorem halfReleased_allUp :
    Inserts oneOfThird ∧
      ∀ k, AllUp ((ops oneOfThird {} (halfReleased.take k)).releaseAll oneOfThird).desktop := by
  have hok : Inserts oneOfThird := fun n e => by
    unfold oneOfThird
    split_ifs <;> exact Nat.one_pos
  refine ⟨hok, ?_⟩
  refine (releaseAll_allUp_iff_allSafe oneOfThird hok _ halfReleased).mpr ⟨?_, ?_, ?_, trivial⟩
  · exact fun hno => absurd hno (by decide)
  · exact fun vk _ => .inl le_rfl
  · intro vk _
    refine .inr fun w hw => ?_
    -- what was inserted only released
    exact absurd (keys_after_part {} { modifiers := kModCtrl, action := .up, key := [0x63] } vk w _
      rfl hw) Bool.false_ne_true

/-- A system that takes one event of every batch. -/
def oneOfEach : SendInput := fun _ _ => 1

/-- Ctrl went down and was not recorded, so it stays down. -/
theorem oneOfEach_ctrl_stays_down :
    Inserts oneOfEach ∧
      ¬∀ os, AllUp ((ops oneOfEach {} os).releaseAll oneOfEach).desktop := by
  refine ⟨fun _ _ => Nat.one_pos, fun h => ?_⟩
  have hctrl := (h [.key { modifiers := kModCtrl, action := .press, key := [0x63] }]).keys vkControl
  revert hctrl
  decide +kernel

end Win32InputInjector

end Digitiz
