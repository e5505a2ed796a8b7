import Digitiz.Runs
import Digitiz.StrokeRelease

/-!
What disabling injection leaves held.

The pipeline keeps a record of one button, the injector one of buttons and keys, and the system
knows what is really down. Over whole runs the first two records cover the third as long as
releases are inserted and a batch that presses keys is not cut short. Disabling then lets go of
the button, but of no key.
-/

namespace Digitiz

namespace Win32InputInjector

/-! ### What a batch leaves down -/

/-- The keys of a message, in the order they are pressed. -/
def keysOf (k : Key) (vk : UInt16) : List UInt16 :=
  (kModifierKeys.filter fun m => k.modifiers &&& m.bit ≠ 0).map ModifierKey.vk ++ [vk]

lemma keyBatch_eq (k : Key) (vk : UInt16) :
    keyBatch k vk = (if k.action ≠ .up then (keysOf k vk).map (keyInput · true) else [])
      ++ (if k.action ≠ .down then (keysOf k vk).reverse.map (keyInput · false) else []) := by
  unfold keyBatch keysOf
  simp only [List.map_append, List.map_map, List.map_cons, List.map_nil, List.reverse_append,
    List.reverse_cons, List.reverse_nil, List.nil_append, List.cons_append, List.map_reverse]
  rfl

@[simp] lemma insert_keyInput_keys (d : Desktop) (vk w : UInt16) (down : Bool) :
    (d.insert (keyInput vk down)).keys w = if w = vk then down else d.keys w := by
  simp [keyInput, Desktop.insert, Function.update_apply]

/-- Keys going up or down leave the buttons alone. -/
lemma foldl_insert_buttons (d : Desktop) (batch : List Input)
    (h : ∀ e ∈ batch, ∃ v down, e = keyInput v down) :
    (batch.foldl Desktop.insert d).buttons = d.buttons := by
  induction batch generalizing d with
  | nil => rfl
  | cons e r ih =>
    obtain ⟨v, down, rfl⟩ := h _ List.mem_cons_self
    rw [List.foldl_cons, ih _ fun e he => h e (List.mem_cons_of_mem _ he)]
    rfl

lemma mem_keyBatch {k : Key} {vk : UInt16} {e : Input} (h : e ∈ keyBatch k vk) :
    ∃ v down, e = keyInput v down := by
  rw [keyBatch_eq, List.mem_append] at h
  rcases h with h | h <;> split_ifs at h <;> simp only [List.mem_map, List.not_mem_nil] at h <;>
    · obtain ⟨v, -, rfl⟩ := h
      exact ⟨v, _, rfl⟩

lemma foldl_insert_keys (d : Desktop) (vs : List UInt16) (down : Bool) (w : UInt16) :
    ((vs.map (keyInput · down)).foldl Desktop.insert d).keys w
      = if w ∈ vs then down else d.keys w := by
  induction vs generalizing d with
  | nil => rfl
  | cons v r ih =>
    rw [List.map_cons, List.foldl_cons, ih, insert_keyInput_keys]
    by_cases hr : w ∈ r <;> by_cases hv : w = v <;> simp [hr, hv]

lemma send_desktop (sys : SendInput) (i : Win32InputInjector) (batch : List Input) :
    (i.send sys batch).2.desktop
      = (batch.take (i.send sys batch).1).foldl Desktop.insert i.desktop := rfl

/-! ### The key record covers the system's -/

/-- The key is in a record of held keys and modifiers, as itself or as a modifier. -/
def Covered (keys : List UInt16) (mods : UInt8) (w : UInt16) : Prop :=
  w ∈ keys ∨ ∃ m ∈ kModifierKeys, m.vk = w ∧ mods &&& m.bit ≠ 0

/-- Every key that is down is in the injector's record. -/
def KeysTracked (i : Win32InputInjector) : Prop :=
  ∀ w, i.desktop.keys w = true → Covered i.heldKeys i.heldMods w

/-- A system that inserts every release of a button, and cuts no batch short that presses keys:
such a batch is inserted whole or not at all. -/
structure Orderly (sys : SendInput) : Prop where
  release : ∀ n dx dy b, 0 < sys n [.mouse dx dy true (some (b, false))]
  press : ∀ n k vk, k.action ≠ .up →
    sys n (keyBatch k vk) = 0 ∨ (keyBatch k vk).length ≤ sys n (keyBatch k vk)

lemma and_not_and (a b m : UInt8) (h : b &&& m = 0) : a &&& ~~~b &&& m = a &&& m := by
  have hb : (b &&& m).toBitVec = 0 := congrArg UInt8.toBitVec h
  apply UInt8.toBitVec_inj.mp
  ext j hj
  have hj' := congrArg (fun v : BitVec 8 => v.getLsbD j) hb
  simp only [UInt8.toBitVec_and, BitVec.ofNat_eq_ofNat, BitVec.getLsbD_eq_getElem hj] at hj'
  simp only [UInt8.toBitVec_and, UInt8.toBitVec_not, BitVec.getElem_and, BitVec.getElem_not]
  cases hbj : b.toBitVec[j] <;> cases hmj : m.toBitVec[j] <;> simp_all

lemma or_and_ne_zero (a b m : UInt8) (h : a &&& m ≠ 0 ∨ b &&& m ≠ 0) : (a ||| b) &&& m ≠ 0 := by
  have hd : (a ||| b) &&& m = (a &&& m) ||| (b &&& m) := by
    apply UInt8.toBitVec_inj.mp
    ext j hj
    simp [Bool.and_or_distrib_right]
  rw [hd, ne_eq, UInt8.or_eq_zero_iff]
  exact fun h0 => h.elim (· h0.1) (· h0.2)

section covered

variable {k : Key} {vk w : UInt16} {keys : List UInt16} {mods : UInt8}

/-- A press puts its keys in the record. -/
lemma covered_of_down (h : w ∈ keysOf k vk ∨ Covered keys mods w) :
    Covered (keys ++ [vk]) (mods ||| k.modifiers) w := by
  rcases h with h | h | ⟨m, hm, hw, hb⟩
  · rcases List.mem_append.mp h with h | h
    · obtain ⟨m, hm, hw⟩ := List.mem_map.mp h
      obtain ⟨hm, hb⟩ := List.mem_filter.mp hm
      exact .inr ⟨m, hm, hw, or_and_ne_zero _ _ _ (.inr (by simpa using hb))⟩
    · exact .inl (List.mem_append_right _ h)
  · exact .inl (List.mem_append_left _ h)
  · exact .inr ⟨m, hm, hw, or_and_ne_zero _ _ _ (.inl hb)⟩

/-- Taking the message's own key out of the record leaves the others. -/
lemma covered_of_press (hk : w ∉ keysOf k vk) (h : Covered keys mods w) :
    Covered (keys.filter (· ≠ vk)) mods w := by
  refine h.imp_left fun h => List.mem_filter.mpr ⟨h, ?_⟩
  have hne : w ≠ vk := fun hw => hk (List.mem_append_right _ (List.mem_singleton.mpr hw))
  simpa using hne

/-- So does taking its modifiers out. -/
lemma covered_of_up (hk : w ∉ keysOf k vk) (h : Covered keys mods w) :
    Covered (keys.filter (· ≠ vk)) (mods &&& ~~~k.modifiers) w := by
  rcases covered_of_press hk h with h | ⟨m, hm, hw, hb⟩
  · exact .inl h
  · have h0 : k.modifiers &&& m.bit = 0 := by
      by_contra hne
      refine hk (List.mem_append_left _ (List.mem_map.mpr ⟨m, ?_, hw⟩))
      exact List.mem_filter.mpr ⟨hm, by simpa using hne⟩
    exact .inr ⟨m, hm, hw, by rwa [and_not_and _ _ _ h0]⟩

end covered

/-- What is down after a message was inserted whole. -/
lemma keys_after_whole (d : Desktop) (k : Key) (vk w : UInt16) :
    ((keyBatch k vk).foldl Desktop.insert d).keys w
      = if w ∈ keysOf k vk then decide (k.action = .down) else d.keys w := by
  rw [keyBatch_eq, List.foldl_append]
  by_cases hup : k.action = .up
  · have hdown : k.action ≠ .down := by rw [hup]; decide
    rw [if_neg (not_not.mpr hup), if_pos hdown, foldl_insert_keys, decide_eq_false hdown]
    simp only [List.mem_reverse, List.foldl_nil]
  · rw [if_pos hup]
    by_cases hdown : k.action = .down
    · rw [if_neg (not_not.mpr hdown), List.foldl_nil, foldl_insert_keys, decide_eq_true hdown]
    · rw [if_pos hdown, foldl_insert_keys, foldl_insert_keys, decide_eq_false hdown]
      simp only [List.mem_reverse]
      split_ifs <;> rfl

/-- What is down after a part of a message that only releases. -/
lemma keys_after_part (d : Desktop) (k : Key) (vk w : UInt16) (n : ℕ) (h : k.action = .up)
    (hw : (((keyBatch k vk).take n).foldl Desktop.insert d).keys w = true) : d.keys w = true := by
  have hd : k.action ≠ .down := by rw [h]; decide
  rw [keyBatch_eq, if_neg (not_not.mpr h), if_pos hd, List.nil_append, ← List.map_take,
    foldl_insert_keys] at hw
  split at hw
  · contradiction
  · exact hw

variable {sys : SendInput}

/-- A key message that is inserted whole keeps the record covering. -/
lemma key_tracked_of_whole {i : Win32InputInjector} {k : Key} {vk : UInt16}
    (hc : keyNameToCode k.key = some vk)
    (hn : (i.send sys (keyBatch k vk)).1 = (keyBatch k vk).length) (h : KeysTracked i) :
    KeysTracked (i.key sys k).2 := by
  unfold key
  rw [hc]
  dsimp only
  rw [if_neg (not_not.mpr hn)]
  have hafter : ∀ w, (i.send sys (keyBatch k vk)).2.desktop.keys w
      = if w ∈ keysOf k vk then decide (k.action = .down) else i.desktop.keys w := by
    intro w
    rw [send_desktop, hn, List.take_length, keys_after_whole]
  by_cases hdown : k.action = .down
  · rw [if_pos hdown]
    intro w hw
    replace hw := (hafter w).symm.trans hw
    refine covered_of_down ?_
    split_ifs at hw with hmem
    · exact .inl hmem
    · exact .inr (h w hw)
  · rw [if_neg hdown]
    intro w hw
    replace hw := (hafter w).symm.trans hw
    split_ifs at hw with hmem
    · exact absurd (of_decide_eq_true hw) hdown
    · dsimp only
      split_ifs with hup
      · exact covered_of_up hmem (h w hw)
      · exact covered_of_press hmem (h w hw)

/-- **A key message keeps the record covering.** -/
lemma key_tracked (hsys : Orderly sys) (i : Win32InputInjector) (k : Key) (h : KeysTracked i) :
    KeysTracked (i.key sys k).2 := by
  cases hc : keyNameToCode k.key with
  | none =>
    unfold key
    rw [hc]
    exact h
  | some vk =>
    by_cases hn : (i.send sys (keyBatch k vk)).1 = (keyBatch k vk).length
    · exact key_tracked_of_whole hc hn h
    · -- cut short: nothing was pressed, and the record stays as it is
      unfold key
      rw [hc]
      dsimp only
      rw [if_pos hn]
      intro w hw
      refine h w ?_
      rw [send_desktop] at hw
      by_cases hup : k.action = .up
      · exact keys_after_part _ _ _ _ _ hup hw
      · have h0 : (i.send sys (keyBatch k vk)).1 = 0 := by
          rcases hsys.press i.sends k vk hup with h0 | h0
          · simp [send, h0]
          · exact absurd (min_eq_right h0) hn
        rw [h0] at hw
        exact hw

lemma key_buttons (i : Win32InputInjector) (k : Key) :
    (i.key sys k).2.desktop.buttons = i.desktop.buttons := by
  unfold key
  cases keyNameToCode k.key with
  | none => rfl
  | some vk =>
    have h : (i.send sys (keyBatch k vk)).2.desktop.buttons = i.desktop.buttons := by
      rw [send_desktop]
      exact foldl_insert_buttons _ _ fun e he => mem_keyBatch (List.mem_of_mem_take he)
    dsimp only
    split_ifs <;> exact h

/-! ### The button record covers the system's -/

/-- A mouse event is inserted or it is not; either way the key records stay. -/
lemma emit_spec (sys : SendInput) (i : Win32InputInjector) (x y : ℤ)
    (flag : Option (MouseKey × Bool)) :
    ∃ nx ny, (i.emit sys x y flag).2.heldKeys = i.heldKeys ∧
      (i.emit sys x y flag).2.heldMods = i.heldMods ∧
      ((i.emit sys x y flag).2.desktop = i.desktop.insert (.mouse nx ny true flag) ∨
        (i.emit sys x y flag).2.desktop = i.desktop ∧
          ∃ n, sys n [.mouse nx ny true flag] = 0) := by
  obtain ⟨nx, ny, j, hn, hj⟩ : ∃ nx ny j, i.normalize x y = ((nx, ny), j) ∧
      (j.heldKeys = i.heldKeys ∧ j.heldMods = i.heldMods ∧ j.desktop = i.desktop) := by
    refine ⟨_, _, _, rfl, ?_⟩
    split_ifs <;> exact ⟨rfl, rfl, rfl⟩
  have he : (i.emit sys x y flag).2 = (j.send sys [.mouse nx ny true flag]).2 := by
    unfold emit
    rw [hn]
  refine ⟨nx, ny, ?_⟩
  rw [he, ← hj.1, ← hj.2.1, ← hj.2.2]
  refine ⟨rfl, rfl, ?_⟩
  by_cases h0 : sys j.sends [.mouse nx ny true flag] = 0
  · exact .inr ⟨by simp [send, h0], j.sends, h0⟩
  · refine .inl ?_
    have h1 : (j.send sys [.mouse nx ny true flag]).1 = 1 := by
      simp only [send, List.length_singleton]
      omega
    rw [send_desktop, h1]
    rfl

lemma insert_mouse_keys (d : Desktop) (dx dy : ℤ) (move : Bool)
    (flag : Option (MouseKey × Bool)) : (d.insert (.mouse dx dy move flag)).keys = d.keys := by
  cases flag <;> rfl

lemma emit_tracked (i : Win32InputInjector) (x y : ℤ) (flag : Option (MouseKey × Bool))
    (h : KeysTracked i) : KeysTracked (i.emit sys x y flag).2 := by
  obtain ⟨nx, ny, hk, hm, hd⟩ := emit_spec sys i x y flag
  have hkeys : (i.emit sys x y flag).2.desktop.keys = i.desktop.keys := by
    rcases hd with hd | ⟨hd, -⟩
    · rw [hd, insert_mouse_keys]
    · rw [hd]
  intro w hw
  rw [hkeys] at hw
  rw [hk, hm]
  exact h w hw

/-- A button event only tells the injector's own record about it. -/
lemma button_desktop (i : Win32InputInjector) (b : MouseButton) (down : Bool) (x y : ℤ) :
    (i.button sys b down x y).2.desktop = (i.emit sys x y (buttonFlag b down)).2.desktop := by
  unfold button
  dsimp only
  split_ifs <;> rfl

lemma button_tracked (i : Win32InputInjector) (b : MouseButton) (down : Bool) (x y : ℤ)
    (h : KeysTracked i) : KeysTracked (i.button sys b down x y).2 := by
  have he : KeysTracked (i.emit sys x y (buttonFlag b down)).2 := emit_tracked i x y _ h
  unfold button
  dsimp only
  split_ifs <;> exact he

lemma button_records (sys : SendInput) (i : Win32InputInjector) (b : MouseButton) (down : Bool)
    (x y : ℤ) : (i.button sys b down x y).2.heldKeys = i.heldKeys ∧
      (i.button sys b down x y).2.heldMods = i.heldMods := by
  obtain ⟨nx, ny, hk, hm, -⟩ := emit_spec sys i x y (buttonFlag b down)
  unfold button
  dsimp only
  split_ifs <;> exact ⟨hk, hm⟩

lemma moveTo_buttons (sys : SendInput) (i : Win32InputInjector) (x y : ℤ) :
    (i.moveTo sys x y).2.desktop.buttons = i.desktop.buttons := by
  obtain ⟨nx, ny, -, -, hd⟩ := emit_spec sys i x y none
  rcases hd with hd | ⟨hd, -⟩ <;> simp only [moveTo, hd, Desktop.insert]

/-- A byte that names a button names the same one going down and going up. -/
lemma buttonFlag_cases (b : MouseButton) :
    (∀ down, buttonFlag b down = none) ∨ ∃ c, ∀ down, buttonFlag b down = some (c, down) := by
  unfold buttonFlag
  split_ifs
  · exact .inr ⟨.left, fun _ => rfl⟩
  · exact .inr ⟨.right, fun _ => rfl⟩
  · exact .inr ⟨.middle, fun _ => rfl⟩
  · exact .inl fun _ => rfl

lemma insert_mouse_buttons (d : Desktop) (dx dy : ℤ) (move down : Bool) (b c : MouseKey) :
    (d.insert (.mouse dx dy move (some (b, down)))).buttons c
      = if c = b then down else d.buttons c := by
  simp [Desktop.insert, Function.update_apply]

/-- After a press nothing is down that was not down before, except the button itself. -/
lemma press_buttons (i : Win32InputInjector) (b : MouseButton) (x y : ℤ) (c : MouseKey)
    (h : (i.button sys b true x y).2.desktop.buttons c = true) :
    i.desktop.buttons c = true ∨ buttonFlag b true = some (c, true) := by
  rw [button_desktop] at h
  obtain ⟨nx, ny, -, -, hd⟩ := emit_spec sys i x y (buttonFlag b true)
  rcases hd with hd | ⟨hd, -⟩ <;> rw [hd] at h
  · rcases buttonFlag_cases b with hb | ⟨b', hb⟩ <;> rw [hb] at h ⊢
    · exact .inl h
    · rw [insert_mouse_buttons] at h
      split_ifs at h with hc
      · exact .inr (by rw [hc])
      · exact .inl h
  · exact .inl h

/-- After a release nothing is down that was not down before, and the button is not. -/
lemma release_buttons (hsys : Orderly sys) (i : Win32InputInjector) (b : MouseButton) (x y : ℤ)
    (c : MouseKey) (h : (i.button sys b false x y).2.desktop.buttons c = true) :
    i.desktop.buttons c = true ∧ buttonFlag b true ≠ some (c, true) := by
  rw [button_desktop] at h
  obtain ⟨nx, ny, -, -, hd⟩ := emit_spec sys i x y (buttonFlag b false)
  rcases buttonFlag_cases b with hb | ⟨b', hb⟩
  · rw [hb] at hd ⊢
    rcases hd with hd | ⟨hd, -⟩ <;> rw [hb, hd] at h <;> exact ⟨h, by simp⟩
  · rw [hb] at hd ⊢
    rcases hd with hd | ⟨-, n, hn⟩
    · rw [hb, hd, insert_mouse_buttons] at h
      split_ifs at h with hc
      exact ⟨h, by simpa using Ne.symm hc⟩
    · exact absurd hn (hsys.release n nx ny b').ne'

end Win32InputInjector

/-! ### Whole runs -/

namespace Stroke

open Win32InputInjector

/-- **The invariant.** The injector's record covers the keys that are down, the pipeline's covers
the buttons, and a pipeline that is disabled holds none. -/
structure Held (s : Stroke Win32InputInjector) : Prop where
  keys : KeysTracked s.injector
  buttons : ∀ b, s.injector.desktop.buttons b = true →
    s.down = true ∧ buttonFlag s.held true = some (b, true)
  idle : s.enabled = false → s.down = false

variable {sys : SendInput} {cursor : Option (ℤ × ℤ)} {s : Stroke Win32InputInjector}

lemma Held.move (h : Held s) (x y : ℤ) : Held (s.act (interface sys cursor) (.move x y)) where
  keys := emit_tracked _ x y none h.keys
  buttons b hb := h.buttons b (by rwa [← moveTo_buttons sys s.injector x y])
  idle := h.idle

lemma Held.moves (h : Held s) (at_ : List (ℤ × ℤ)) :
    Held (s.run (interface sys cursor) (moves at_)) := by
  induction at_ generalizing s with
  | nil => exact h
  | cons c r ih => exact ih (h.move c.1 c.2)

lemma Held.press (h : Held s) (b : MouseButton) (x y : ℤ) (hd : s.down = false)
    (he : s.enabled = true) : Held (s.act (interface sys cursor) (.press b x y)) where
  keys := button_tracked _ b true x y h.keys
  buttons c hc := by
    refine ⟨rfl, ?_⟩
    rcases press_buttons s.injector b x y c hc with hc | hc
    · rw [(h.buttons c hc).1] at hd
      contradiction
    · exact hc
  idle h0 := by
    rw [show (s.act (interface sys cursor) (.press b x y)).enabled = s.enabled from rfl, he] at h0
    contradiction

lemma Held.release (hsys : Orderly sys) (h : Held s) (x y : ℤ) :
    Held (s.act (interface sys cursor) (.release x y)) where
  keys := button_tracked _ s.held false x y h.keys
  buttons c hc := by
    obtain ⟨hc, hne⟩ := release_buttons hsys s.injector s.held x y c hc
    exact absurd (h.buttons c hc).2 hne
  idle _ := rfl

end Stroke

namespace PointerPipeline

open Stroke Win32InputInjector

variable {R : Type} [Field R] [LinearOrder R] [FloatOps R]

/-- What can happen to a pipeline: a message, the switch, or new settings for the smoother. -/
inductive Event (R : Type)
  | pointer (env : Surroundings) (cursor : Option (ℤ × ℤ)) (m : Pointer)
  | key (k : Key)
  | setEnabled (on : Bool)
  | tune (on : Bool) (stepPx alpha : R)

/-- The pipeline over the Windows injector, after one event. -/
def after (sys : SendInput) (p : PointerPipeline R Win32InputInjector) :
    Event R → PointerPipeline R Win32InputInjector
  | .pointer env cursor m => p.handlePointer (interface sys cursor) env m
  | .key k => p.handleKey (interface sys none) k
  | .setEnabled on => p.setEnabled (interface sys none) on
  | .tune on stepPx alpha =>
    { p with smoother := ((p.smoother.setEnabled on).setStepPx stepPx).setAlpha alpha }

def step (sys : SendInput) (p : PointerPipeline R Win32InputInjector) (e : Event R) :
    Option (PointerPipeline R Win32InputInjector) := some (p.after sys e)

variable {sys : SendInput} {cursor : Option (ℤ × ℤ)} {a : PointerAction}
  {p q : PointerPipeline R Win32InputInjector}

omit [Field R] [LinearOrder R] [FloatOps R] in
lemma Does.held (hsys : Orderly sys) (hd : Does (interface sys cursor) a p q)
    (he : p.enabled = true) (h : Held p.stroke) : Held q.stroke := by
  obtain ⟨as, hw, hq⟩ := hd
  rw [hq]
  cases hw with
  | opens b x y _ hd => exact h.press b x y hd he
  | reopens b x y => exact (h.release hsys x y).press b x y rfl he
  | closes at_ x y =>
    rw [run_append]
    exact (h.moves at_).release hsys x y
  | draws at_ => exact h.moves at_

omit [Field R] [LinearOrder R] [FloatOps R] in
/-- Closing the stroke lets go of the button. -/
lemma releaseStroke_held (cursor : Option (ℤ × ℤ)) (hsys : Orderly sys) (h : Held p.stroke) :
    Held (p.releaseStroke (interface sys cursor)).stroke ∧
      (p.releaseStroke (interface sys cursor)).down = false := by
  rw [← stroke_down, releaseStroke_stroke]
  split_ifs with hd
  · exact ⟨h.release hsys _ _, rfl⟩
  · exact ⟨h, by simpa using hd⟩

omit [Field R] [LinearOrder R] [FloatOps R] in
lemma setEnabled_held (cursor : Option (ℤ × ℤ)) (hsys : Orderly sys) (h : Held p.stroke)
    (on : Bool) :
    Held (p.setEnabled (interface sys cursor) on).stroke := by
  unfold setEnabled
  split_ifs with hon hoff
  · exact h
  · obtain ⟨hr, hd⟩ := releaseStroke_held cursor hsys h
    exact { hr with idle := fun _ => hd }
  · have hd : p.down = false := h.idle (by simp_all)
    exact { h with idle := fun _ => hd }

omit [Field R] [LinearOrder R] [FloatOps R] in
lemma handleKey_held (cursor : Option (ℤ × ℤ)) (hsys : Orderly sys) (h : Held p.stroke) (k : Key) :
    Held (p.handleKey (interface sys cursor) k).stroke := by
  unfold handleKey
  generalize hq : (p.count fun s => { s with received := s.received + 1 }) = q
  have hs : q.stroke = p.stroke := by rw [← hq, count_stroke]
  rw [← hs] at h
  have hk : Held { q.stroke with
      injector := (q.injector.key sys k).2, calls := q.calls ++ [Call.key k] } :=
    { keys := key_tracked hsys _ k h.keys
      buttons := fun b hb => h.buttons b ((congrFun (key_buttons q.injector k) b).symm.trans hb)
      idle := h.idle }
  dsimp only
  split_ifs
  · exact h
  · exact hk
  · exact hk

/-- One event keeps the records covering. -/
lemma step_held (hsys : Orderly sys) (e : Event R) (h : Held p.stroke)
    (hs : step sys p e = some q) : Held q.stroke := by
  obtain rfl := Option.some.inj hs
  cases e with
  | pointer env cursor m =>
    rcases handlePointer_does (interface sys cursor) env p m with ⟨hs, -⟩ | ⟨he, -, hd⟩
    · exact hs ▸ h
    · exact hd.held hsys he h
  | key k => exact handleKey_held none hsys h k
  | setEnabled on => exact setEnabled_held none hsys h on
  | tune on stepPx alpha => exact h

omit [Field R] [LinearOrder R] [FloatOps R] in
/-- Disabling ends disabled, and does not touch the record of keys. -/
lemma setEnabled_false_spec (sys : SendInput) (cursor : Option (ℤ × ℤ))
    (p : PointerPipeline R Win32InputInjector) :
    (p.setEnabled (interface sys cursor) false).enabled = false ∧
      (p.setEnabled (interface sys cursor) false).injector.heldKeys = p.injector.heldKeys ∧
      (p.setEnabled (interface sys cursor) false).injector.heldMods = p.injector.heldMods := by
  unfold setEnabled
  split_ifs with hon hoff
  · exact ⟨hon, rfl, rfl⟩
  · have hr : (p.releaseStroke (interface sys cursor)).injector.heldKeys = p.injector.heldKeys ∧
        (p.releaseStroke (interface sys cursor)).injector.heldMods = p.injector.heldMods := by
      rw [← stroke_injector, releaseStroke_stroke]
      split_ifs
      · exact button_records sys _ _ _ _ _
      · exact ⟨rfl, rfl⟩
    exact ⟨rfl, hr⟩
  · exact absurd rfl hoff

theorem run_held (hsys : Orderly sys) {bounds : Recti} {es : List (Event R)}
    (h : Run (step sys) (fun _ _ => True) (init { bounds := bounds }) es p) : Held p.stroke := by
  refine h.invariant (fun p => Held p.stroke) (fun _ e _ hp _ hs => step_held hsys e hp hs) ?_
  exact ⟨fun _ h => by contradiction, fun _ h => by contradiction, fun _ => rfl⟩

/-- **What disabling leaves held.** After any run, if the injector has no key and no modifier in
its record, disabling leaves no button and no key down. -/
theorem disable_leaves_nothing_held (hsys : Orderly sys) {bounds : Recti} {es : List (Event R)}
    (h : Run (step sys) (fun _ _ => True) (init { bounds := bounds }) es p)
    (hkeys : p.injector.heldKeys = []) (hmods : p.injector.heldMods = 0) :
    (∀ b, (p.setEnabled (interface sys none) false).injector.desktop.buttons b = false) ∧
      ∀ vk, (p.setEnabled (interface sys none) false).injector.desktop.keys vk = false := by
  have hq := setEnabled_held none hsys (run_held hsys h) false
  obtain ⟨he, hk, hm⟩ := setEnabled_false_spec sys none p
  constructor
  · intro b
    by_contra hb
    have hdown := (hq.buttons b (by simpa using hb)).1
    rw [hq.idle he] at hdown
    contradiction
  · intro vk
    by_contra hv
    rcases hq.keys vk (by simpa using hv) with hmem | ⟨m, -, -, hbit⟩
    · rw [stroke_injector, hk, hkeys] at hmem
      exact List.not_mem_nil hmem
    · rw [stroke_injector, hm, hmods, UInt8.zero_and] at hbit
      exact hbit rfl

/-- A system that inserts everything it is given. -/
def wholeInput : SendInput := fun _ batch => batch.length

theorem wholeInput_orderly : Orderly wholeInput :=
  ⟨fun _ _ _ _ => Nat.one_pos, fun _ _ _ _ => .inr le_rfl⟩

lemma run_foldl (sys : SendInput) (p : PointerPipeline R Win32InputInjector)
    (es : List (Event R)) : Run (step sys) (fun _ _ => True) p es (es.foldl (after sys) p) := by
  induction es generalizing p with
  | nil => exact .nil p
  | cons e r ih => exact .cons trivial rfl (ih _)

/-- Injection is enabled, a button is pressed, and a key is pressed and let go. -/
def clickRun : List (Event ℚ) :=
  [.setEnabled true, .pointer {} none { action := .down, x := 40, y := 30 },
    .key { action := .down, key := [0x61] }, .key { action := .up, key := [0x61] }]

theorem clickRun_leaves_nothing_held :
    (∀ b, ((clickRun.foldl (after wholeInput) (init { bounds := ⟨0, 0, 1920, 1080⟩ })).setEnabled
      (interface wholeInput none) false).injector.desktop.buttons b = false) ∧
    ∀ vk, ((clickRun.foldl (after wholeInput) (init { bounds := ⟨0, 0, 1920, 1080⟩ })).setEnabled
      (interface wholeInput none) false).injector.desktop.keys vk = false :=
  disable_leaves_nothing_held wholeInput_orderly (run_foldl wholeInput _ clickRun)
    (by decide +kernel) (by decide +kernel)

/-- A key that went down stays down across a disable, though every event was inserted. -/
theorem key_stays_down :
    ¬∀ (es : List (Event ℚ)) (p : PointerPipeline ℚ Win32InputInjector),
      Run (step wholeInput) (fun _ _ => True) (init { bounds := ⟨0, 0, 1920, 1080⟩ }) es p →
      ∀ vk, (p.setEnabled (interface wholeInput none) false).injector.desktop.keys vk = false := by
  intro h
  have ha := h [.setEnabled true, .key { action := .down, key := [0x61] }] _
    (run_foldl wholeInput _ _) 0x41
  revert ha
  decide +kernel

end PointerPipeline

end Digitiz
