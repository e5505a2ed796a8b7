import Digitiz.AppRuns
import Digitiz.ReleaseAll

/-!
From the fingers on the glass to the mouse of the PC.

What the app sends is put on a wire while there is a link, and taken off it by the host's pipeline,
message by message. The link may fail at any moment: what is on the wire is lost then, and the host
ends its session. Between two messages injection may be switched on and off and the smoothing tuned.
-/

namespace Digitiz

open AppUi

/-- The app, the messages on their way and the host's pipeline. -/
structure AppLink (R : Type) [FloatText R] where
  guest : AppUi R
  connected : Bool
  wire : List GuestMsg
  host : PointerPipeline R Win32InputInjector

namespace AppLink

open PointerPipeline Win32InputInjector

variable {R : Type} [Field R] [LinearOrder R] [FloatOps R] [FloatText R] (sys : SendInput)

inductive Act (R : Type)
  | guest (act : AppUi.Act R)
  | connect
  | disconnect
  /-- The oldest message arrives, with what the host then finds around it. -/
  | deliver (env : Surroundings) (cursor : Option (ℤ × ℤ))
  | setEnabled (on : Bool)
  | tune (on : Bool) (stepPx alpha : R)

def init (externalDir : List UInt8) (settingsFile buttonsFile : Option (List UInt8))
    (bounds : Recti) : AppLink R :=
  ⟨.start externalDir settingsFile buttonsFile, false, [], .init { bounds }⟩

/-- What a message is to the pipeline. -/
def eventOf (env : Surroundings) (cursor : Option (ℤ × ℤ)) : GuestMsg → Event R
  | .pointer m => .pointer env cursor m
  | .key k => .key k

def step (s : AppLink R) : Act R → Option (AppLink R)
  | .guest act => (s.guest.step act).map fun guest =>
    { s with
      guest
      wire := if s.connected then s.wire ++ guest.sent.drop s.guest.sent.length else s.wire }
  | .connect => if s.connected then none else some { s with connected := true }
  | .disconnect =>
    if s.connected then
      some { s with connected := false, wire := [], host := s.host.endSession (interface sys none) }
    else none
  | .deliver env cursor =>
    match s.wire with
    | [] => none
    | m :: wire => some { s with wire, host := s.host.after sys (eventOf env cursor m) }
  | .setEnabled on => some { s with host := s.host.after sys (.setEnabled on) }
  | .tune on stepPx alpha => some { s with host := s.host.after sys (.tune on stepPx alpha) }

/-- A release that is an offset inside a window finds a window to be measured. -/
def Measured (s : AppLink R) : Act R → Prop
  | .deliver env _ => match s.wire.head? with
    | some (.pointer m) => m.action = .up ∨ m.action = .cancel → ¬NoWindow env m
    | _ => True
  | _ => True

instance (s : AppLink R) : (act : Act R) → Decidable (s.Measured act)
  | .deliver env cursor => match hw : s.wire.head? with
    | some (.pointer m) =>
      decidable_of_iff (m.action = .up ∨ m.action = .cancel → ¬NoWindow env m)
        (by simp only [Measured, hw])
    | some (.key k) => .isTrue (by simp only [Measured, hw])
    | none => .isTrue (by simp only [Measured, hw])
  | .guest _ | .connect | .disconnect | .setEnabled _ | .tune _ _ _ => .isTrue trivial

end AppLink

/-! ### The keys of the PC -/

namespace Win32InputInjector

variable {sys : SendInput}

lemma emit_keys (i : Win32InputInjector) (x y : ℤ) (flag : Option (MouseKey × Bool)) :
    (i.emit sys x y flag).2.desktop.keys = i.desktop.keys := by
  obtain ⟨nx, ny, -, -, hd⟩ := emit_spec sys i x y flag
  rcases hd with hd | ⟨hd, -⟩
  · rw [hd, insert_mouse_keys]
  · rw [hd]

/-- What is down afterwards was down before. -/
structure NotMore (d d' : Desktop) : Prop where
  keys : ∀ w, d'.keys w = true → d.keys w = true
  buttons : ∀ b, d'.buttons b = true → d.buttons b = true

lemma NotMore.trans {d d' d'' : Desktop} (h : NotMore d d') (h' : NotMore d' d'') :
    NotMore d d'' :=
  ⟨fun w hw => h.keys w (h'.keys w hw), fun b hb => h.buttons b (h'.buttons b hb)⟩

lemma NotMore.refl (d : Desktop) : NotMore d d := ⟨fun _ h => h, fun _ h => h⟩

lemma foldl_notMore {α : Type} {f : Win32InputInjector → α → Win32InputInjector}
    (hf : ∀ i x, NotMore i.desktop (f i x).desktop) (xs : List α) (i : Win32InputInjector) :
    NotMore i.desktop (xs.foldl f i).desktop := by
  induction xs generalizing i with
  | nil => exact .refl _
  | cons x xs ih => exact (hf i x).trans (ih (f i x))

/-- A release is inserted or it is not. -/
lemma send_notMore (i : Win32InputInjector) {e : Input}
    (he : NotMore i.desktop (i.desktop.insert e)) :
    NotMore i.desktop (i.send sys [e]).2.desktop := by
  have hsent : (i.send sys [e]).2.desktop = i.desktop ∨
      (i.send sys [e]).2.desktop = i.desktop.insert e := by
    rw [send_desktop]
    cases (i.send sys [e]).1 with
    | zero => exact Or.inl rfl
    | succ n => exact Or.inr (by simp)
  rcases hsent with h | h <;> rw [h]
  · exact .refl _
  · exact he

lemma keyUp_notMore (d : Desktop) (vk : UInt16) : NotMore d (d.insert (keyInput vk false)) where
  keys w hw := by
    rw [insert_keyInput_keys] at hw
    split at hw
    · contradiction
    · exact hw
  buttons _ hb := hb

lemma buttonUp_notMore (d : Desktop) (dx dy : ℤ) (move : Bool) (b : MouseKey) :
    NotMore d (d.insert (.mouse dx dy move (some (b, false)))) where
  keys _ hw := hw
  buttons c hc := by
    rw [insert_mouse_buttons] at hc
    split at hc
    · contradiction
    · exact hc

lemma releaseKeys_notMore (sys : SendInput) (vs : List UInt16) (i : Win32InputInjector) :
    NotMore i.desktop (vs.foldl (fun i vk => (i.send sys [keyInput vk false]).2) i).desktop :=
  foldl_notMore (fun i vk => send_notMore i (keyUp_notMore i.desktop vk)) vs i

lemma releaseButtons_notMore (bs : List MouseKey) (i : Win32InputInjector) :
    NotMore i.desktop (bs.foldl (releaseButton sys) i).desktop := by
  refine foldl_notMore (fun i b => ?_) bs i
  unfold releaseButton
  split_ifs
  · exact .refl _
  · exact send_notMore i (buttonUp_notMore i.desktop 0 0 false b)

lemma releaseMods_notMore (sys : SendInput) (ms : List ModifierKey) (i : Win32InputInjector) :
    NotMore i.desktop (ms.foldl (fun i m => (i.send sys [keyInput m.vk false]).2) i).desktop :=
  foldl_notMore (fun i m => send_notMore i (keyUp_notMore i.desktop m.vk)) ms i

/-- Releasing everything presses nothing. -/
lemma releaseAll_notMore (sys : SendInput) (i : Win32InputInjector) :
    NotMore i.desktop (i.releaseAll sys).desktop := by
  have hkeys := releaseKeys_notMore sys i.heldKeys i
  have hall : i.releaseAll sys = [MouseKey.left, .right, .middle].foldl (releaseButton sys)
      { (kModifierKeys.reverse.filter fun m =>
            (i.heldKeys.foldl (fun i vk => (i.send sys [keyInput vk false]).2) i).heldMods
              &&& m.bit ≠ 0).foldl (fun i m => (i.send sys [keyInput m.vk false]).2)
          { i.heldKeys.foldl (fun i vk => (i.send sys [keyInput vk false]).2) i with
            heldKeys := [] } with heldMods := 0 } := rfl
  rw [hall]
  generalize i.heldKeys.foldl (fun i vk => (i.send sys [keyInput vk false]).2) i = j at hkeys ⊢
  have hmods := releaseMods_notMore sys
    (kModifierKeys.reverse.filter fun m => j.heldMods &&& m.bit ≠ 0) { j with heldKeys := [] }
  generalize (kModifierKeys.reverse.filter fun m => j.heldMods &&& m.bit ≠ 0).foldl
    (fun i m => (i.send sys [keyInput m.vk false]).2) { j with heldKeys := [] } = k at hmods ⊢
  exact (hkeys.trans hmods).trans (releaseButtons_notMore _ { k with heldMods := 0 })

/-- A shortcut that is typed leaves no key down. -/
lemma key_allUp (hsys : Orderly sys) {i : Win32InputInjector} (hi : ∀ w, i.desktop.keys w = false)
    {k : Key} (hk : k.action = .press) (w : UInt16) : (i.key sys k).2.desktop.keys w = false := by
  unfold key
  cases keyNameToCode k.key with
  | none => exact hi w
  | some vk =>
    have hsent : (i.send sys (keyBatch k vk)).2.desktop.keys w = false := by
      rw [send_desktop]
      have hup : k.action ≠ .up := by rw [hk]; decide
      have hdown : k.action ≠ .down := by rw [hk]; decide
      rcases hsys.press i.sends k vk hup with h0 | hall
      · have hn : (i.send sys (keyBatch k vk)).1 = 0 := by simp [send, h0]
        rw [hn]
        exact hi w
      · have hn : (i.send sys (keyBatch k vk)).1 = (keyBatch k vk).length := min_eq_right hall
        rw [hn, List.take_length, keys_after_whole, hi]
        simp [hdown]
    dsimp only
    split_ifs <;> exact hsent

end Win32InputInjector

namespace PointerPipeline

open Stroke Win32InputInjector

variable {R : Type} [Field R] [LinearOrder R] [FloatOps R] {sys : SendInput}
  {p q : PointerPipeline R Win32InputInjector}

omit [Field R] [LinearOrder R] [FloatOps R] in
/-- The mouse has nothing to do with the keys. -/
lemma run_keys (cursor : Option (ℤ × ℤ)) (s : Stroke Win32InputInjector) (as : List Stroke.Act) :
    (s.run (interface sys cursor) as).injector.desktop.keys = s.injector.desktop.keys := by
  induction as generalizing s with
  | nil => rfl
  | cons a as ih =>
    rw [run_cons, ih]
    cases a with
    | move x y => exact emit_keys s.injector x y none
    | press b x y =>
      exact (congrArg Desktop.keys (button_desktop s.injector b true x y)).trans (emit_keys _ _ _ _)
    | release x y =>
      exact (congrArg Desktop.keys (button_desktop s.injector s.held false x y)).trans
        (emit_keys _ _ _ _)

/-- What the pipeline holds on the PC: no key, and no button but its own. -/
structure Neat (p : PointerPipeline R Win32InputInjector) : Prop where
  held : Held p.stroke
  keys : ∀ w, p.injector.desktop.keys w = false

omit [Field R] [LinearOrder R] [FloatOps R] in
/-- A button is down after a message because it was pressed now, or before and not released. -/
lemma Does.down {σ : Type} {I : IInputInjector σ} {a : PointerAction} {p q : PointerPipeline R σ}
    (hd : Does I a p q) (hq : q.down = true) :
    a = .down ∨ p.down = true ∧ ¬(a = .up ∨ a = .cancel) := by
  obtain ⟨as, hw, hs⟩ := hd
  have hq' : (p.stroke.run I as).down = true := by rw [← hs]; exact hq
  cases hw with
  | opens b x y ha | reopens b x y ha => exact Or.inl ha
  | closes at_ x y =>
    rw [run_append] at hq'
    exact absurd hq' Bool.false_ne_true
  | draws at_ ha =>
    rw [run_moves] at hq'
    exact Or.inr ⟨hq', fun h => ha ⟨h, hq'⟩⟩

namespace Neat

lemma pointer (h : Neat p) (hsys : Orderly sys) (env : Surroundings) (cursor : Option (ℤ × ℤ))
    (m : Pointer) : Neat (p.after sys (.pointer env cursor m)) where
  held := step_held hsys (.pointer env cursor m) h.held rfl
  keys w := by
    rw [← h.keys w]
    show (p.handlePointer (interface sys cursor) env m).stroke.injector.desktop.keys w = _
    rcases handlePointer_does (interface sys cursor) env p m with ⟨hs, -⟩ | ⟨-, -, as, -, hs⟩
    · rw [hs]
      rfl
    · rw [hs, run_keys]
      rfl

lemma key (h : Neat p) (hsys : Orderly sys) {k : Key} (hk : k.action = .press) :
    Neat (p.after sys (.key k)) where
  held := step_held hsys (.key k) h.held rfl
  keys := by
    show ∀ w, (p.handleKey (interface sys none) k).injector.desktop.keys w = false
    unfold handleKey
    dsimp only
    split_ifs
    · exact h.keys
    · exact key_allUp hsys h.keys hk
    · exact key_allUp hsys h.keys hk

omit [Field R] [LinearOrder R] [FloatOps R] in
lemma releaseStroke (h : Neat p) (hsys : Orderly sys) :
    Neat (p.releaseStroke (interface sys none)) where
  held := (releaseStroke_held none hsys h.held).1
  keys := by
    show ∀ w, (p.releaseStroke (interface sys none)).stroke.injector.desktop.keys w = false
    rw [releaseStroke_stroke]
    split_ifs
    · intro w
      rw [← h.keys w, ← run_nil (interface sys none) (p.stroke.act _ _), ← run_cons, run_keys]
      rfl
    · exact h.keys

lemma setEnabled (h : Neat p) (hsys : Orderly sys) (on : Bool) :
    Neat (p.after sys (.setEnabled on)) where
  held := step_held hsys (.setEnabled on) h.held rfl
  keys := by
    show ∀ w, (p.setEnabled (interface sys none) on).injector.desktop.keys w = false
    unfold PointerPipeline.setEnabled
    split_ifs
    · exact h.keys
    · exact (h.releaseStroke hsys).keys
    · exact h.keys

lemma down_of_setEnabled (h : Neat p) (hsys : Orderly sys) (on : Bool)
    (hq : (p.after sys (.setEnabled on)).down = true) : p.down = true := by
  have hq' : (p.setEnabled (interface sys none) on).down = true := hq
  unfold PointerPipeline.setEnabled at hq'
  split_ifs at hq'
  · exact hq'
  · exact absurd (hq'.symm.trans (releaseStroke_held none hsys h.held).2) nofun
  · exact hq'

omit [Field R] [LinearOrder R] [FloatOps R] in
/-- A session ends with everything up. -/
lemma endSession (h : Neat p) (hsys : Orderly sys) :
    Neat (p.endSession (interface sys none)) ∧ (p.endSession (interface sys none)).down = false := by
  have hq : Neat { p with relSeeded := false } := ⟨h.held, h.keys⟩
  have hr := hq.releaseStroke hsys
  obtain ⟨-, hd⟩ := releaseStroke_held none hsys hq.held
  have hno := releaseAll_notMore sys
    (({ p with relSeeded := false } : PointerPipeline R Win32InputInjector).releaseStroke
      (interface sys none)).injector
  have hkeys : ∀ w, (p.endSession (interface sys none)).injector.desktop.keys w = false := by
    intro w
    cases hw : (p.endSession (interface sys none)).injector.desktop.keys w with
    | false => rfl
    | true => exact absurd ((hno.keys w hw).symm.trans (hr.keys w)) nofun
  refine ⟨⟨⟨fun w hw => ?_, fun b hb => ?_, fun _ => hd⟩, hkeys⟩, hd⟩
  · exact absurd (hw.symm.trans (hkeys w)) nofun
  · exact absurd ((hr.held.buttons b (hno.buttons b hb)).1.symm.trans hd) nofun

/-- The button is down only as far as the messages allow. -/
lemma down_of_message (h : Neat p) (sys : SendInput) {env : Surroundings}
    (cursor : Option (ℤ × ℤ)) {m : GuestMsg}
    (hm : ∀ q, m = .pointer q → q.action = .up ∨ q.action = .cancel → ¬NoWindow env q)
    (hq : (p.after sys (AppLink.eventOf env cursor m)).down = true) :
    heldAfter p.down m = true := by
  cases m with
  | key k =>
    have hsame : (p.handleKey (interface sys none) k).down = p.down := by
      unfold handleKey
      dsimp only
      split_ifs <;> rfl
    exact hsame.symm.trans hq
  | pointer m =>
    have hq' : (p.handlePointer (interface sys cursor) env m).down = true := hq
    by_cases hdown : m.action = .down
    · exact heldAfter_press hdown
    have hkept : p.down = true ∧ ¬(m.action = .up ∨ m.action = .cancel) := by
      rcases handlePointer_does (interface sys cursor) env p m with ⟨hs, hwhy⟩ | ⟨-, -, hd⟩
      · have hp : p.down = true := (congrArg Stroke.down hs).symm.trans hq'
        refine ⟨hp, fun hup => ?_⟩
        rcases hwhy with he | hno | ha
        · exact absurd ((h.held.idle he).symm.trans hp) nofun
        · exact hm m rfl hup hno
        · exact not_closing ha hup
      · exact (hd.down hq').resolve_left hdown
    show (if _ then _ else _) = true
    rw [if_neg hdown, if_neg hkept.2]
    exact hkept.1

end Neat

end PointerPipeline

/-! ### Over the wire -/

namespace AppUi

/-- More held before is more held after. -/
lemma foldl_heldAfter_mono {b b' : Bool} (h : b = true → b' = true) (ms : List GuestMsg) :
    ms.foldl heldAfter b = true → ms.foldl heldAfter b' = true := by
  induction ms generalizing b b' with
  | nil => exact h
  | cons m ms ih =>
    refine ih ?_
    cases m with
    | key k => exact h
    | pointer m =>
      unfold heldAfter
      dsimp only
      split_ifs
      · exact id
      · exact id
      · exact h

lemma Interleaved.key_press {s : List GuestMsg} {w : List Pointer} (h : Interleaved s w) {k : Key}
    (hk : GuestMsg.key k ∈ s) : k.action = .press := by
  induction h with
  | nil => simp at hk
  | router _ m ih => exact ih (by simpa using hk)
  | click _ _ d _ _ ih => exact ih (by simpa using hk)
  | shortcut _ _ k' hk' ih =>
    rcases List.mem_append.mp hk with hold | hnew
    · exact ih hold
    · obtain rfl : k = k' := by simpa using hnew
      exact hk'

end AppUi

namespace AppLink

open PointerPipeline Win32InputInjector

variable {R : Type} [Field R] [LinearOrder R] [FloatOps R] [FloatText R] {sys : SendInput}
  {s t : AppLink R}

/-- The invariant. The host holds no more than what it will still hear allows, and that is no more
than the finger does. -/
structure Sound (s : AppLink R) : Prop where
  guest : AppUi.Inv [] True s.guest
  host : Neat s.host
  heard : s.wire.foldl heldAfter s.host.down = true → s.guest.sent.foldl heldAfter false = true
  shortcuts : ∀ k, GuestMsg.key k ∈ s.wire → k.action = .press
  apart : s.connected = false → s.wire = [] ∧ s.host.down = false

lemma Sound.guest_step [IsStrictOrderedRing R] (h : s.Sound) {act : AppUi.Act R}
    (hs : s.step sys (.guest act) = some t) : t.Sound := by
  obtain ⟨guest, hg, rfl⟩ := Option.map_eq_some_iff.mp hs
  obtain ⟨delta, hdelta⟩ := AppUi.step_keeps h.guest hg
  have hguest : AppUi.Inv [] True guest := inv_steady.step h.guest (fun _ => trivial) hg
  have hdrop : guest.sent.drop s.guest.sent.length = delta := by rw [← hdelta, List.drop_left]
  cases hc : s.connected with
  | false =>
    obtain ⟨hwire, hdown⟩ := h.apart hc
    refine ⟨hguest, h.host, fun hheld => ?_, ?_, fun _ => ?_⟩ <;>
      simp only [hc, Bool.false_eq_true, if_false] at *
    · rw [hwire, hdown] at hheld
      exact absurd hheld Bool.false_ne_true
    · exact h.shortcuts
    · exact ⟨hwire, hdown⟩
  | true =>
    obtain ⟨hold, hh, -⟩ := hguest.hold
    refine ⟨hguest, h.host, fun hheld => ?_, ?_, fun hno => ?_⟩ <;>
      simp only [hc, if_true, hdrop] at *
    · rw [List.foldl_append] at hheld
      rw [← hdelta, List.foldl_append]
      exact foldl_heldAfter_mono h.heard delta hheld
    · intro k hk
      rcases List.mem_append.mp hk with hold | hnew
      · exact h.shortcuts k hold
      · exact hh.sent.key_press (by rw [← hdelta]; exact List.mem_append_right _ hnew)
    · contradiction

lemma Sound.deliver (hsys : Orderly sys) (h : s.Sound) {env : Surroundings}
    {cursor : Option (ℤ × ℤ)} (hok : s.Measured (.deliver env cursor))
    (hs : s.step sys (.deliver env cursor) = some t) : t.Sound := by
  cases hw : s.wire with
  | nil => simp [step, hw] at hs
  | cons m wire =>
    obtain rfl : { s with wire, host := s.host.after sys (eventOf env cursor m) } = t := by
      simpa [step, hw] using hs
    have hm : ∀ q, m = .pointer q → q.action = .up ∨ q.action = .cancel → ¬NoWindow env q := by
      rintro q rfl
      simpa only [Measured, hw, List.head?_cons] using hok
    have hdown := h.host.down_of_message sys cursor hm
    refine ⟨h.guest, ?_, fun hheld => h.heard ?_, fun k hk => h.shortcuts k ?_, fun hc => ?_⟩
    · cases m with
      | pointer m => exact h.host.pointer hsys env cursor m
      | key k => exact h.host.key hsys (h.shortcuts k (by simp [hw]))
    · rw [hw]
      exact foldl_heldAfter_mono hdown wire hheld
    · rw [hw]
      exact List.mem_cons_of_mem m hk
    · exact absurd (hw.symm.trans (h.apart hc).1) nofun

lemma Sound.step [IsStrictOrderedRing R] (hsys : Orderly sys) (h : s.Sound) {act : Act R}
    (hok : s.Measured act) (hs : s.step sys act = some t) : t.Sound := by
  cases act with
  | guest act => exact h.guest_step hs
  | deliver env cursor => exact h.deliver hsys hok hs
  | connect =>
    obtain ⟨hc, rfl⟩ : s.connected = false ∧ { s with connected := true } = t := by
      simpa [AppLink.step] using hs
    exact ⟨h.guest, h.host, h.heard, h.shortcuts, nofun⟩
  | disconnect =>
    obtain ⟨-, rfl⟩ : s.connected = true ∧
        ⟨s.guest, false, [], s.host.endSession (interface sys none)⟩ = t := by
      simpa [AppLink.step] using hs
    obtain ⟨hneat, hdown⟩ := h.host.endSession hsys
    refine ⟨h.guest, hneat, fun hheld => ?_, nofun, fun _ => ⟨rfl, hdown⟩⟩
    exact absurd (hdown.symm.trans hheld) nofun
  | setEnabled on =>
    obtain rfl := Option.some.inj hs
    have hdown := h.host.down_of_setEnabled hsys on
    refine ⟨h.guest, h.host.setEnabled hsys on, fun hheld => h.heard ?_, h.shortcuts, fun hc => ?_⟩
    · exact foldl_heldAfter_mono hdown s.wire hheld
    · obtain ⟨hwire, hup⟩ := h.apart hc
      refine ⟨hwire, ?_⟩
      by_contra hno
      exact absurd (hup.symm.trans (hdown (by simpa using hno))) nofun
  | tune on stepPx alpha =>
    obtain rfl := Option.some.inj hs
    exact ⟨h.guest, ⟨h.host.held, h.host.keys⟩, h.heard, h.shortcuts, h.apart⟩

variable {externalDir : List UInt8} {settingsFile buttonsFile : Option (List UInt8)}
  {bounds : Recti} {acts : List (Act R)}

lemma init_sound [IsStrictOrderedRing R] :
    (init externalDir settingsFile buttonsFile bounds : AppLink R).Sound where
  guest := Inv.start externalDir settingsFile buttonsFile
  host := ⟨⟨fun _ hw => absurd hw Bool.false_ne_true, fun _ hb => absurd hb Bool.false_ne_true,
    fun _ => rfl⟩, fun _ => rfl⟩
  heard h := absurd h Bool.false_ne_true
  shortcuts := nofun
  apart _ := ⟨rfl, rfl⟩

/-- **With the fingers off the glass the mouse is up.** Over whole runs of the app, the link and the
host, whatever the fingers do and whenever the link fails, over a system that inserts what it is
given and with a window to be measured whenever a click in it is released: no key of the PC is ever
left down, and once no finger is on the glass and everything sent has arrived, or as soon as the
link is gone, no button of the mouse is either. -/
theorem fingers_up [IsStrictOrderedRing R] (hsys : Orderly sys)
    (hr : Run (step sys) Measured (init externalDir settingsFile buttonsFile bounds) acts s) :
    (∀ w, s.host.injector.desktop.keys w = false) ∧
      (s.connected = false ∨ s.guest.touch.touching = false ∧ s.wire = [] →
        ∀ b, s.host.injector.desktop.buttons b = false) := by
  have h : s.Sound := hr.invariant Sound (fun _ _ _ h hok hs => h.step hsys hok hs) init_sound
  refine ⟨h.host.keys, fun hup b => ?_⟩
  have hdown : s.host.down = false := by
    rcases hup with hc | ⟨hfree, hwire⟩
    · exact (h.apart hc).2
    · obtain ⟨hold, hh, -⟩ := h.guest.hold
      have hheard := h.heard
      rw [hwire, hh.held, hh.rests.idle_drawing hfree] at hheard
      cases hd : s.host.down with
      | false => rfl
      | true => exact absurd (hheard hd) Bool.false_ne_true
  cases hb : s.host.injector.desktop.buttons b with
  | false => rfl
  | true => exact absurd ((h.host.held.buttons b hb).1.symm.trans hdown) nofun

/-- A line is drawn, and the host hears of it. -/
def someLine : List (Act ℚ) :=
  .connect :: .setEnabled true :: drawing.map .guest ++
    List.replicate 4 (.deliver {} none)

theorem fingers_up_some_line :
    let s := Run.final (step fun _ batch => batch.length) Measured
      (init [] none none ⟨0, 0, 1920, 1080⟩) someLine
    (∀ w, s.host.injector.desktop.keys w = false) ∧
      ∀ b, s.host.injector.desktop.buttons b = false := by
  intro s
  have hsys : Orderly fun _ batch => batch.length :=
    ⟨fun _ _ _ _ => Nat.one_pos, fun _ _ _ _ => Or.inr le_rfl⟩
  have hrun : Run (step fun _ batch => batch.length) Measured
      (init [] none none ⟨0, 0, 1920, 1080⟩) someLine s := Run.to_final (by decide +kernel)
  obtain ⟨hkeys, hbuttons⟩ := fingers_up hsys hrun
  exact ⟨hkeys, hbuttons (Or.inr ⟨by decide +kernel, by decide +kernel⟩)⟩

end AppLink

end Digitiz
