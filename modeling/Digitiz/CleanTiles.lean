import Digitiz.HostApp
import Digitiz.SenderSteps

/-!
What a tile's being clean says about the guest.

A tile is taken off the dirty ones after its batch was handed over, whether or not anybody took
it. That is right as long as the stream only runs while its guest is there, and so as long as a
request is applied before the session it came in is over. A request left over from a session that
is gone starts a stream to nobody.
-/

namespace Digitiz.HostApp

open FrameSender

/-- The request about to be applied asks for no stream, or came in the session that is on. -/
def onTime (s : HostApp) : Bool :=
  match s.ui with
  | .apply request session =>
    !request.starts || (s.phase = .active && session = s.transport.sessions)
  | _ => true

/-- A request to stream is applied in the session it came in, while the guest is there. -/
def Timely (s : HostApp) : Act → Prop
  | .setViewport => s.onTime = true
  | _ => True

instance (s : HostApp) (a : Act) : Decidable (s.Timely a) :=
  match a with
  | .setViewport => inferInstanceAs (Decidable (s.onTime = true))
  | .connect | .onConnect | .onViewportReq _ | .onDisconnect | .closeClient | .sender _
  | .takeRequest | .tick .. | .noSource | .skip | .prepareBatch _ | .sink | .markSent =>
    .isTrue trivial

/-! ### Streaming to somebody -/

/-- Nothing is streamed and nothing is owed. -/
def Quiet (f : FrameSender) : Prop :=
  f.streaming = false ∧ f.geometryReady = false ∧ f.scheduler.size = 0

/-- Every tile is owed or was handed over. -/
def Accounted (f : FrameSender) (handed : List (ViewportGeometry × ℕ)) : Prop :=
  ∀ i < f.scheduler.size, f.scheduler.isDirty i = true ∨ (f.geometry, i) ∈ handed

/-- A stream to the guest of the session. -/
structure Live (s : HostApp) : Prop where
  phase : s.phase = .active
  applied : s.appliedFrom = s.transport.sessions
  matched : Matched s.frames
  accounted : Accounted s.frames (s.handedOver s.transport.sessions)

/-- No stream yet to a guest that is there. -/
structure Unasked (s : HostApp) : Prop where
  quiet : Quiet s.frames
  applied : s.phase = .accepted ∨ s.phase = .active → s.appliedFrom < s.transport.sessions

structure Inv (s : HostApp) : Prop where
  client : s.phase ≠ .waiting → s.transport.client = some s.transport.sessions
  applied : s.appliedFrom ≤ s.transport.sessions
  frames : Unasked s ∨ Live s
  sending : ∀ b rest k missed, s.ui = .sending b rest k missed →
    s.frames.scheduler.size = 0 ∨ missed = false ∧ k = s.transport.sessions

section frames

variable {f f' : FrameSender} {handed handed' : List (ViewportGeometry × ℕ)}

/-- More may be owed or handed over. -/
lemma Accounted.mono (h : Accounted f handed) (hg : f'.geometry = f.geometry)
    (hs : f'.scheduler.size = f.scheduler.size)
    (hd : ∀ i, f.scheduler.isDirty i = true → f'.scheduler.isDirty i = true ∨
      (f.geometry, i) ∈ handed')
    (hh : ∀ x ∈ handed, x ∈ handed') : Accounted f' handed' := by
  intro i hi
  rw [hs] at hi
  rw [hg]
  exact (h i hi).elim (hd i) fun hm => .inr (hh _ hm)

/-- A new grid is owed whole. -/
lemma accounted_configure (f : FrameSender) (g : ViewportGeometry) (cols rows : ℤ) :
    Accounted { f with geometry := g, scheduler := f.scheduler.configure cols rows } handed := by
  intro i hi
  refine .inl ?_
  rw [TileScheduler.isDirty_configure]
  exact decide_eq_true hi

end frames

/-! ### Step by step -/

variable {compress : List UInt8 → Option (List UInt8)} {s t : HostApp}

/-- What a step of the host can touch of the transport. -/
def SameSession (t t' : AdbTransport) : Prop := t'.client = t.client ∧ t'.sessions = t.sessions

lemma sameSession_sender {a : AdbTransport.Act} (ha : ofSender a = true) {x y : AdbTransport}
    (h : x.step a = some y) : SameSession x y := by
  cases a with
  | send bytes p => contradiction
  | connect => contradiction
  | close => contradiction
  | bulkIdle =>
    obtain rfl := Option.some.inj h
    exact ⟨rfl, rfl⟩
  | takeChunk =>
    simp only [AdbTransport.step, Option.ite_none_right_eq_some, Option.some.injEq] at h
    obtain ⟨-, rfl⟩ := h
    unfold AdbTransport.takeChunk SameSession
    cases hc : x.client with
    | none => simp
    | some k =>
      dsimp only
      split_ifs <;> simp
  | settle =>
    simp only [AdbTransport.step, Option.ite_none_left_eq_some, Option.some.injEq] at h
    obtain ⟨-, rfl⟩ := h
    unfold AdbTransport.settle SameSession
    split <;> simp
  | write n =>
    simp only [AdbTransport.step] at h
    split at h
    · simp only [Option.ite_none_right_eq_some, Option.some.injEq] at h
      obtain ⟨-, rfl⟩ := h
      exact ⟨rfl, rfl⟩
    · contradiction
  | fail =>
    simp only [AdbTransport.step] at h
    split at h
    · obtain rfl := Option.some.inj h
      exact ⟨rfl, rfl⟩
    · contradiction

/-- A message is taken as long as there is a client. -/
lemma send_of_client {x : AdbTransport} {k : ℕ} (hc : x.client = some k) (m : List UInt8)
    (p : SendPriority) : (x.send m p).1 = true ∧ SameSession x (x.send m p).2 := by
  unfold AdbTransport.send SameSession
  rw [hc]
  split_ifs <;> simp [hc]

/-- Being in the middle of a batch after a step is as good as before it. -/
def SendingOk (s : HostApp) (ui : Ui) : Prop :=
  ∀ b rest k missed, ui = .sending b rest k missed →
    s.frames.scheduler.size = 0 ∨ missed = false ∧ k = s.transport.sessions

/-- A step that keeps the session and the grid, and after which no tile is clean that was not
clean or handed over. -/
structure Keeps (s t : HostApp) : Prop where
  phase : t.phase = s.phase
  session : SameSession s.transport t.transport
  applied : t.appliedFrom = s.appliedFrom
  quiet : Quiet s.frames → Quiet t.frames
  geometry : t.frames.geometry = s.frames.geometry
  grid : t.frames.scheduler.cols = s.frames.scheduler.cols ∧
    t.frames.scheduler.rows = s.frames.scheduler.rows
  dirty : ∀ i, s.frames.scheduler.isDirty i = true → t.frames.scheduler.isDirty i = true ∨
    (s.frames.geometry, i) ∈ t.handedOver s.transport.sessions
  handed : ∀ x ∈ s.handedOver s.transport.sessions, x ∈ t.handedOver s.transport.sessions
  sending : s.SendingOk t.ui

lemma Keeps.inv (hk : Keeps s t) (h : s.Inv) : t.Inv := by
  obtain ⟨hc, hn⟩ := hk.session
  have hsize := TileScheduler.size_eq_of_grid hk.grid
  refine ⟨?_, ?_, ?_, ?_⟩
  · rw [hk.phase, hc, hn]
    exact h.client
  · rw [hk.applied, hn]
    exact h.applied
  · refine h.frames.imp (fun hu => ⟨hk.quiet hu.quiet, ?_⟩) fun hl =>
      ⟨hk.phase.trans hl.phase, ?_, hl.matched.of_grid hk.geometry hk.grid, ?_⟩
    · rw [hk.phase, hk.applied, hn]
      exact hu.applied
    · rw [hk.applied, hn]
      exact hl.applied
    · rw [hn]
      exact hl.accounted.mono hk.geometry hsize hk.dirty hk.handed
  · rw [hsize, hn]
    exact hk.sending

/-- Only the thread that writes, or the UI thread, moved on. -/
lemma keeps_of_frames (hf : t.frames = s.frames) (hp : t.phase = s.phase)
    (hs : SameSession s.transport t.transport) (ha : t.appliedFrom = s.appliedFrom)
    (hh : t.handedOver = s.handedOver) (hui : s.SendingOk t.ui) : Keeps s t :=
  ⟨hp, hs, ha, hf ▸ id, by rw [hf], by rw [hf]; exact ⟨rfl, rfl⟩,
    by rw [hf]; exact fun _ h => .inl h, by rw [hh]; exact fun _ h => h, hui⟩

lemma sendingOk_of_ne {ui : Ui} (h : ∀ b rest k missed, ui ≠ .sending b rest k missed) :
    s.SendingOk ui := fun b rest k missed he => absurd he (h b rest k missed)

/-! ### The UI thread -/

lemma keeps_takeRequest (hs : s.step compress .takeRequest = some t) : Keeps s t := by
  dsimp only [step] at hs
  split at hs
  · split_ifs at hs <;> obtain rfl := Option.some.inj hs <;>
      exact keeps_of_frames rfl rfl ⟨rfl, rfl⟩ rfl rfl (sendingOk_of_ne nofun)
  · contradiction

lemma keeps_tick {down : Bool} {x y : ℤ} {update : Option FrameSender.FrameUpdate}
    (hs : s.step compress (.tick down x y update) = some t) : Keeps s t := by
  dsimp only [step] at hs
  split at hs
  · split_ifs at hs with hoff
    · obtain rfl := Option.some.inj hs
      exact ⟨rfl, ⟨rfl, rfl⟩, rfl, id, rfl, ⟨rfl, rfl⟩, fun _ h => .inl h, fun _ h => h,
        sendingOk_of_ne nofun⟩
    · obtain rfl := Option.some.inj hs
      obtain ⟨c, hc, hgrid, hdirty, -⟩ := (s.frames.setPen down x y).capture_spec update
      rw [hc]
      refine ⟨rfl, ⟨rfl, rfl⟩, rfl, fun hq => ?_, rfl, hgrid, fun i hi => .inl (hdirty i hi),
        fun _ h => h, sendingOk_of_ne nofun⟩
      -- nothing is captured while nothing is streamed
      exact absurd (.inl (by simpa [FrameSender.setPen] using hq.1)) hoff
  · contradiction

lemma keeps_noSource (hs : s.step compress .noSource = some t) : Keeps s t := by
  dsimp only [step] at hs
  split at hs
  · obtain rfl := Option.some.inj hs
    exact ⟨rfl, ⟨rfl, rfl⟩, rfl, fun hq => ⟨rfl, hq.2⟩, rfl, ⟨rfl, rfl⟩, fun _ h => .inl h,
      fun _ h => h, sendingOk_of_ne nofun⟩
  · contradiction

lemma keeps_skip (hs : s.step compress .skip = some t) : Keeps s t := by
  dsimp only [step] at hs
  split at hs
  · obtain rfl := Option.some.inj hs
    exact keeps_of_frames rfl rfl ⟨rfl, rfl⟩ rfl rfl (sendingOk_of_ne nofun)
  · contradiction

lemma keeps_prepareBatch {source : FrameSource}
    (hs : s.step compress (.prepareBatch source) = some t) : Keeps s t := by
  dsimp only [step] at hs
  split at hs
  · split_ifs at hs with hno
    · obtain rfl := Option.some.inj hs
      exact keeps_of_frames rfl rfl ⟨rfl, rfl⟩ rfl rfl (sendingOk_of_ne nofun)
    · rcases s.frames.prepareBatch_cases source compress with hp | ⟨sent, payload, c, -, -, hp⟩
      · rw [hp] at hs
        obtain rfl := Option.some.inj hs
        exact ⟨rfl, ⟨rfl, rfl⟩, rfl, id, rfl, ⟨rfl, rfl⟩, fun _ h => .inl h, fun _ h => h,
          sendingOk_of_ne nofun⟩
      · rw [hp] at hs
        obtain rfl := Option.some.inj hs
        refine ⟨rfl, ⟨rfl, rfl⟩, rfl, id, rfl, ⟨rfl, rfl⟩, fun _ h => .inl h, fun _ h => h, ?_⟩
        rintro b rest k missed he
        simp only [Ui.sending.injEq] at he
        exact .inr ⟨he.2.2.2.symm, he.2.2.1.symm⟩
  · contradiction

/-- While the guest is there every message is taken. -/
lemma keeps_sink (h : s.Inv) (hs : s.step compress .sink = some t) : Keeps s t := by
  dsimp only [step] at hs
  split at hs
  · next b m rest k missed hui =>
    obtain rfl := Option.some.inj hs
    have hsame : SameSession s.transport (s.transport.send m .bulk).2 := by
      cases hc : s.transport.client with
      | none =>
        unfold AdbTransport.send SameSession
        rw [hc]
        split_ifs <;> simp [hc]
      | some k => exact (send_of_client hc m .bulk).2
    refine keeps_of_frames rfl rfl hsame rfl rfl ?_
    rintro b' rest' k' missed' he
    simp only [Ui.sending.injEq] at he
    obtain ⟨-, -, rfl, rfl⟩ := he
    rcases h.frames with hu | hl
    · exact .inl hu.quiet.2.2
    · refine (h.sending _ _ _ _ hui).imp_right fun ⟨hm, hk⟩ => ⟨?_, hk⟩
      have hclient := h.client (by rw [hl.phase]; decide)
      rw [hm, (send_of_client hclient m .bulk).1, hclient, hk]
      simp
  · contradiction

lemma keeps_markSent (h : s.Inv) (hs : s.step compress .markSent = some t) : Keeps s t := by
  dsimp only [step] at hs
  split at hs
  · next b k missed hui =>
    obtain rfl := Option.some.inj hs
    have hgrid := s.frames.scheduler.markSent_grid b.info.tiles
    refine ⟨rfl, ⟨rfl, rfl⟩, rfl, fun hq => ⟨hq.1, hq.2.1, ?_⟩, rfl, hgrid, fun i hi => ?_,
      fun x hx => ?_, sendingOk_of_ne nofun⟩
    · exact (TileScheduler.size_eq_of_grid hgrid).trans hq.2.2
    · by_cases hmem : i ∈ b.info.tiles.map UInt16.toNat
      · -- it was clean only if the batch was handed over to this guest
        have hpos : s.frames.scheduler.size ≠ 0 := by
          have := s.frames.scheduler.lt_size_of_isDirty hi
          omega
        obtain ⟨hm, hk⟩ := (h.sending _ _ _ _ hui).resolve_left hpos
        obtain ⟨tile, htile, rfl⟩ := List.mem_map.mp hmem
        refine .inr ?_
        dsimp only
        rw [hm, hk, if_neg (by decide), Function.update_self]
        exact List.mem_append_right _ (List.mem_map.mpr ⟨tile, htile, rfl⟩)
      · refine .inl ((s.frames.scheduler.isDirty_markSent b.info.tiles i).trans ?_)
        rw [hi, decide_eq_true hmem]
        rfl
    · dsimp only
      split_ifs
      · exact hx
      · by_cases hk : s.transport.sessions = k
        · rw [hk, Function.update_self]
          exact List.mem_append_left _ (hk ▸ hx)
        · rw [Function.update_of_ne hk]
          exact hx
  · contradiction

/-- The step that is asked to be on time. -/
lemma inv_setViewport (h : s.Inv) (hok : s.onTime = true)
    (hs : s.step compress .setViewport = some t) : t.Inv := by
  dsimp only [step] at hs
  split at hs
  · next r k hui =>
    obtain rfl := Option.some.inj hs
    have hsend : ∀ b rest k missed, Ui.stream = .sending b rest k missed →
        (s.frames.setViewport r).scheduler.size = 0 ∨
          missed = false ∧ k = s.transport.sessions := nofun
    suffices hsuff : _ ∧ (Unasked _ ∨ Live _) from ⟨h.client, hsuff.1, hsuff.2, hsend⟩
    dsimp only
    cases hr : r.starts with
    | false =>
      obtain ⟨r', he⟩ := s.frames.setViewport_of_not_starts r hr
      rw [he]
      refine ⟨h.applied, h.frames.imp (fun hu => ⟨⟨rfl, hu.quiet.2⟩, hu.applied⟩) fun hl => ?_⟩
      exact ⟨hl.phase, hl.applied, hl.matched, hl.accounted⟩
    | true =>
      have hnow : s.phase = .active ∧ k = s.transport.sessions := by
        simpa [onTime, hui, hr] using hok
      rw [s.frames.setViewport_of_starts r hr]
      by_cases hsame : s.frames.geometryReady = true ∧ r.geometry = s.frames.geometry
      · -- the grid is that of a guest that is there
        have hl : s.Live := h.frames.resolve_left fun hu => by
          rw [hu.quiet.2.1] at hsame
          exact absurd hsame.1 (by decide)
        rw [if_pos hsame]
        refine ⟨hnow.2.le, .inr ⟨hnow.1, hnow.2, ?_, ?_⟩⟩
        · exact hl.matched.of_grid hsame.2 ⟨rfl, rfl⟩
        · exact hl.accounted.mono hsame.2 rfl (fun _ hi => .inl hi) fun _ hx => hx
      · rw [if_neg hsame]
        exact ⟨hnow.2.le, .inr ⟨hnow.1, hnow.2, matched_configure hr s.frames,
          accounted_configure s.frames _ _ _⟩⟩
  · contradiction

/-! ### The transport thread -/

lemma quiet_stop (f : FrameSender) : Quiet f.stop := ⟨rfl, rfl, rfl⟩

/-- Outside a session nothing is streamed. -/
lemma Inv.unasked (h : s.Inv) (hp : s.phase ≠ .active) : s.Unasked :=
  h.frames.resolve_right fun hl => hp hl.phase

lemma inv_onDisconnect (h : s.Inv) (hs : s.step compress .onDisconnect = some t) : t.Inv := by
  dsimp only [step] at hs
  split_ifs at hs with hp
  obtain rfl := Option.some.inj hs
  refine ⟨fun _ => h.client (by rw [hp]; decide), h.applied, .inl ⟨quiet_stop s.frames, ?_⟩,
    fun _ _ _ _ _ => .inl rfl⟩
  simp

lemma inv_connect (h : s.Inv) (hs : s.step compress .connect = some t) : t.Inv := by
  dsimp only [step] at hs
  split_ifs at hs with hp
  obtain ⟨x, hx, rfl⟩ := Option.map_eq_some_iff.mp hs
  simp only [AdbTransport.step, Option.ite_none_right_eq_some, Option.some.injEq] at hx
  obtain ⟨-, rfl⟩ := hx
  have hu := h.unasked (by rw [hp]; decide)
  have hlt : s.appliedFrom < s.transport.sessions + 1 := Nat.lt_succ_of_le h.applied
  exact ⟨fun _ => rfl, hlt.le, .inl ⟨hu.quiet, fun _ => hlt⟩, fun _ _ _ _ _ => .inl hu.quiet.2.2⟩

lemma inv_closeClient (h : s.Inv) (hs : s.step compress .closeClient = some t) : t.Inv := by
  dsimp only [step] at hs
  split_ifs at hs with hp
  obtain rfl := Option.some.inj hs
  have hu := h.unasked (by rw [hp]; decide)
  refine ⟨fun hne => absurd rfl hne, h.applied, .inl ⟨hu.quiet, ?_⟩,
    fun _ _ _ _ _ => .inl hu.quiet.2.2⟩
  simp

lemma inv_onConnect (h : s.Inv) (hs : s.step compress .onConnect = some t) : t.Inv := by
  dsimp only [step] at hs
  split_ifs at hs with hp
  obtain rfl := Option.some.inj hs
  have hu := h.unasked (by rw [hp]; decide)
  exact ⟨fun _ => h.client (by rw [hp]; decide), h.applied,
    .inl ⟨hu.quiet, fun _ => hu.applied (.inl hp)⟩, h.sending⟩

lemma step_inv (h : s.Inv) {a : Act} (hok : s.Timely a) (hs : s.step compress a = some t) :
    t.Inv := by
  cases a with
  | connect => exact inv_connect h hs
  | onConnect => exact inv_onConnect h hs
  | onViewportReq request =>
    dsimp only [step] at hs
    split_ifs at hs
    obtain rfl := Option.some.inj hs
    exact Keeps.inv (s := s) (keeps_of_frames rfl rfl ⟨rfl, rfl⟩ rfl rfl h.sending) h
  | onDisconnect => exact inv_onDisconnect h hs
  | closeClient => exact inv_closeClient h hs
  | sender a =>
    dsimp only [step] at hs
    split_ifs at hs with ha
    obtain ⟨x, hx, rfl⟩ := Option.map_eq_some_iff.mp hs
    have hsame := sameSession_sender ha hx
    exact Keeps.inv (s := s) (keeps_of_frames rfl rfl hsame rfl rfl h.sending) h
  | takeRequest => exact (keeps_takeRequest hs).inv h
  | setViewport => exact inv_setViewport h hok hs
  | tick down x y update => exact (keeps_tick hs).inv h
  | noSource => exact (keeps_noSource hs).inv h
  | skip => exact (keeps_skip hs).inv h
  | prepareBatch source => exact (keeps_prepareBatch hs).inv h
  | sink => exact (keeps_sink h hs).inv h
  | markSent => exact (keeps_markSent h hs).inv h

/-! ### Whole runs -/

/-- The tile is about to be taken off the dirty ones. -/
def clears (s : HostApp) (b : Batch) (i : ℕ) : Bool :=
  s.frames.scheduler.isDirty i && !(s.frames.finishBatch b).scheduler.isDirty i

/-- A batch whose tiles are about to be taken off the dirty ones was taken, every message of it,
for the session that is on; and once a request of the guest that is there has been applied, every
tile of its grid is dirty unless it was in a batch taken whole in this session. -/
structure TilesTrue (s : HostApp) : Prop where
  marked : ∀ b k missed, s.ui = .sending b [] k missed → ∀ i, s.clears b i = true →
    missed = false ∧ k = s.transport.sessions
  owed : s.phase = .active → s.appliedFrom = s.transport.sessions →
    ∀ i : ℕ, (i : ℤ) < s.frames.geometry.tileCount → s.frames.scheduler.isDirty i = true ∨
      (s.frames.geometry, i) ∈ s.handedOver s.transport.sessions

/-- **A clean tile is on its way to the guest.** This is so in every run in which requests to
stream are applied on time. -/
theorem run_tilesTrue {as : List Act} (h : Run (step compress) Timely {} as s) : s.TilesTrue := by
  have hinit : Inv {} := ⟨fun hne => absurd rfl hne, le_rfl, .inl ⟨⟨rfl, rfl, rfl⟩, by simp⟩, nofun⟩
  have hinv : s.Inv := h.invariant Inv (fun _ _ _ hi hok hs => step_inv hi hok hs) hinit
  refine ⟨fun b k missed hui i hi => (hinv.sending _ _ _ _ hui).resolve_left ?_,
    fun hp ha i hi => ?_⟩
  · have := s.frames.scheduler.lt_size_of_isDirty (Bool.and_eq_true_iff.mp hi).1
    omega
  · have hl : s.Live := hinv.frames.resolve_left fun hu => by
      have hlt := hu.applied (.inr hp)
      omega
    refine hl.accounted i ?_
    rw [← hl.matched.tileCount] at hi
    exact_mod_cast hi

/-- A grid of one tile. -/
def oneTile : ViewportReq :=
  { w := 8, h := 8, outW := 8, outH := 8, fps := 30, format := .etc2Rgb8, tile := 8 }

/-- A capture that encodes every tile to the same blocks. -/
def darkScreen : FrameSource where
  bounds := ⟨0, 0, 8, 8⟩
  encoder := some fun jobs => some (List.replicate (32 * jobs.length) 0)
  read := fun _ => none

/-- A tick that applies what is pending and hands a batch of two messages over. -/
def wholeTick : List Act :=
  [.takeRequest, .setViewport, .tick false 0 0 none, .prepareBatch darkScreen, .sink, .sink]

/-- A guest that is there gets the tile. -/
theorem oneTile_handedOver :
    let s := Run.final (step some) Timely {}
      ([.connect, .onConnect, .onViewportReq oneTile] ++ wholeTick ++ [.markSent])
    s.frames.scheduler.isDirty 0 = false ∧ (s.frames.geometry, 0) ∈ s.handedOver 1 := by
  intro s
  have hrun : Run (step some) Timely {} _ s := Run.to_final (by decide +kernel)
  have hclean : s.frames.scheduler.isDirty 0 = false := by decide +kernel
  have hs : s.transport.sessions = 1 := by decide +kernel
  have h := (run_tilesTrue hrun).owed (by decide +kernel) (by decide +kernel) 0 (by decide +kernel)
  rw [hclean, hs] at h
  exact ⟨hclean, h.resolve_left (by decide)⟩

/-- A guest that is gone before the tick. -/
def tooLate : List Act :=
  [.connect, .onConnect, .onViewportReq oneTile, .onDisconnect, .closeClient] ++ wholeTick

/-- The tile is about to be marked as sent in a batch of which a message was refused. -/
def marksMissed (s : HostApp) (i : ℕ) : Bool :=
  match s.ui with
  | .sending b [] _ missed => missed && s.clears b i
  | _ => false

/-- Its request is applied all the same, and the tile is marked although no message was taken. -/
theorem tooLate_sent_to_nobody :
    ¬∀ (as : List Act) (s : HostApp), Run (step some) (fun _ _ => True) {} as s → s.TilesTrue := by
  intro hall
  let s := Run.final (step some) (fun _ _ => True) {} tooLate
  have hrun : Run (step some) (fun _ _ => True) {} tooLate s := Run.to_final (by decide +kernel)
  have hend : s.marksMissed 0 = true := by decide +kernel
  unfold marksMissed at hend
  split at hend
  · next b k missed hui =>
    rw [Bool.and_eq_true] at hend
    have hmissed := ((hall _ _ hrun).marked b k missed hui 0 hend.2).1
    rw [hmissed] at hend
    exact absurd hend.1 (by decide)
  · contradiction

end Digitiz.HostApp
