import Digitiz.ScreenStream

/-!
No tile is lost when the stream is stopped and started again, if the host begins anew.

The host takes a tile for delivered from the moment it was sent. What it does not see is the
guest throwing its picture away: a request for the same view as before leaves the grid and its
clean tiles as they are. Where such a request makes a new grid, or finds all of the old one dirty,
and nothing that arrives is dropped, every tile is dirty, on the picture, or on its way there.
-/

namespace Digitiz

open FrameSender ViewportGeometry

instance (u : FrameUpdate) (g : ViewportGeometry) (i : ℕ) : Decidable (u.touches g i) :=
  inferInstanceAs (Decidable (_ ∨ _ ∨ ∃ d ∈ _, _ = true))

namespace ScreenStream

section conditions

variable {D : Type} (blocks : D → ViewportGeometry → ℕ → List UInt8)
  (decompress : List UInt8 → ℕ → Option (List UInt8)) (s : ScreenStream D)

/-- The blocks change only where the capture says so. -/
def Reports (g : ViewportGeometry) (d d' : D) (u : Option FrameUpdate) : Prop :=
  ∀ i < g.tileCount.toNat, blocks d' g i = blocks d g i ∨ ∃ u' ∈ u, u'.touches g i

instance (g : ViewportGeometry) (d d' : D) (u : Option FrameUpdate) :
    Decidable (Reports blocks g d d' u) :=
  inferInstanceAs (Decidable (∀ i < _, _ = _ ∨ ∃ u' ∈ u, u'.touches g i))

/-- The host serves a request sent after the guest last threw its picture away. -/
def serving : Bool := s.applied = some s.discards

/-- Nothing has been asked for since the picture was last thrown away. -/
def unasked : Bool := s.app.sentViewport.fps = 0

/-- The message about to arrive completes a batch for which another has to go. -/
def wouldDrop : Bool :=
  match s.downlink with
  | [] => false
  | m :: _ =>
    match (s.app.frames.assemble m).2 with
    | none => false
    | some b =>
      (FrameReceiver.accept decompress b).isSome &&
        decide (FrameReceiver.kMaxQueued ≤ s.app.frames.ready.length)

/-- The request about to be applied asks for no stream, was sent before the picture was last
thrown away, is not the first since then, makes a new grid, or finds all of the old one dirty. -/
def renews : Bool :=
  match s.pending with
  | none => true
  | some (stamp, r) =>
    !r.starts || stamp ≠ s.discards || s.applied = some stamp ||
      !(s.frames.geometryReady && r.geometry = s.frames.geometry) ||
      (List.range s.frames.scheduler.size).all s.frames.scheduler.isDirty

/-- Nothing is asked of a step but that a capture says what changed. -/
def Honest : Act D → Prop
  | .capture update desktop => Reports blocks s.frames.geometry s.desktop desktop update
  | _ => True

/-- Nothing is thrown away that the host takes for delivered. -/
def Lossless : Act D → Prop
  | .applyRequest => s.renews = true
  | .receive => s.serving = false ∨ s.wouldDrop decompress = false
  | .reset => s.serving = false ∨ s.app.frames.ready = [] ∧ s.app.frames.haveInfo = false
  | .capture update desktop => Reports blocks s.frames.geometry s.desktop desktop update
  | _ => True

instance (a : Act D) : Decidable (s.Honest blocks a) :=
  match a with
  | .capture update desktop =>
    inferInstanceAs (Decidable (Reports blocks s.frames.geometry s.desktop desktop update))
  | .update .. | .initWindow | .termWindow | .receive | .reset | .render | .storeRequest
  | .applyRequest | .setPen .. | .setBudgetTiles _ | .sendBatch => .isTrue trivial

instance (r : FrameReceiver) : Decidable (r.ready = []) := decidable_of_iff _ List.isEmpty_iff

instance (a : Act D) : Decidable (s.Lossless blocks decompress a) :=
  match a with
  | .applyRequest => inferInstanceAs (Decidable (s.renews = true))
  | .receive => inferInstanceAs (Decidable (s.serving = false ∨ s.wouldDrop decompress = false))
  | .reset =>
    inferInstanceAs (Decidable (s.serving = false ∨
      s.app.frames.ready = [] ∧ s.app.frames.haveInfo = false))
  | .capture update desktop =>
    inferInstanceAs (Decidable (Reports blocks s.frames.geometry s.desktop desktop update))
  | .update .. | .initWindow | .termWindow | .render | .storeRequest | .setPen ..
  | .setBudgetTiles _ | .sendBatch => .isTrue trivial

end conditions

/-! ### Where a tile is -/

section where_

variable {D : Type} (blocks : D → ViewportGeometry → ℕ → List UInt8)
  (decompress : List UInt8 → ℕ → Option (List UInt8)) (s : ScreenStream D)

/-- The batches on their way that will be shown. -/
def inFlight : List FrameBatch :=
  (s.app.frames.toCome s.downlink).filterMap (FrameReceiver.accept decompress)

/-- The blocks of a tile as they are now. -/
def current (i : ℕ) : List UInt8 := blocks s.desktop s.frames.geometry i

/-- The guest has the tile as it is now, or it is queued there, or on its way. -/
def Served (i : ℕ) : Prop :=
  Holds s.app.screen s.frames.geometry i (s.current blocks i) ∨
    (∃ fb ∈ s.app.frames.ready, Carries fb s.frames.geometry i (s.current blocks i)) ∨
    ∃ fb ∈ s.inFlight decompress, Carries fb s.frames.geometry i (s.current blocks i)

/-- No tile is lost: once the host has applied a request to stream that was sent after the guest
last threw its picture away, every tile is served or dirty. -/
def NoneLost : Prop :=
  s.applied = some s.discards → ∀ i : ℕ, (i : ℤ) < s.frames.geometry.tileCount →
    s.Served blocks decompress i ∨ s.frames.scheduler.isDirty i = true

/-- What the picture will be made of. -/
def pipeline : List FrameBatch := s.app.frames.ready ++ s.inFlight decompress

/-- The tile will be there as it is now once everything under way is uploaded. -/
def Arriving (i : ℕ) : Prop :=
  Will (Holds s.app.screen s.frames.geometry i (s.current blocks i)) s.frames.geometry i
    (s.current blocks i) (s.pipeline decompress)

variable {blocks decompress s}

lemma Arriving.served {i : ℕ} (h : s.Arriving blocks decompress i) :
    s.Served blocks decompress i := by
  rcases will_cases h with h | ⟨fb, hmem, hc⟩
  · exact .inl h
  · rcases List.mem_append.mp hmem with hmem | hmem
    · exact .inr (.inl ⟨fb, hmem, hc⟩)
    · exact .inr (.inr ⟨fb, hmem, hc⟩)

end where_

/-! ### The invariant -/

/-- A grid made for a view, with its scheduler. -/
structure Tended (f : FrameSender) : Prop where
  grid : f.geometryReady = true → ∃ r, (isView r = true ∧ r.starts = true) ∧
    f.geometry = r.geometry ∧ (f.scheduler.cols : ℤ) = f.geometry.cols ∧
      (f.scheduler.rows : ℤ) = f.geometry.rows
  streaming : f.streaming = true → f.geometryReady = true
  budget : 1 ≤ f.budgetTiles

/-- Nothing but the grid and the budget counts. -/
lemma Tended.congr {f f' : FrameSender} (h : Tended f)
    (hgrid : f'.scheduler.cols = f.scheduler.cols ∧ f'.scheduler.rows = f.scheduler.rows)
    (hg : f'.geometry = f.geometry) (hr : f'.geometryReady = f.geometryReady)
    (hs : f'.streaming = f.streaming) (hb : 1 ≤ f'.budgetTiles) : Tended f' := by
  refine ⟨?_, ?_, hb⟩
  · rw [hr, hg, hgrid.1, hgrid.2]
    exact h.grid
  · rw [hs, hr]
    exact h.streaming

/-- The tiles of a view are 64 pixels wide. -/
lemma tile_of_isView {r : ViewportReq} (hv : isView r = true) (hs : r.starts = true) :
    r.geometry.tile = 64 := by
  obtain ⟨hfps, -, hvalid⟩ := of_decide_eq_true hs
  have htile : r.tile = 64 := by
    rcases of_decide_eq_true hv with rfl | h
    · exact absurd hfps (by decide)
    · exact h.2.2
  obtain ⟨hw, hh⟩ := ViewportReq.pos_of_valid hvalid
  rw [ViewportReq.geometry, makeGeometry, if_neg (by dsimp only; omega), htile]
  dsimp only
  decide

lemma Tended.onGrid {f : FrameSender} (h : Tended f) (hr : f.geometryReady = true) :
    OnGrid f ∧ f.geometry.tile < 256 ∧ ∃ r : ViewportReq, f.geometry = r.geometry := by
  obtain ⟨r, ⟨hv, hs⟩, hg, hc, hrw⟩ := h.grid hr
  refine ⟨⟨?_, hc, hrw, h.budget⟩, ?_, r, hg⟩
  · rw [hg]
    exact bounded_of_valid r (ViewportReq.valid_of_starts hs)
  · rw [hg, tile_of_isView hv hs]
    decide

/-- What is assumed of the capture and of the compression: a tile's blocks depend on the desktop
alone and have their size, and what was compressed comes back. -/
structure Codec {D : Type} (source : D → FrameSource)
    (blocks : D → ViewportGeometry → ℕ → List UInt8) (compress : List UInt8 → Option (List UInt8))
    (decompress : List UInt8 → ℕ → Option (List UInt8)) : Prop where
  encodes : ∀ d g tiles sent payload, g.valid = true → InGrid g tiles →
    encodeSelection (source d) g tiles = some (sent, payload) →
    payload = sent.flatMap fun t => blocks d g t.toNat
  length : ∀ d g t, g.valid = true → (t.toNat : ℤ) < g.tileCount →
    (blocks d g t.toNat).length = g.tileBytes t
  compressed : ∀ p c, compress p = some c → 0 < c.length ∧ c.length ≤ compressBound p.length
  lossless : ∀ p c, compress p = some c → decompress c p.length = some p

section invariant

variable {D : Type} {source : D → FrameSource} {blocks : D → ViewportGeometry → ℕ → List UInt8}
  {compress : List UInt8 → Option (List UInt8)}
  {decompress : List UInt8 → ℕ → Option (List UInt8)}

lemma Codec.sizes (h : Codec source blocks compress decompress) (d : D) : Sizes (source d) := by
  intro g tiles sent payload hv hin henc
  have hsub := encodeSelection_sublist henc
  rw [h.encodes d g tiles sent payload hv hin henc, List.length_flatMap]
  refine congrArg List.sum (List.map_congr_left fun t ht => ?_)
  exact h.length d g t hv (hin t (hsub.subset ht))

variable (blocks decompress) in
/-- Every tile is dirty or will be on the picture. -/
def Covered (s : ScreenStream D) : Prop :=
  ∀ i : ℕ, (i : ℤ) < s.frames.geometry.tileCount →
    s.frames.scheduler.isDirty i = true ∨ s.Arriving blocks decompress i

variable (blocks decompress) in
structure Inv (s : ScreenStream D) : Prop where
  stamps : ∀ k r, (k, r) ∈ s.uplink ++ s.pending.toList → isView r = true ∧ k ≤ s.discards ∧
    (k = s.discards → r.starts = true → s.unasked = false)
  applied : ∀ k, s.applied = some k → k ≤ s.discards ∧ s.frames.geometryReady = true ∧
    (k = s.discards → s.unasked = false)
  ready : s.unasked = false → s.app.screen.ready = true
  tended : Tended s.frames
  covered : s.applied = some s.discards → Covered blocks decompress s

variable {s t : ScreenStream D}

lemma Inv.noneLost (h : Inv blocks decompress s) : s.NoneLost blocks decompress := by
  intro ha i hi
  exact (h.covered ha i hi).symm.imp_left Arriving.served

/-- With the guest asking for nothing, no request of its counts. -/
lemma Inv.applied_ne (h : Inv blocks decompress s) (hu : s.unasked = true) :
    s.applied ≠ some s.discards := by
  intro ha
  rw [(h.applied _ ha).2.2 rfl] at hu
  contradiction

/-! ### The guest -/

lemma inv_stop (h : Inv blocks decompress s) : Inv blocks decompress s.stop := by
  have hno : ∀ k, s.applied = some k → k < s.discards + 1 := fun k hk =>
    Nat.lt_succ_of_le (h.applied k hk).1
  refine ⟨fun k r hmem => ?_, fun k hk => ?_, nofun, h.tended, fun ha => ?_⟩
  · have hle : isView r = true ∧ k ≤ s.discards := by
      simp only [stop, App.farewell, List.mem_append] at hmem
      rcases hmem with (hmem | hmem) | hmem
      · exact (h.stamps k r (List.mem_append_left _ hmem)).imp_right And.left
      · split_ifs at hmem
        · simp only [Option.toList_some, List.map_cons, List.map_nil, List.mem_singleton,
            Prod.mk.injEq] at hmem
          obtain ⟨rfl, rfl⟩ := hmem
          exact ⟨by decide, le_rfl⟩
        · simp at hmem
      · exact (h.stamps k r (List.mem_append_right _ hmem)).imp_right And.left
    refine ⟨hle.1, hle.2.trans (Nat.le_succ _), fun he => ?_⟩
    exact absurd he (Nat.lt_succ_of_le hle.2).ne
  · exact ⟨(hno k hk).le, (h.applied k hk).2.1, fun he => absurd he (hno k hk).ne⟩
  · exact absurd rfl (hno _ ha).ne

lemma inv_termWindow (h : Inv blocks decompress s) :
    Inv blocks decompress { s.stop with
      app := { s.stop.app with screen := s.stop.app.screen.release } } := by
  have hs := inv_stop h
  refine ⟨hs.stamps, hs.applied, nofun, hs.tended, fun ha => ?_⟩
  exact absurd ha (hs.applied_ne rfl)

/-- A frame that asks has something to ask for. -/
lemma frame_ask {a : App} {want : ViewportReq} {settled : Bool}
    (h : a.frame true want settled = .ask) : want.fps ≠ 0 := by
  unfold App.frame at h
  split_ifs at h
  assumption

/-- A view has been asked for. -/
lemma inv_ask {want : ViewportReq} (h : Inv blocks decompress s) (hview : isView want = true)
    (hfps : want.fps ≠ 0) (hready : s.app.screen.ready = true) :
    Inv blocks decompress { s with
      app := { s.app with sentViewport := want }
      uplink := s.uplink ++ [(s.discards, want)] } := by
  have hasked : decide (want.fps = 0) = false := decide_eq_false hfps
  refine ⟨fun k r hmem => ?_, fun k hk => ?_, fun _ => hready, h.tended, h.covered⟩
  · simp only [List.mem_append, List.mem_singleton, Prod.mk.injEq] at hmem
    rcases hmem with (hmem | ⟨rfl, rfl⟩) | hmem
    · obtain ⟨h1, h2, -⟩ := h.stamps k r (List.mem_append_left _ hmem)
      exact ⟨h1, h2, fun _ _ => hasked⟩
    · exact ⟨hview, le_rfl, fun _ _ => hasked⟩
    · obtain ⟨h1, h2, -⟩ := h.stamps k r (List.mem_append_right _ hmem)
      exact ⟨h1, h2, fun _ _ => hasked⟩
  · obtain ⟨h1, h2, -⟩ := h.applied k hk
    exact ⟨h1, h2, fun _ => hasked⟩

lemma inv_update {enabled settled : Bool} {wanted : ViewportReq} (h : Inv blocks decompress s)
    (hs : s.step source compress decompress (.update enabled wanted settled) = some t) :
    Inv blocks decompress t := by
  dsimp only [step] at hs
  split_ifs at hs with hview hstop
  · obtain rfl := Option.some.inj hs
    exact inv_stop h
  · unfold App.updateStream at hs
    cases hf : s.app.frame true (s.app.want enabled wanted) settled with
    | stop => exact absurd hf hstop
    | rest | alreadyAsked =>
      simp only [hf, Option.toList_none, List.map_nil, List.append_nil, Option.some.injEq] at hs
      exact hs ▸ h
    | note =>
      simp only [hf, Option.toList_none, List.map_nil, List.append_nil, Option.some.injEq] at hs
      subst hs
      exact ⟨h.stamps, h.applied, h.ready, h.tended, h.covered⟩
    | ask =>
      simp only [hf, if_true, Option.some.injEq] at hs
      subst hs
      have hfps := frame_ask hf
      obtain ⟨hw, hready⟩ : s.app.want enabled wanted = wanted ∧ s.app.screen.ready = true := by
        unfold App.want at hfps ⊢
        split_ifs at hfps ⊢ with hr
        · exact ⟨rfl, (Bool.and_eq_true_iff.mp hr).2⟩
        · exact absurd rfl hfps
      rw [hw] at hfps ⊢
      exact inv_ask h hview hfps hready

/-- Unless a batch is dropped, one message on changes nothing about what will be uploaded. -/
lemma pipeline_receive {m : Msg} {rest : List Msg} (hd : s.downlink = m :: rest)
    (hw : s.wouldDrop decompress = false) :
    pipeline decompress { s with
      downlink := rest
      app := { s.app with frames := s.app.frames.onMessage decompress m } }
      = s.pipeline decompress := by
  have hcome : (s.app.frames.onMessage decompress m).toCome rest
      = (s.app.frames.assemble m).1.toCome rest :=
    FrameReceiver.toCome_congr (FrameReceiver.samePoint_onMessage _ _) rest
  have hready : (s.app.frames.assemble m).1.ready = s.app.frames.ready :=
    FrameReceiver.ready_assemble _ _
  unfold pipeline inFlight
  dsimp only
  rw [hcome, hd, FrameReceiver.toCome, List.filterMap_append, ← List.append_assoc]
  congr 1
  unfold wouldDrop at hw
  rw [hd] at hw
  dsimp only at hw
  unfold FrameReceiver.onMessage
  rcases ha : s.app.frames.assemble m with ⟨r, _ | b⟩
  · rw [ha] at hready
    simpa using hready
  · rw [ha] at hready hw
    dsimp only at hready hw ⊢
    unfold FrameReceiver.finish
    cases hacc : FrameReceiver.accept decompress b with
    | none => simpa [hacc, FrameReceiver.countMalformed] using hready
    | some fb =>
      rw [hacc, Option.isSome_some, Bool.true_and] at hw
      have hfull : ¬s.app.frames.ready.length ≥ FrameReceiver.kMaxQueued := of_decide_eq_false hw
      simp [hfull, hready, hacc]

lemma inv_receive (h : Inv blocks decompress s)
    (hok : s.serving = false ∨ s.wouldDrop decompress = false)
    (hs : s.step source compress decompress .receive = some t) : Inv blocks decompress t := by
  dsimp only [step] at hs
  split at hs
  · contradiction
  · next m rest hd =>
    obtain rfl := Option.some.inj hs
    refine ⟨h.stamps, h.applied, h.ready, h.tended, fun ha i hi => ?_⟩
    rcases hok with hu | hw
    · exact absurd ha (of_decide_eq_false hu)
    · refine (h.covered ha i hi).imp_right fun har => ?_
      unfold Arriving
      rw [pipeline_receive hd hw]
      exact har

lemma inv_reset (h : Inv blocks decompress s)
    (hok : s.serving = false ∨ s.app.frames.ready = [] ∧ s.app.frames.haveInfo = false) :
    Inv blocks decompress { s with app := { s.app with frames := s.app.frames.reset } } := by
  refine ⟨h.stamps, h.applied, h.ready, h.tended, fun ha i hi => ?_⟩
  rcases hok with hu | ⟨hready, hinfo⟩
  · exact absurd ha (of_decide_eq_false hu)
  · refine (h.covered ha i hi).imp_right fun har => ?_
    have hcome : s.app.frames.reset.toCome s.downlink = s.app.frames.toCome s.downlink :=
      FrameReceiver.toCome_congr (.inr ⟨rfl, hinfo⟩) _
    unfold Arriving pipeline inFlight at har ⊢
    dsimp only
    rw [hcome, show s.app.frames.reset.ready = s.app.frames.ready from hready.symm]
    exact har

lemma inv_render (h : Inv blocks decompress s) :
    Inv blocks decompress { s with
      app := { s.app with
        frames := s.app.frames.take.2
        screen := s.app.frames.take.1.foldl ScreenRenderer.upload s.app.screen } } := by
  have hup : ∀ (l : List FrameBatch) (screen : ScreenRenderer),
      (l.foldl ScreenRenderer.upload screen).ready = screen.ready := by
    intro l
    induction l with
    | nil => exact fun _ => rfl
    | cons fb l ih => exact fun screen => (ih _).trans (screen.ready_upload fb)
  refine ⟨h.stamps, h.applied, fun hu => ?_, h.tended, fun ha i hi => ?_⟩
  · exact (hup _ _).trans (h.ready hu)
  · refine (h.covered ha i hi).imp_right fun har => ?_
    obtain ⟨-, hready, hasked⟩ := h.applied _ ha
    obtain ⟨hgrid, -, -⟩ := h.tended.onGrid hready
    have hsame : FrameReceiver.SamePoint s.app.frames.take.2 s.app.frames :=
      .inl ⟨rfl, rfl, rfl, rfl⟩
    have hcome := FrameReceiver.toCome_congr hsame s.downlink
    unfold Arriving pipeline inFlight at har ⊢
    dsimp only
    rw [hcome]
    exact will_upload (h.ready (hasked rfl)) hgrid.bounded.valid hi har

/-! ### The host -/

lemma inv_storeRequest (h : Inv blocks decompress s)
    (hs : s.step source compress decompress .storeRequest = some t) : Inv blocks decompress t := by
  dsimp only [step] at hs
  split at hs
  · contradiction
  · next r rest hu =>
    obtain rfl := Option.some.inj hs
    refine ⟨fun k q hmem => h.stamps k q ?_, h.applied, h.ready, h.tended, h.covered⟩
    rw [hu]
    simp only [List.mem_append, Option.toList_some, List.mem_singleton] at hmem
    rcases hmem with hmem | rfl
    · exact List.mem_append_left _ (List.mem_cons_of_mem _ hmem)
    · exact List.mem_append_left _ List.mem_cons_self

lemma tended_setViewport {f : FrameSender} {r : ViewportReq} (h : Tended f)
    (hv : isView r = true) : Tended (f.setViewport r) := by
  cases hs : r.starts with
  | false =>
    obtain ⟨r', hf⟩ := setViewport_of_not_starts f r hs
    rw [hf]
    exact ⟨h.grid, nofun, h.budget⟩
  | true =>
    rw [setViewport_of_starts f r hs]
    split_ifs with hsame
    · rw [hsame.2]
      exact ⟨h.grid, fun _ => hsame.1, h.budget⟩
    · exact ⟨fun _ => ⟨r, ⟨hv, hs⟩, rfl, matched_configure hs f⟩, fun _ => rfl, h.budget⟩

lemma geometryReady_setViewport {f : FrameSender} {r : ViewportReq} (hs : r.starts = true) :
    (f.setViewport r).geometryReady = true := by
  rw [setViewport_of_starts f r hs]
  split_ifs with hsame
  · exact hsame.1
  · rfl

/-- A request that renews leaves nothing out. -/
lemma covered_setViewport {r : ViewportReq} (h : Inv blocks decompress s) (hok : s.renews = true)
    (hp : s.pending = some (s.discards, r)) (hstart : r.starts = true) :
    Covered blocks decompress { s with
      pending := none, frames := s.frames.setViewport r, applied := some s.discards } := by
  intro i hi
  dsimp only at hi ⊢
  by_cases hsame : s.frames.geometryReady = true ∧ r.geometry = s.frames.geometry
  · -- the old grid goes on
    rw [setViewport_of_starts s.frames r hstart, if_pos hsame, hsame.2] at hi ⊢
    unfold renews at hok
    simp only [hp, hstart, hsame, ne_eq, not_true_eq_false, decide_false, Bool.not_true,
      Bool.false_or, decide_true, Bool.and_true, Bool.or_false, Bool.or_eq_true,
      decide_eq_true_eq] at hok
    rcases hok with happ | hall
    · exact h.covered happ i hi
    · have hlt : (i : ℤ) < s.frames.scheduler.size := by
        rw [(h.tended.onGrid hsame.1).1.tileCount]
        exact hi
      exact .inl (List.all_eq_true.mp hall i (List.mem_range.mpr (by omega)))
  · -- a new one is all dirty
    rw [setViewport_of_starts s.frames r hstart, if_neg hsame] at hi ⊢
    have hsize := (matched_configure hstart s.frames).tileCount
    left
    rw [TileScheduler.isDirty_configure, decide_eq_true_eq]
    exact Int.ofNat_lt.mp (hi.trans_eq hsize.symm)

lemma inv_applyRequest (h : Inv blocks decompress s) (hok : s.renews = true)
    (hs : s.step source compress decompress .applyRequest = some t) : Inv blocks decompress t := by
  dsimp only [step] at hs
  split at hs
  · contradiction
  next stamp r hp =>
  obtain rfl := Option.some.inj hs
  have hmem : (stamp, r) ∈ s.uplink ++ s.pending.toList := by simp [hp]
  obtain ⟨hview, hle, hasked⟩ := h.stamps stamp r hmem
  have htended := tended_setViewport h.tended hview
  have hstamps : ∀ k q, (k, q) ∈ s.uplink ++ ([] : List (ℕ × ViewportReq)) →
      isView q = true ∧ k ≤ s.discards ∧ (k = s.discards → q.starts = true → s.unasked = false) :=
    fun k q hq => h.stamps k q (by rw [List.append_nil] at hq; exact List.mem_append_left _ hq)
  cases hstart : r.starts with
  | false =>
    obtain ⟨r', hf⟩ := setViewport_of_not_starts s.frames r hstart
    rw [hf] at htended ⊢
    exact ⟨hstamps, h.applied, h.ready, htended, h.covered⟩
  | true =>
    refine ⟨hstamps, fun k hk => ?_, h.ready, htended, fun ha => ?_⟩
    · obtain rfl := Option.some.inj hk
      exact ⟨hle, geometryReady_setViewport hstart, fun he => hasked he hstart⟩
    · obtain rfl : stamp = s.discards := Option.some.inj ha
      exact covered_setViewport h hok hp hstart

lemma inv_capture {u : Option FrameUpdate} {d : D} (h : Inv blocks decompress s)
    (hok : Reports blocks s.frames.geometry s.desktop d u)
    (hs : s.step source compress decompress (.capture u d) = some t) : Inv blocks decompress t := by
  dsimp only [step] at hs
  split_ifs at hs with hon
  obtain rfl := Option.some.inj hs
  obtain ⟨sch, hf, hsch, hkeep, hmark⟩ := s.frames.capture_spec u
  obtain ⟨hgrid, -, -⟩ := h.tended.onGrid (h.tended.streaming hon.1)
  rw [hf]
  refine ⟨h.stamps, h.applied, h.ready, h.tended.congr hsch rfl rfl rfl h.tended.budget,
    fun ha i hi => ?_⟩
  dsimp only at hi ⊢
  rcases hok i (by omega) with hsame | ⟨u', hu, htouch⟩
  · refine (h.covered ha i hi).imp (hkeep i) fun har => ?_
    unfold Arriving current at har ⊢
    dsimp only
    rw [hsame]
    exact har
  · have hsize := hgrid.tileCount
    exact .inl (hmark u' hu hgrid.cols i (by omega) htouch)

lemma pipeline_sendBatch {b : Batch} {fb : FrameBatch} (hb : b.Whole)
    (hacc : FrameReceiver.accept decompress b = some fb) (f : FrameSender) :
    pipeline decompress { s with frames := f, downlink := s.downlink ++ b.msgs }
      = s.pipeline decompress ++ [fb] := by
  unfold pipeline inFlight
  dsimp only
  rw [FrameReceiver.toCome_msgs hb, List.filterMap_append, ← List.append_assoc]
  simp [hacc]

lemma inv_sendBatch (hz : Codec source blocks compress decompress) (h : Inv blocks decompress s)
    (hs : s.step source compress decompress .sendBatch = some t) : Inv blocks decompress t := by
  dsimp only [step] at hs
  split_ifs at hs with hon
  obtain rfl := Option.some.inj hs
  obtain ⟨hgrid, htile, r, hr⟩ := h.tended.onGrid (h.tended.streaming hon.1)
  cases hb : (s.frames.sendBatch (source s.desktop) compress).2 with
  | none =>
    rw [sendBatch_of_none hb, Option.toList_none, List.flatMap_nil, List.append_nil]
    exact ⟨h.stamps, h.applied, h.ready, h.tended.congr ⟨rfl, rfl⟩ rfl rfl rfl h.tended.budget,
      h.covered⟩
  | some b =>
    have hsizes := hz.sizes s.desktop
    have hwhole := sendBatch_whole hgrid hsizes hz.compressed hb
    obtain ⟨sent, payload, henc, hacc, hf⟩ := accept_sendBatch hgrid hr htile hsizes hz.lossless hb
    have hin : InGrid s.frames.geometry sent := fun t ht =>
      hgrid.inGrid t ((encodeSelection_sublist henc).subset ht)
    have hof : FrameBatch.Of ⟨s.frames.geometry, sent, payload⟩ s.frames.geometry
        (blocks s.desktop s.frames.geometry) :=
      ⟨rfl, hin, hz.encodes _ _ _ _ _ hgrid.bounded.valid hgrid.inGrid henc,
        fun t ht => hz.length _ _ t hgrid.bounded.valid (hin t ht)⟩
    rw [hf, Option.toList_some, List.flatMap_singleton]
    refine ⟨h.stamps, h.applied, h.ready,
      h.tended.congr (TileScheduler.markSent_grid _ sent) rfl rfl rfl h.tended.budget,
      fun ha i hi => ?_⟩
    unfold Arriving
    rw [pipeline_sendBatch hwhole hacc, will_append]
    dsimp only at hi ⊢
    by_cases hmem : i ∈ sent.map UInt16.toNat
    · exact .inr (.inl ⟨_, hof, rfl, hmem⟩)
    · refine (h.covered ha i hi).imp (fun hd => ?_) fun har => .inr ⟨⟨_, hof, hmem⟩, har⟩
      rw [TileScheduler.isDirty_markSent, decide_eq_true hmem, Bool.and_true]
      exact hd

/-! ### Runs -/

lemma step_inv (hz : Codec source blocks compress decompress) {a : Act D}
    (h : Inv blocks decompress s) (hok : s.Lossless blocks decompress a)
    (hs : s.step source compress decompress a = some t) : Inv blocks decompress t := by
  cases a with
  | update => exact inv_update h hs
  | initWindow =>
    obtain rfl := Option.some.inj hs
    exact ⟨h.stamps, h.applied, fun _ => rfl, h.tended, h.covered⟩
  | termWindow =>
    obtain rfl := Option.some.inj hs
    exact inv_termWindow h
  | receive => exact inv_receive h hok hs
  | reset =>
    obtain rfl := Option.some.inj hs
    exact inv_reset h hok
  | render =>
    obtain rfl := Option.some.inj hs
    exact inv_render h
  | storeRequest => exact inv_storeRequest h hs
  | applyRequest => exact inv_applyRequest h hok hs
  | setPen =>
    obtain rfl := Option.some.inj hs
    exact ⟨h.stamps, h.applied, h.ready, h.tended.congr ⟨rfl, rfl⟩ rfl rfl rfl h.tended.budget,
      h.covered⟩
  | setBudgetTiles tiles =>
    obtain rfl := Option.some.inj hs
    have hb : 1 ≤ if tiles > 0 then tiles else 1 := by
      split_ifs <;> omega
    exact ⟨h.stamps, h.applied, h.ready, h.tended.congr ⟨rfl, rfl⟩ rfl rfl rfl hb, h.covered⟩
  | capture => exact inv_capture h hok hs
  | sendBatch => exact inv_sendBatch hz h hs

lemma inv_init (d : D) : Inv blocks decompress { desktop := d } :=
  ⟨nofun, nofun, nofun, ⟨nofun, nofun, show (1 : ℤ) ≤ 32 by decide⟩, nofun⟩

/-- **No tile is lost.** In every run in which nothing is thrown away that the host takes for
delivered, once it has applied a request sent after the guest last threw its picture away, every
tile of the grid is dirty, or the guest has it as it is now, queued, or on its way. -/
theorem run_noneLost (hz : Codec source blocks compress decompress) {d : D} {as : List (Act D)}
    (hr : Run (step source compress decompress) (Lossless blocks decompress) { desktop := d } as s) :
    s.NoneLost blocks decompress :=
  (hr.invariant (Inv blocks decompress) (fun _ _ _ => step_inv hz) (inv_init d)).noneLost

end invariant

/-! ### The desktop as an image -/

section image

variable (bounds : Recti)

/-- A capture that reads an image and leaves the encoding to the sender is as assumed. -/
lemma codec_imageSource {compress : List UInt8 → Option (List UInt8)}
    {decompress : List UInt8 → ℕ → Option (List UInt8)}
    (hz : ∀ p c, compress p = some c → (0 < c.length ∧ c.length ≤ compressBound p.length) ∧
      decompress c p.length = some p) :
    Codec (imageSource bounds) (tileBlocks bounds) compress decompress where
  encodes _ _ _ _ _ hv hin henc := encodeSelection_imageSource hv hin henc
  length image _ _ hv ht := length_tileBlocks bounds image hv ht
  compressed p c hc := (hz p c hc).1
  lossless p c hc := (hz p c hc).2

/-- It is enough that the pixels change only inside the rectangles of the update. -/
lemma reports_of_agree {g : ViewportGeometry} (hv : g.valid = true) {image image' : Image}
    {u : FrameUpdate} (h : ∀ x y, (∀ r ∈ u.dirty ++ u.moves, r.contains x y = false) →
      image' x y = image x y) : Reports (tileBlocks bounds) g image image' (some u) := by
  intro i hi
  by_cases ht : u.touches g i
  · exact .inr ⟨u, rfl, ht⟩
  · left
    unfold tileBlocks
    rw [encodeTile_congr hv h (fun d hd => ?_) fun _ _ _ => rfl]
    rw [← Bool.not_eq_true, ← Int.toNat_of_nonneg (cols_pos hv).le]
    exact fun hc => ht (.inr (.inr ⟨d, hd, hc⟩))

end image

/-! ### Looking away and back -/

/-- Bytes kept as they are behind a mark. -/
def stored (p : List UInt8) : Option (List UInt8) := some (0 :: p)

def restored (c : List UInt8) (n : ℕ) : Option (List UInt8) :=
  if c.length = n + 1 then some c.tail else none

def desk : Recti := ⟨0, 0, 16, 16⟩

lemma codec_stored : Codec (imageSource desk) (tileBlocks desk) stored restored := by
  refine codec_imageSource desk fun p c hc => ?_
  obtain rfl := Option.some.inj hc
  refine ⟨⟨Nat.succ_pos _, ?_⟩, if_pos rfl⟩
  rw [List.length_cons]
  unfold compressBound
  split_ifs <;> omega

/-- A dark desktop that nobody has looked at. -/
def night : ScreenStream Image := { desktop := fun _ _ => ⟨0, 0, 0, 255⟩ }

/-- A view of one tile. -/
def corner : ViewportReq :=
  { w := 8, h := 8, outW := 8, outH := 8, fps := 30, format := .etc2Rgb8, tile := 64 }

/-- A view is asked for, settles, and is granted. -/
def granted (view : ViewportReq) : List (Act Image) :=
  [.update true view false, .update true view true, .storeRequest, .applyRequest]

/-- The corner is shown, the window is lost and comes back, and another view is asked for. -/
def lookAgain (view : ViewportReq) : List (Act Image) :=
  .initWindow :: granted corner ++ [.sendBatch, .receive, .receive, .render, .termWindow,
    .initWindow, .storeRequest, .applyRequest] ++ granted view

/-- With twice as much in view there is a new grid, and its tile is sent. -/
theorem lookAgain_served :
    let s := Run.final (step (imageSource desk) stored restored)
      (Lossless (tileBlocks desk) restored) night
      (lookAgain { corner with w := 16, h := 16 } ++ [.sendBatch])
    s.frames.scheduler.isDirty 0 = false ∧ s.Served (tileBlocks desk) restored 0 := by
  intro s
  have hrun : Run (step (imageSource desk) stored restored) (Lossless (tileBlocks desk) restored)
      night _ s := Run.to_final (by decide +kernel)
  have hclean : s.frames.scheduler.isDirty 0 = false := by decide +kernel
  have h := run_noneLost codec_stored hrun (by decide +kernel) 0 (by decide +kernel)
  rw [hclean] at h
  exact ⟨hclean, h.resolve_right (by decide)⟩

/-- With the same in view as before the grid is the old one and its tile stays clean, although
the picture went with the window. -/
theorem lookAgain_lost :
    ¬∀ (as : List (Act Image)) (s : ScreenStream Image),
      Run (step (imageSource desk) stored restored) (Honest (tileBlocks desk)) night as s →
        s.NoneLost (tileBlocks desk) restored := by
  intro hall
  let s := Run.final (step (imageSource desk) stored restored) (Honest (tileBlocks desk)) night
    (lookAgain corner)
  have hrun : Run (step (imageSource desk) stored restored) (Honest (tileBlocks desk)) night
      (lookAgain corner) s := Run.to_final (by decide +kernel)
  have hclean : s.frames.scheduler.isDirty 0 = false := by decide +kernel
  rcases hall _ _ hrun (by decide +kernel) 0 (by decide +kernel) with hserved | hdirty
  · rcases hserved with ⟨hpainted, -⟩ | ⟨fb, hmem, -⟩ | ⟨fb, hmem, -⟩
    · exact absurd hpainted (by decide +kernel)
    · have hnone : s.app.frames.ready.length = 0 := by decide +kernel
      exact absurd (List.length_pos_of_mem hmem) (by omega)
    · have hnone : (s.inFlight restored).length = 0 := by decide +kernel
      exact absurd (List.length_pos_of_mem hmem) (by omega)
  · exact Bool.false_ne_true (hclean.symm.trans hdirty)

end ScreenStream

end Digitiz
