import Sremfb.Kvm.Pipeline

/-!
# What the clients see

Six paths update a client: the connection, a mode change, its first frame, the later frames, the
loss of the signal and a broken stream.  `Shown` says what they leave: while there is signal the
client has the fit of the mode; until the first frame it is marked `repaint`; from its repaint on its
picture is the master at the offset of the fit over black bars (for a fit of scale 1) and the last
blank message is `UNBLANK`; and while the source has no size the last one is `BLANK`.

**The condition.**  A restream in which the device accepts the format but answers a width of zero
fails after the width is stored, and `signal_lost` then takes the source for one that had no signal:
nobody is blanked.  `Sized` excludes this, for a source that had a size before.  It adds to the
assumption on the driver that the pipeline already makes.
-/

namespace Sremfb

open Lib

/-! ## Fits of scale 1 -/

/-- The picture of the master at the offset of the fit, over black bars. -/
def KvmFit.placed (fit : KvmFit) (master : Frame) : Frame := fun x y =>
  if Rect.Mem ⟨fit.ox, fit.oy, fit.ox + fit.srcW, fit.oy + fit.srcH⟩ x y then
    master (x - fit.ox) (y - fit.oy)
  else 0

/-- The source fits the picture of the client without scaling. -/
structure KvmFit.Unscaled (fit : KvmFit) (f : KvmFormat) (w h : ℤ) : Prop where
  srcW : fit.srcW = f.srcW
  srcH : fit.srcH = f.srcH
  dstW : fit.dstW = w
  dstH : fit.dstH = h
  s : fit.s = 1
  ox : 0 ≤ fit.ox ∧ fit.ox + f.srcW ≤ w
  oy : 0 ≤ fit.oy ∧ fit.oy + f.srcH ≤ h

lemma floor_half (n : ℤ) : ((n : ℚ) * 1 + 1 / 2).floor = n := by
  apply le_antisymm
  · have h : ((n : ℚ) * 1 + 1 / 2).floor < n + 1 := by
      rw [Rat.floor_lt_iff]
      push_cast
      linarith
    omega
  · rw [Rat.le_floor_iff]
    linarith

/-- A fit of scale 1 is unscaled. -/
lemma unscaled_kvmFit {f : KvmFormat} (hw : 0 < f.srcW) (hh : 0 < f.srcH) {dw dh : ℤ}
    (hdw : 0 < dw) (hdh : 0 < dh) (hs : (kvmFit f.srcW f.srcH dw dh).s = 1) :
    (kvmFit f.srcW f.srcH dw dh).Unscaled f dw dh := by
  have hwq : (0 : ℚ) < f.srcW := by exact_mod_cast hw
  have hhq : (0 : ℚ) < f.srcH := by exact_mod_cast hh
  revert hs
  unfold kvmFit
  split <;> rename_i hcase
  · intro _
    obtain ⟨rfl, rfl⟩ : f.srcW = dw ∧ f.srcH = dh := by omega
    exact ⟨rfl, rfl, rfl, rfl, rfl, ⟨le_rfl, by dsimp only; omega⟩, ⟨le_rfl, by dsimp only; omega⟩⟩
  · dsimp only
    intro hs
    have hle : f.srcW ≤ dw ∧ f.srcH ≤ dh := by
      have h₁ : (1 : ℚ) ≤ dw / f.srcW := by
        split at hs
        · exact hs.ge
        · exact hs.ge.trans (by linarith)
      have h₂ : (1 : ℚ) ≤ dh / f.srcH := by
        split at hs
        · exact hs.ge.trans (by linarith)
        · exact hs.ge
      rw [le_div_iff₀ hwq, one_mul] at h₁
      rw [le_div_iff₀ hhq, one_mul] at h₂
      exact ⟨by exact_mod_cast h₁, by exact_mod_cast h₂⟩
    rw [hs, floor_half, floor_half, min_eq_left hle.1, min_eq_left hle.2]
    refine ⟨rfl, rfl, rfl, rfl, rfl, ⟨?_, ?_⟩, ⟨?_, ?_⟩⟩ <;> dsimp only <;> omega

/-- Where a rectangle of the source lies in the picture of the client. -/
def KvmFit.shift (fit : KvmFit) (f : KvmFormat) (r : Rect) : Rect :=
  ⟨fit.ox + max r.x1 0, fit.oy + max r.y1 0, fit.ox + min r.x2 f.srcW, fit.oy + min r.y2 f.srcH⟩

variable {f : KvmFormat} {fit : KvmFit} {w h : ℤ}

/-- **`blit_rect` at scale 1** repaints the rectangle with the placed master. -/
lemma blitRect_unscaled (hfit : fit.Unscaled f w h) (master : Frame) (r : Rect) (grab : Frame) :
    (blitRect f master fit r grab).elim grab Prod.fst =
      rewrite grab (fit.placed master) [fit.shift f r] := by
  obtain ⟨hsw, hsh, hdw, hdh, hs, hox, hoy⟩ := hfit
  unfold blitRect
  dsimp only
  split <;> rename_i hempty
  · funext x y
    refine (rewrite_of_not_mem ?_).symm
    rintro ⟨q, hq, hm⟩
    rw [List.mem_singleton.mp hq] at hm
    obtain ⟨h₁, h₂, h₃, h₄⟩ := hm
    dsimp only [KvmFit.shift] at h₁ h₂ h₃ h₄
    omega
  rw [not_or, not_or, not_or] at hempty
  obtain ⟨-, -, hex, hey⟩ := hempty
  have hcutx : min (min r.x2 f.srcW) (max r.x1 0 + (fit.dstW - (fit.ox + max r.x1 0))) =
      min r.x2 f.srcW := by omega
  have hcuty : min (min r.y2 f.srcH) (max r.y1 0 + (fit.dstH - (fit.oy + max r.y1 0))) =
      min r.y2 f.srcH := by omega
  rw [hcutx, hcuty, if_neg (by omega)]
  funext x y
  have hshift : (⟨fit.ox + max r.x1 0, fit.oy + max r.y1 0,
      fit.ox + max r.x1 0 + (min r.x2 f.srcW - max r.x1 0),
      fit.oy + max r.y1 0 + (min r.y2 f.srcH - max r.y1 0)⟩ : Rect) = fit.shift f r := by
    rw [KvmFit.shift]
    congr 1 <;> omega
  dsimp only [Option.elim]
  rw [hshift, overlay, rewrite]
  refine if_ctx_congr (by simp) (fun hm => ?_) fun _ => rfl
  obtain ⟨q, hq, hm⟩ := hm
  rw [List.mem_singleton.mp hq] at hm
  obtain ⟨h₁, h₂, h₃, h₄⟩ := hm
  dsimp only [KvmFit.shift] at h₁ h₂ h₃ h₄
  rw [KvmFit.placed, if_pos ⟨by dsimp only; omega, by dsimp only; omega, by dsimp only; omega,
    by dsimp only; omega⟩]
  congr 1 <;> omega

namespace KvmState

variable {st : KvmState}

/-- The rectangles of a frame, one after the other. -/
lemma blitRects_unscaled (hfit : fit.Unscaled st.fmt w h) {master : Frame}
    (hm : st.master = some master) {rects : List Rect} (hlen : rects.length ≤ kvmMaxRects)
    (grab : Frame) : (st.blitRects fit rects grab).1 =
      rewrite grab (fit.placed master) (rects.map (fit.shift st.fmt)) := by
  unfold blitRects
  rw [hm]
  dsimp only
  -- from any accumulator that has room
  obtain ⟨p, hp⟩ : ∃ p : Frame × List Rect, p = (grab, []) := ⟨_, rfl⟩
  have hroom : p.2.length + rects.length ≤ kvmMaxRects := by simpa [hp] using hlen
  have hgrab : grab = p.1 := by rw [hp]
  rw [← hp, hgrab]
  clear hp hgrab hlen
  induction rects generalizing p with
  | nil => exact (rewrite_nil _ _).symm
  | cons r rs ih =>
      rw [List.length_cons] at hroom
      have hblit := blitRect_unscaled hfit master r p.1
      rw [List.foldl_cons, if_pos (by omega), List.map_cons, ← rewrite_cons, ← hblit]
      cases hb : blitRect st.fmt master fit r p.1 with
      | none => exact ih p (by omega)
      | some q =>
          refine ih (q.1, p.2 ++ [q.2]) ?_
          simp only [List.length_append, List.length_singleton]
          omega

/-! ## One client -/

/-- What a client that is not scheduled for loss is shown. -/
structure Shown (st : KvmState) (c : KvmClient) : Prop where
  fitted : st.signal = true → c.fit = kvmFit st.fmt.srcW st.fmt.srcH c.geomW c.geomH
  waiting : st.signal = true → st.prev = none → c.repaint = true
  picture : st.signal = true → st.prev ≠ none → c.repaint = false →
    (∀ master, st.master = some master → c.fit.s = 1 →
      ∀ x y, (Rect.full c.geomW c.geomH).Mem x y → c.grabbuf x y = c.fit.placed master x y) ∧
    c.ctrls.getLast? = some .unblank
  blanked : st.fmt.srcW ≤ 0 → c.ctrls.getLast? = some .blank

lemma sendCtrl_spec {c : KvmClient} (hl : c.lost = false) (m : Blanking) :
    c.sendCtrl m = { c with ctrls := c.ctrls ++ [m] } := by
  rw [KvmClient.sendCtrl, if_neg (by simp [hl])]

/-- A fit of scale 1 that is the identity leaves no bars, any other one was cleared. -/
lemma placed_of_bar {c : KvmClient} (hfit : c.fit.Unscaled st.fmt c.geomW c.geomH)
    (master : Frame) {x y : ℤ} (hon : (Rect.full c.geomW c.geomH).Mem x y)
    (hout : ¬(c.fit.shift st.fmt (Rect.full st.fmt.srcW st.fmt.srcH)).Mem x y) :
    c.fit.identity = false ∧ c.fit.placed master x y = 0 := by
  obtain ⟨hsw, hsh, hdw, hdh, hs, hox, hoy⟩ := hfit
  obtain ⟨h₁, h₂, h₃, h₄⟩ := Rect.mem_full.mp hon
  have hout' : ¬(c.fit.ox ≤ x ∧ x < c.fit.ox + st.fmt.srcW ∧ c.fit.oy ≤ y ∧
      y < c.fit.oy + st.fmt.srcH) := by
    rintro ⟨h₅, h₆, h₇, h₈⟩
    refine hout ⟨?_, ?_, ?_, ?_⟩ <;> dsimp only [KvmFit.shift, Rect.full] <;> omega
  constructor
  · by_contra hid
    rw [Bool.not_eq_false, KvmFit.identity, decide_eq_true_eq] at hid
    omega
  · rw [KvmFit.placed, if_neg]
    rintro ⟨h₅, h₆, h₇, h₈⟩
    dsimp only at h₅ h₆ h₇ h₈
    omega

/-- **A repaint** at scale 1 shows the placed master on the whole screen of the client. -/
lemma repaintPicture_unscaled {c : KvmClient} (hfit : c.fit.Unscaled st.fmt c.geomW c.geomH)
    (master : Frame) {x y : ℤ} (hon : (Rect.full c.geomW c.geomH).Mem x y) :
    st.repaintPicture master c.fit c.grabbuf x y = c.fit.placed master x y := by
  unfold repaintPicture
  rw [blitRect_unscaled hfit]
  refine rewrite_apply_eq fun hne => ?_
  by_contra hout
  obtain ⟨hid, hzero⟩ := placed_of_bar hfit master hon fun hmem =>
    hout ⟨_, List.mem_singleton.mpr rfl, hmem⟩
  rw [hid, hzero] at hne
  exact hne rfl

lemma unscaled_of_mem {c : KvmClient} (hw : 0 < st.fmt.srcW) (hh : 0 < st.fmt.srcH)
    (hfit : c.fit = kvmFit st.fmt.srcW st.fmt.srcH c.geomW c.geomH) (hs : c.fit.s = 1) {x y : ℤ}
    (hon : (Rect.full c.geomW c.geomH).Mem x y) : c.fit.Unscaled st.fmt c.geomW c.geomH := by
  obtain ⟨hx₁, hx₂, hy₁, hy₂⟩ := Rect.mem_full.mp hon
  rw [hfit] at hs ⊢
  exact unscaled_kvmFit hw hh (by omega) (by omega) hs

/-- A full picture, now or at the next frame. -/
lemma Shown.repaint {c : KvmClient} (hl : c.lost = false)
    (hsize : st.signal = true → 0 < st.fmt.srcW ∧ 0 < st.fmt.srcH)
    (hfit : st.signal = true → c.fit = kvmFit st.fmt.srcW st.fmt.srcH c.geomW c.geomH)
    (hmaster : st.signal = true → ∃ m, st.master = some m)
    (hb : st.fmt.srcW ≤ 0 → c.ctrls.getLast? = some .blank) :
    Shown st (st.repaintClient c) := by
  unfold repaintClient
  cases hsig : st.signal with
  | false =>
      have hno : ∀ {p : Prop}, st.signal = true → p := fun h => by simp [hsig] at h
      exact ⟨fun h => hno h, fun h => hno h, fun h => hno h, hb⟩
  | true =>
      obtain ⟨master, hm⟩ := hmaster hsig
      obtain ⟨hw, hh⟩ := hsize hsig
      rw [hm]
      cases hp : st.prev with
      | none =>
          refine ⟨fun _ => hfit hsig, fun _ _ => rfl, fun _ h => absurd hp h, fun h => ?_⟩
          omega
      | some p =>
          have hctrl := sendCtrl_spec (c := { c with
            repaint := false, grabbuf := st.repaintPicture master c.fit c.grabbuf }) hl .unblank
          dsimp only
          rw [hctrl]
          refine ⟨fun _ => hfit hsig, fun _ h => absurd (hp.symm.trans h) (by simp),
            fun _ _ _ => ⟨fun master' hm' hs x y hon => ?_, ?_⟩, fun h => ?_⟩
          · obtain rfl := Option.some.inj (hm.symm.trans hm')
            exact repaintPicture_unscaled (unscaled_of_mem hw hh (hfit hsig) hs hon) master hon
          · simp
          · omega

/-- The rectangles of a frame bring the picture of a client up to date. -/
lemma placed_fanout {master master' : Frame} (hfit : fit.Unscaled f w h) {rects : List Rect}
    (hdiff : ∀ x y, master x y ≠ master' x y → ∃ r ∈ rects, r.Mem x y) {grab : Frame} {x y : ℤ}
    (hgrab : grab x y = fit.placed master x y) :
    rewrite grab (fit.placed master') (rects.map (fit.shift f)) x y = fit.placed master' x y := by
  refine rewrite_apply_eq fun hne => ?_
  rw [hgrab, KvmFit.placed, KvmFit.placed] at hne
  have hin : Rect.Mem ⟨fit.ox, fit.oy, fit.ox + fit.srcW, fit.oy + fit.srcH⟩ x y := by
    by_contra hout
    rw [if_neg hout, if_neg hout] at hne
    exact hne rfl
  rw [if_pos hin, if_pos hin] at hne
  obtain ⟨r, hr, hm⟩ := hdiff _ _ hne
  refine ⟨fit.shift f r, List.mem_map_of_mem hr, ?_⟩
  obtain ⟨h₁, h₂, h₃, h₄⟩ := hin
  obtain ⟨h₅, h₆, h₇, h₈⟩ := hm
  have hsw := hfit.srcW
  have hsh := hfit.srcH
  dsimp only at h₁ h₂ h₃ h₄
  refine ⟨?_, ?_, ?_, ?_⟩ <;> dsimp only [KvmFit.shift] <;> omega

/-- What a client is shown after a frame: `st` is the state before it, `st₁` the one in which it is
fanned out. -/
lemma Shown.fanout {st₁ : KvmState} {c : KvmClient} (hc : Shown st c) (hl : c.lost = false)
    (hsig : st₁.signal = st.signal) (hfmt : st₁.fmt = st.fmt) (hprev : st₁.prev ≠ none)
    (hsize : st.signal = true → 0 < st.fmt.srcW ∧ 0 < st.fmt.srcH) {rects : List Rect}
    (hlen : rects.length ≤ kvmMaxRects)
    (hmaster : st.signal = true → ∃ m m', st.master = some m ∧ st₁.master = some m' ∧
      ∀ x y, m x y ≠ m' x y → ∃ r ∈ rects, r.Mem x y) :
    Shown st₁ (st₁.fanoutClient rects c) := by
  have hfit₁ : st₁.signal = true →
      c.fit = kvmFit st₁.fmt.srcW st₁.fmt.srcH c.geomW c.geomH := by
    rw [hsig, hfmt]
    exact hc.fitted
  have hb₁ : st₁.fmt.srcW ≤ 0 → c.ctrls.getLast? = some .blank := by
    rw [hfmt]
    exact hc.blanked
  unfold fanoutClient
  split <;> rename_i hrep
  · -- the first picture since the mode changed
    refine Shown.repaint hl ?_ hfit₁ ?_ hb₁
    · rw [hsig, hfmt]
      exact hsize
    · intro hs
      obtain ⟨-, m', -, hm', -⟩ := hmaster (hsig ▸ hs)
      exact ⟨m', hm'⟩
  · rw [Bool.not_eq_true] at hrep
    refine ⟨hfit₁, fun _ h => absurd h hprev, fun hs _ _ => ?_, hb₁⟩
    rw [hsig] at hs
    obtain ⟨m, m', hm, hm', hdiff⟩ := hmaster hs
    obtain ⟨hw, hh⟩ := hsize hs
    have hold : st.prev ≠ none := by
      intro hnone
      rw [hc.waiting hs hnone] at hrep
      cases hrep
    obtain ⟨hpic, hlast⟩ := hc.picture hs hold hrep
    refine ⟨fun master hmm hscale x y hon => ?_, hlast⟩
    obtain rfl := Option.some.inj (hm'.symm.trans hmm)
    have hun : c.fit.Unscaled st₁.fmt c.geomW c.geomH := by
      rw [hfmt]
      exact unscaled_of_mem hw hh (hc.fitted hs) hscale hon
    dsimp only
    rw [blitRects_unscaled hun hm' hlen]
    exact placed_fanout hun hdiff (hpic m hm hscale x y hon)

/-! ## The invariant -/

/-- **The invariant.**  A source with signal streams and has a size, and every client that is not
scheduled for loss is shown what it should be. -/
structure Fanned (st : KvmState) : Prop where
  retained : st.Retained
  live : st.signal = true → st.streaming = true
  sized : st.streaming = true → 0 < st.fmt.srcW ∧ 0 < st.fmt.srcH
  shown : ∀ c ∈ st.clients, c.lost = false → Shown st c

lemma Shown.congr {st' : KvmState} {c : KvmClient} (hc : Shown st c)
    (hsig : st'.signal = st.signal) (hfmt : st'.fmt = st.fmt) (hprev : st'.prev = st.prev)
    (hmaster : st'.master = st.master) : Shown st' c := by
  obtain ⟨h₁, h₂, h₃, h₄⟩ := hc
  rw [← hsig, ← hfmt] at h₁
  rw [← hsig, ← hprev] at h₂
  rw [← hsig, ← hprev, ← hmaster] at h₃
  rw [← hfmt] at h₄
  exact ⟨h₁, h₂, h₃, h₄⟩

/-- A step that only moves buffers. -/
lemma Fanned.buffers {st' : KvmState} (h : st.Fanned) (hr : st'.Retained) (hs : st.SameStream st') :
    st'.Fanned := by
  refine ⟨hr, ?_, ?_, fun c hc hl => ?_⟩
  · rw [hs.signal, hs.streaming]
    exact h.live
  · rw [hs.streaming, hs.fmt]
    exact h.sized
  · rw [hs.clients] at hc
    exact (h.shown c hc hl).congr hs.signal hs.fmt hs.prev hs.master

lemma lost_fanoutClient (st : KvmState) (rects : List Rect) (c : KvmClient) :
    (st.fanoutClient rects c).lost = c.lost := by
  unfold fanoutClient repaintClient KvmClient.sendCtrl
  split
  · split
    · dsimp only
      split
      · rfl
      · rfl
    · rfl
  · rfl

/-- `sremfb_kvm_frame`, up to the fan-out. -/
lemma kvmFrame_eq (st : KvmState) (idx : ℕ) (ok : Bool) :
    ∃ st₁ : KvmState, st.kvmFrame idx ok = st₁.fanout (st.frameRects idx) ∧
      st₁.clients = st.clients ∧ st₁.signal = st.signal ∧ st₁.streaming = st.streaming ∧
      st₁.fmt = st.fmt ∧ st₁.prev = some idx ∧
      st₁.master = st.master.map ((st.frameRects idx).foldl
        fun m r => st.fmt.kvmConvertRect (st.buf idx) r m) := by
  refine ⟨_, rfl, ?_⟩
  dsimp only
  cases st.prev with
  | none => exact ⟨rfl, rfl, rfl, rfl, rfl, rfl⟩
  | some p =>
      dsimp only
      rw [sameBuffers_releaseBuf]
      exact ⟨rfl, rfl, rfl, rfl, rfl, rfl⟩

/-- **A frame.** -/
lemma Fanned.frame (h : st.Fanned) {idx : ℕ} (ok : Bool) (hs : st.streaming = true)
    (hidx : idx < st.nbuf) (hne : st.prev ≠ some idx) (hd : st.driver idx = false) :
    (st.kvmFrame idx ok).Fanned := by
  have hret := (h.retained.frame ok hs hidx hne hd).1
  obtain ⟨st₁, heq, hclients, hsig, hstr, hfmt, hprev, hmaster⟩ := kvmFrame_eq st idx ok
  obtain ⟨hlen, -, hcover⟩ := frameRects_spec st idx
  rw [h.retained.image hs, Option.map_some, foldl_frameRects] at hmaster
  rw [heq] at hret ⊢
  refine ⟨hret, ?_, ?_, fun c' hc' hl => ?_⟩
  · exact fun _ => hstr.trans hs
  · intro _
    rw [show (st₁.fanout (st.frameRects idx)).fmt = st.fmt from hfmt]
    exact h.sized hs
  · obtain ⟨c, hc, rfl⟩ := List.mem_map.mp hc'
    rw [lost_fanoutClient] at hl
    rw [hclients] at hc
    have hshown := (h.shown c hc hl).fanout hl hsig hfmt
      (by rw [hprev]; simp) (fun _ => h.sized hs) hlen
      fun _ => ⟨_, _, h.retained.image hs, hmaster, hcover⟩
    exact hshown.congr rfl rfl rfl rfl

lemma SameBuffers.sameStream {st' : KvmState} (h : st.SameBuffers st') : st.SameStream st' := by
  rw [h]
  exact sameStream_of_eq rfl

lemma Fanned.onFrameReady (h : st.Fanned) {r : Dqbuf} {ok : Bool}
    (hd : Driver st (.frameReady r ok)) : (st.onFrameReady r ok).Fanned := by
  have hret := h.retained.onFrameReady hd
  by_cases hw : st.frameWatch = true
  · unfold KvmState.onFrameReady at hret ⊢
    rw [if_neg (by simp [hw])] at hret ⊢
    cases r with
    | again => exact h
    | error =>
        -- the signal is gone until the next probe
        refine ⟨hret, fun hs => Bool.noConfusion hs, h.sized, fun c hc hl => ?_⟩
        obtain ⟨-, -, -, hb⟩ := h.shown c hc hl
        exact ⟨fun hs => Bool.noConfusion hs, fun hs => Bool.noConfusion hs,
          fun hs => Bool.noConfusion hs, hb⟩
    | buffer b =>
        obtain ⟨hne, hdeq⟩ := h.retained.dequeue (hd hw)
        have hf : Fanned { st with
            driver := Function.update st.driver b.index false
            queued := Function.update st.queued b.index false } :=
          h.buffers hdeq (sameStream_of_eq rfl)
        dsimp only at hret ⊢
        split at hret <;> rename_i hlt
        · rw [if_pos hlt]
          exact h.buffers hret (sameStream_of_eq rfl)
        rw [if_neg hlt]
        split at hret <;> rename_i hdis
        · rw [if_pos hdis]
          exact hf.buffers hret (sameBuffers_releaseBuf _ _ _).sameStream
        · rw [if_neg hdis]
          exact hf.frame ok (h.retained.watching hw) (Nat.lt_of_not_le hlt) hne
            (Function.update_self ..)
  · unfold KvmState.onFrameReady
    rw [if_pos (by simpa using hw)]
    exact h

lemma Fanned.tick (h : st.Fanned) (mem : Bytes) : (st.tick mem).Fanned := by
  obtain hret := (h.retained.tick mem).1
  unfold KvmState.tick at hret ⊢
  split at hret <;> rename_i hmode
  · rw [if_pos hmode]
    exact h
  rw [if_neg hmode]
  rw [not_or, Bool.not_eq_true, Bool.not_eq_false] at hmode
  obtain ⟨hfd, hs⟩ := hmode
  split
  · exact h
  · rename_i i hfind
    have hi : i < kvmNbuf := List.mem_range.mp (List.mem_of_find?_eq_some hfind)
    have hpick := List.find?_some hfind
    rw [Bool.and_eq_true, decide_eq_true_eq] at hpick
    have hf : Fanned { st with
        buf := Function.update st.buf i mem
        driver := Function.update st.driver i false } :=
      h.buffers (h.retained.draw hs hpick.2 mem) (sameStream_of_eq rfl)
    have hlt : i < st.nbuf := by rw [h.retained.synthetic hfd hs]; exact hi
    exact hf.frame true hs hlt hpick.2 (Function.update_self ..)

/-! ## Probes -/

/-- A restream whose format the device accepts has a width, if the source had one. -/
def Sized (st : KvmState) : KvmEvent → Prop
  | .probe p => ∀ w h, p.queryMode = some (w, h) → st.fd = true →
      ¬(st.streaming = true ∧ st.signal = true ∧ w = st.fmt.srcW ∧ h = st.fmt.srcH) →
      (st.settled p.start w h).pixelformat ≠ .other → 0 < st.fmt.srcW →
        0 < (st.settled p.start w h).width
  | _ => True

/-- A source without a size. -/
lemma fanned_of_lost {st : KvmState} (hr : st.Retained) (hs : st.streaming = false)
    (hsig : st.signal = false)
    (hb : ∀ c ∈ st.clients, c.lost = false → c.ctrls.getLast? = some .blank) : st.Fanned := by
  have hno : ∀ {p : Prop}, st.signal = true → p := fun h => by simp [hsig] at h
  refine ⟨hr, fun h => hno h, fun h => by simp [hs] at h, fun c hc hl => ?_⟩
  exact ⟨fun h => hno h, fun h => hno h, fun h => hno h, fun _ => hb c hc hl⟩

/-- **`signal_lost`** blanks every client, unless the source had no size and did not stream; then
they are blank already. -/
lemma fanned_signalLost (hb : st.signal = false → st.streaming = false → st.fmt.srcW ≤ 0 →
      ∀ c ∈ st.clients, c.lost = false → c.ctrls.getLast? = some .blank) :
    st.signalLost.Fanned := by
  have hret := retained_signalLost st
  unfold signalLost at hret ⊢
  dsimp only at hret ⊢
  split at hret <;> rename_i hblank
  · rw [if_pos hblank]
    refine fanned_of_lost hret rfl rfl fun c' hc' hl => ?_
    obtain ⟨c, -, rfl⟩ := List.mem_map.mp hc'
    have hl' : c.lost = false := by
      unfold KvmClient.sendCtrl at hl
      split at hl
      · exact hl
      · exact hl
    dsimp only
    rw [sendCtrl_spec hl']
    simp
  · rw [if_neg hblank]
    rw [Bool.or_eq_true, Bool.or_eq_true, not_or, not_or, Bool.not_eq_true, Bool.not_eq_true,
      decide_eq_true_eq, not_lt] at hblank
    obtain ⟨⟨hsig, hstr⟩, hw⟩ := hblank
    exact fanned_of_lost hret rfl rfl (hb hsig hstr hw)

/-- **A mode change**: every client that stays gets the new fit and waits for a frame. -/
lemma fanned_applyResize (hr : st.Retained) (hstart : st.Started) : st.applyResize.Fanned := by
  refine ⟨hr.clients _, fun _ => hstart.streaming, fun _ => hstart.sized, fun c' hc' hl => ?_⟩
  obtain ⟨c, -, rfl⟩ := List.mem_map.mp hc'
  unfold resizeClient at hl ⊢
  split at hl <;> rename_i hcut
  · cases hl
  · rw [if_neg hcut]
    refine ⟨fun _ => rfl, fun _ _ => rfl, fun _ h => absurd hstart.prev h, fun h => ?_⟩
    have hw := hstart.sized.1
    have : st.fmt.srcW ≤ 0 := h
    omega

lemma Fanned.probe (h : st.Fanned) {p : Probe} (hsz : Sized st (.probe p)) :
    (st.probeSignal p).Fanned := by
  have hblank : st.fmt.srcW ≤ 0 → ∀ c ∈ st.clients, c.lost = false →
      c.ctrls.getLast? = some .blank := fun hw c hc hl => (h.shown c hc hl).blanked hw
  unfold probeSignal
  cases hq : p.queryMode with
  | none => exact fanned_signalLost fun _ _ hw => hblank hw
  | some m =>
      obtain ⟨w, hgt⟩ := m
      have hpos := Probe.queryMode_pos hq
      dsimp only
      split <;> rename_i hsame
      · exact h
      obtain ⟨hclients, hsig, hcase⟩ := startStream_cases st p.start hpos.1 hpos.2
      split <;> rename_i hok
      · -- the restream failed
        refine fanned_signalLost fun _ _ hw => ?_
        rw [hclients]
        refine hblank ?_
        obtain ⟨hno, -⟩ | ⟨-, -, hold | ⟨hfd, hother, hnew⟩⟩ := hcase
        · exact absurd (hno.symm.trans hok) (by decide)
        · rw [← hold]
          exact hw
        · by_contra hold
          have := hsz w hgt hq hfd hsame hother (by omega)
          omega
      · obtain ⟨-, hstart⟩ := hcase.resolve_right fun hfail => hok hfail.1
        refine fanned_applyResize ?_ ?_
        · obtain ⟨h₁, h₂, h₃, h₄⟩ := hstart.retained
          exact ⟨h₁, h₂, h₃, h₄⟩
        · obtain ⟨h₁, h₂, h₃, h₄, h₅⟩ := hstart
          exact ⟨h₁, h₂, h₃, h₄, h₅⟩

/-- A probe that ends without signal leaves the source without a size. -/
lemma srcW_of_probe {p : Probe} (hsig : (st.probeSignal p).signal = false) :
    (st.probeSignal p).fmt.srcW = 0 := by
  have hlost : ∀ st : KvmState, st.signalLost.fmt.srcW = 0 := by
    intro st
    unfold signalLost
    dsimp only
    split
    · rfl
    · rfl
  unfold probeSignal at hsig ⊢
  cases hq : p.queryMode with
  | none => exact hlost st
  | some m =>
      rw [hq] at hsig
      dsimp only at hsig ⊢
      split at hsig <;> rename_i hsame
      · rw [hsame.2.1] at hsig
        cases hsig
      rw [if_neg hsame]
      split at hsig <;> rename_i hok
      · rw [if_pos hok]
        exact hlost _
      · cases hsig

/-! ## Clients that come and go -/

lemma Fanned.accept (h : st.Fanned) (id : ℕ) (xres yres : ℤ) :
    (st.kvmAcquire id xres yres).Fanned := by
  refine ⟨h.retained.clients _, h.live, h.sized, fun c hc hl => ?_⟩
  suffices hshown : Shown st c from hshown.congr rfl rfl rfl rfl
  obtain hc | hc := List.mem_append.mp hc
  · exact h.shown c hc hl
  have hsize : st.signal = true → 0 < st.fmt.srcW ∧ 0 < st.fmt.srcH := fun hs => h.sized (h.live hs)
  have hmaster : st.signal = true → ∃ m, st.master = some m :=
    fun hs => ⟨_, h.retained.image (h.live hs)⟩
  rw [List.mem_singleton.mp hc]
  by_cases hs : st.signal = true
  · obtain ⟨hw, hh⟩ := hsize hs
    have hyes : (decide (st.signal = true ∧ 0 < st.fmt.srcW ∧ 0 < st.fmt.srcH)) = true := by
      simp [hs, hw, hh]
    rw [hyes]
    simp only [if_true]
    exact Shown.repaint rfl hsize (fun _ => rfl) hmaster fun h => by omega
  · have hno : (decide (st.signal = true ∧ 0 < st.fmt.srcW ∧ 0 < st.fmt.srcH)) = false := by
      simp [hs]
    rw [hno]
    refine ⟨fun h => absurd h hs, fun h => absurd h hs, fun h => absurd h hs, fun _ => ?_⟩
    simp [KvmClient.sendCtrl]

/-- What can happen to the device, as far as the clients depend on it. -/
def Steady (st : KvmState) (ev : KvmEvent) : Prop := Driver st ev ∧ Sized st ev

/-- One event. -/
lemma Fanned.step (h : st.Fanned) {ev : KvmEvent} (hev : Steady st ev) : (st.step ev).Fanned := by
  have hret := h.retained.step hev.1
  cases ev with
  | write i mem => exact h.buffers hret (sameStream_of_eq rfl)
  | frameReady r ok => exact h.onFrameReady hev.1
  | tick mem => exact h.tick mem
  | probe p => exact h.probe hev.2
  | accept id xres yres => exact h.accept id xres yres
  | leave id =>
      refine ⟨hret, h.live, h.sized, fun c hc hl => ?_⟩
      exact (h.shown c (List.mem_filter.mp hc).1 hl).congr rfl rfl rfl rfl
  | scheduleLost id =>
      refine ⟨hret, h.live, h.sized, fun c' hc' hl => ?_⟩
      obtain ⟨c, hc, rfl⟩ := List.mem_map.mp hc'
      split at hl <;> rename_i hid
      · cases hl
      · rw [if_neg hid]
        exact (h.shown c hc hl).congr rfl rfl rfl rfl

lemma fanned_run {tile : TileSize} {pixfmt : Fourcc} {geometry : KvmGeometry}
    {resize : KvmResize} {fd : Bool} {es : List KvmEvent}
    (hes : Along Steady KvmState.step (boot tile pixfmt geometry resize fd) es) :
    (run KvmState.step (boot tile pixfmt geometry resize fd) es).Fanned := by
  refine run_invariant (fun _ _ hev h => h.step hev) ?_ hes
  exact fanned_of_lost (retained_of_idle rfl rfl rfl) rfl rfl fun c hc => absurd hc List.not_mem_nil

/-- **The fan-out.**  In every run in which no restream leaves the source without a width: while
there is signal and a frame is retained, a client that is not scheduled for loss and not marked
`repaint` has `UNBLANK` for its last blank message, and at scale 1 it shows the master at the offset
of its fit over black bars; and after a probe that ends without signal the last blank message of
every client that is not scheduled for loss is `BLANK`. -/
theorem clients_shown (tile : TileSize) (pixfmt : Fourcc) (geometry : KvmGeometry)
    (resize : KvmResize) (fd : Bool) (es : List KvmEvent)
    (hes : Along Steady KvmState.step (boot tile pixfmt geometry resize fd) es) :
    let st := run KvmState.step (boot tile pixfmt geometry resize fd) es
    (∀ c ∈ st.clients, c.lost = false → st.signal = true → st.prev ≠ none → c.repaint = false →
      c.ctrls.getLast? = some .unblank ∧
      (c.fit.s = 1 → ∃ master, st.master = some master ∧ ∀ x y,
        (Rect.full c.geomW c.geomH).Mem x y → c.grabbuf x y = c.fit.placed master x y)) ∧
    ∀ p, Steady st (.probe p) → (st.step (.probe p)).signal = false →
      ∀ c ∈ (st.step (.probe p)).clients, c.lost = false → c.ctrls.getLast? = some .blank := by
  intro st
  have h : st.Fanned := fanned_run hes
  constructor
  · intro c hc hl hsig hprev hrep
    obtain ⟨hpic, hlast⟩ := (h.shown c hc hl).picture hsig hprev hrep
    refine ⟨hlast, fun hs => ?_⟩
    have hm := h.retained.image (h.live hsig)
    exact ⟨_, hm, hpic _ hm hs⟩
  · intro p hev hsig c hc hl
    refine ((h.step hev).shown c hc hl).blanked ?_
    exact (srcW_of_probe hsig).le

/-- A client, and the first frame. -/
def firstFrame : List KvmEvent :=
  [.probe smallDevice, .accept 1 2 2, .write 0 fun _ => 1,
    .frameReady (.buffer ⟨0, false, 12⟩) true]

lemma firstFrame_steady : Along Steady KvmState.step (boot .default .rgb24 .source .scale true)
    firstFrame := by
  refine ⟨⟨trivial, fun w h _ _ _ _ hw => absurd hw (by decide +kernel)⟩, ⟨trivial, trivial⟩,
    ⟨?_, trivial⟩, ⟨fun _ => ?_, trivial⟩, trivial⟩
  · change _ = true
    decide +kernel
  · decide +kernel

/-- The client is shown the frame. -/
theorem clients_shown_first :
    let st := run KvmState.step (boot .default .rgb24 .source .scale true) firstFrame
    ∃ c ∈ st.clients, c.ctrls.getLast? = some .unblank ∧ ∃ master, st.master = some master ∧
      c.grabbuf 1 1 = c.fit.placed master 1 1 := by
  intro st
  have hstate : st.signal = true ∧ st.prev = some 0 ∧ 0 < st.clients.length ∧
      ∀ p ∈ st.clients.map fun c => (c.lost, c.repaint, c.fit.s, c.geomW, c.geomH),
        p = (false, false, 1, 2, 2) := by decide +kernel
  obtain ⟨hsig, hprev, hlen, hall⟩ := hstate
  obtain ⟨c, hc⟩ := List.exists_mem_of_length_pos hlen
  have hfields := hall _ (List.mem_map_of_mem hc)
  simp only [Prod.mk.injEq] at hfields
  obtain ⟨hl, hrep, hs, hw, hh⟩ := hfields
  obtain ⟨hshown, -⟩ := clients_shown _ _ _ _ _ _ firstFrame_steady
  obtain ⟨hlast, hpic⟩ := hshown c hc hl hsig (by rw [hprev]; simp) hrep
  obtain ⟨master, hm, hat⟩ := hpic hs
  refine ⟨c, hc, hlast, master, hm, hat 1 1 ?_⟩
  rw [hw, hh]
  decide

/-- The device accepts the format and answers a width of zero. -/
def zeroWidth : Probe where
  timings := some (4, 4)
  start := { smallDevice.start with sFmt := fun f => some ⟨0, 4, f, 0, false⟩ }

/-- **Nobody is blanked**: the probe ends without signal, and the last message to the client stays
`UNBLANK`. -/
theorem zero_width_keeps_unblank :
    let st := run KvmState.step (boot .default .rgb24 .source .scale true) firstFrame
    Along Driver KvmState.step (boot .default .rgb24 .source .scale true) firstFrame ∧
      (st.step (.probe zeroWidth)).signal = false ∧
      ((st.step (.probe zeroWidth)).clients.map fun c => (c.lost, c.ctrls.getLast?)) =
        [(false, some .unblank)] := by
  refine ⟨firstFrame_steady.mono fun _ _ h => h.1, ?_, ?_⟩
  · decide +kernel
  · decide +kernel

end KvmState

end Sremfb
