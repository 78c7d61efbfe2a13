import Sremfb.Server.Coverage
import Sremfb.Server.Framing
import Sremfb.Image

/-!
# A RAW client ends up with the frame

As long as no episode was opened, the picture a client makes from the messages it was sent is
the conversion of `shadowbuf` (`Shown`): a rectangle is converted from `grabbuf` and the same
pixels are copied into `shadowbuf`.  With nothing pending, coverage says that `grabbuf` and
`shadowbuf` agree, so the picture is the conversion of `grabbuf`.

This needs the message to carry its pixels.  `build_raw_rect` hands the size of the rectangle to
LZ4 as an `int`, and from `2 ^ 31` bytes on that is not the size any more: a rectangle of
`2 ^ 32` bytes is "compressed" as an empty one.  So convergence is proved for frames LZ4
supports (`Fits`), and `not_convergent_of_huge_frame` shows what happens beyond.
-/

namespace Sremfb

open Lib Relation

variable {D : Type}

/-- The picture after a message of the server. -/
def Sent.apply (z : Lz4) (bpp : ℕ) (img : Image) : Sent → Image
  | .rect hdr payload => img.rect z bpp hdr payload
  | _ => img

/-- The frame is one LZ4 supports, with coordinates that fit the header. -/
structure Fits (w h bpp : ℕ) : Prop where
  width : w ≤ 65535
  height : h ≤ 65535
  size : w * h * bpp ≤ 0x7E000000

/-! ## A rectangle message carries its pixels -/

section Message

variable {env : Env} {neg : Negotiated}

lemma rectPayload_spec (neg : Negotiated) (hz : env.lz4.Documented) {raw : List UInt8}
    (hlen : raw.length ≤ 0x7E000000) :
    rectPayload env neg raw = (.raw, raw) ∨
      neg.lz4 = true ∧ ∃ out, rectPayload env neg raw = (.lz4, out) ∧ 0 < out.length ∧
        out.length < raw.length ∧ env.lz4.decompressSafe out raw.length = some raw := by
  have hint : intOfSize raw.length = raw.length := intOfSize_of_lt (by norm_num; omega)
  unfold rectPayload
  dsimp only
  split
  · rename_i hneg
    rw [hint]
    split
    · rename_i out hout
      split
      · rename_i hsmall
        refine .inr ⟨hneg, out, rfl, hsmall.1, hsmall.2, ?_⟩
        simpa using hz.roundTrip hout (by omega) le_rfl
      · exact .inl rfl
    · exact .inl rfl
  · exact .inl rfl

/-- A non-empty rectangle of the frame in natural coordinates. -/
lemma inside_nat {r : Rect} {w h : ℕ} (hr : r.Inside w h) :
    ∃ x y rw rh : ℕ, r = ⟨x, y, x + rw, y + rh⟩ ∧ 0 < rw ∧ 0 < rh ∧ x + rw ≤ w ∧ y + rh ≤ h := by
  obtain ⟨h1, h2, h3, h4, h5, h6⟩ := hr
  refine ⟨r.x1.toNat, r.y1.toNat, (r.x2 - r.x1).toNat, (r.y2 - r.y1).toNat, ?_, by omega, by omega,
    by omega, by omega⟩
  cases r
  simp only [Rect.mk.injEq] at *
  omega

/-- What the message of a rectangle says, in a frame that fits: its place, and its pixels as
they are or compressed. -/
structure Carries (z : Lz4) (neg : Negotiated) (x y w h : ℕ) (raw : List UInt8)
    (m : FrameHdr × List UInt8) : Prop where
  magic : m.1.magic = Sremfb.magic
  hdr_x : m.1.x.toNat = x
  hdr_y : m.1.y.toNat = y
  hdr_w : m.1.w.toNat = w
  hdr_h : m.1.h.toNat = h
  len : m.1.payloadLen.toNat = m.2.length
  raw_len : raw.length = h * (w * neg.pixfmt.bytespp)
  payload : m.1.encoding = Encoding.raw.code ∧ m.2 = raw ∨
    neg.lz4 = true ∧ m.1.encoding = Encoding.lz4.code ∧ 0 < m.2.length ∧
      m.2.length < raw.length ∧ z.decompressSafe m.2 raw.length = some raw

lemma rectMessage_carries (hz : env.lz4.Documented) {W H : ℕ}
    (hfit : Fits W H neg.pixfmt.bytespp) (f : Frame) {x y w h : ℕ} (hx : x + w ≤ W)
    (hy : y + h ≤ H) : Carries env.lz4 neg x y w h
      (convertRows env.dither neg.pixfmt f x y w h)
      (rectMessage env neg f ⟨x, y, x + w, y + h⟩) := by
  set raw := convertRows env.dither neg.pixfmt f x y w h with hraw
  have hpix : rectPixels env neg f ⟨x, y, x + w, y + h⟩ = raw := by
    simp [rectPixels, hraw]
  have hlen : raw.length = h * (w * neg.pixfmt.bytespp) := length_convertRows ..
  have hsize : raw.length ≤ 0x7E000000 := by
    calc raw.length = w * h * neg.pixfmt.bytespp := by rw [hlen]; ring
      _ ≤ W * H * neg.pixfmt.bytespp :=
          Nat.mul_le_mul_right _ (Nat.mul_le_mul (by omega) (by omega))
      _ ≤ 0x7E000000 := hfit.size
  have hword : ∀ n, n ≤ 65535 → (UInt16.ofNat n).toNat = n := fun n hn => by
    rw [UInt16.toNat_ofNat']
    omega
  have hW := hfit.width
  have hH := hfit.height
  have hp := rectPayload_spec neg hz hsize
  have hle : (rectPayload env neg raw).2.length ≤ raw.length := by
    rcases hp with hp | ⟨-, out, hp, -, hlt, -⟩
    · rw [hp]
    · rw [hp]
      exact hlt.le
  refine ⟨rfl, ?_, ?_, ?_, ?_, ?_, hlen, ?_⟩
  · simpa [rectMessage] using hword x (by omega)
  · simpa [rectMessage] using hword y (by omega)
  · simpa [rectMessage] using hword w (by omega)
  · simpa [rectMessage] using hword h (by omega)
  · simp only [rectMessage, hpix]
    rw [UInt32.toNat_ofNat']
    omega
  · simp only [rectMessage, hpix]
    rcases hp with hp | ⟨hneg, out, hp, hpos, hlt, hdec⟩
    · rw [hp]
      exact .inl ⟨rfl, rfl⟩
    · rw [hp]
      exact .inr ⟨hneg, rfl, hpos, hlt, hdec⟩

lemma Carries.rectData {z : Lz4} {x y w h : ℕ} {raw : List UInt8} {m : FrameHdr × List UInt8}
    (hm : Carries z neg x y w h raw m) :
    Sremfb.rectData z neg.pixfmt.bytespp m.1 m.2 = some raw := by
  have hcap : m.1.w.toNat * m.1.h.toNat * neg.pixfmt.bytespp = raw.length := by
    rw [hm.hdr_w, hm.hdr_h, hm.raw_len]
    ring
  unfold Sremfb.rectData
  dsimp only
  rw [hcap]
  rcases hm.payload with ⟨he, hp⟩ | ⟨-, he, -, -, hd⟩
  · rw [if_pos he, hp]
    simp
  · rw [he, if_neg (by decide), if_pos rfl, hd]
    simp

/-- **A rectangle message carries its pixels.**  In a frame that fits, the message built for a
rectangle puts the converted pixels of exactly that rectangle. -/
lemma rect_rectMessage (hz : env.lz4.Documented) {W H : ℕ} (hfit : Fits W H neg.pixfmt.bytespp)
    {r : Rect} (hr : r.Inside W H) (f : Frame) (img : Image) (px py : ℕ) :
    img.rect env.lz4 neg.pixfmt.bytespp (rectMessage env neg f r).1 (rectMessage env neg f r).2
        px py =
      if r.Mem px py then convertPixel env.dither neg.pixfmt px py (f px py) else img px py := by
  obtain ⟨x, y, w, h, rfl, -, -, hx, hy⟩ := inside_nat hr
  have hm := rectMessage_carries hz hfit f hx hy
  rw [Image.rect, hm.rectData, hm.hdr_x, hm.hdr_y, hm.hdr_w, hm.hdr_h]
  dsimp only
  unfold Image.put
  by_cases hin : x ≤ px ∧ px < x + w ∧ y ≤ py ∧ py < y + h
  · have hmem : Rect.Mem ⟨x, y, x + w, y + h⟩ px py := by
      simp only [Rect.Mem]
      omega
    rw [if_pos hin, if_pos hmem,
      take_drop_convertRows env.dither neg.pixfmt f x y (by omega) (by omega),
      show x + (px - x) = px by omega, show y + (py - y) = py by omega]
  · have hmem : ¬Rect.Mem ⟨x, y, x + w, y + h⟩ px py := by
      simp only [Rect.Mem]
      omega
    rw [if_neg hin, if_neg hmem]

end Message

/-! ## The picture follows `shadowbuf` -/

namespace Tx

/-- The picture made from everything handed to the transmitter. -/
def picture (z : Lz4) (bpp : ℕ) (img : Image) (t : Tx) : Image := t.log.foldl (Sent.apply z bpp) img

/-- No episode was opened. -/
def RawOnly (t : Tx) : Prop := ∀ s, Sent.opened s ∉ t.log

/-- The picture is the conversion of `shadowbuf`. -/
def Shown (env : Env) (neg : Negotiated) (img : Image) (t : Tx) : Prop :=
  ∀ px py : ℕ, px < t.width → py < t.height →
    t.picture env.lz4 neg.pixfmt.bytespp img px py =
      convertPixel env.dither neg.pixfmt px py (t.shadowbuf px py)

/-- The invariant: coverage, and while no episode was opened the picture follows. -/
structure Converging (env : Env) (img : Image) (neg : Negotiated) (t : Tx) : Prop where
  covered : t.Covered
  raw : t.RawOnly → t.xmitMode = .raw
  shown : t.RawOnly → Fits t.width t.height neg.pixfmt.bytespp → t.Shown env neg img

section Actions

variable {env : Env} {neg : Negotiated} {R : Rules} {img : Image} {t t' : Tx}

/-- An action that logs no frame and leaves the mode and `shadowbuf` alone. -/
lemma Converging.aside (h : t.Converging env img neg) (hc : t'.Covered)
    (hlog : t'.log = t.log ∨ ∃ m, t'.log = t.log ++ [.ctrl m]) (hm : t'.xmitMode = t.xmitMode)
    (hs : t'.shadowbuf = t.shadowbuf) (hst : t.SameStream t') : t'.Converging env img neg := by
  have hpic : ∀ z bpp, t'.picture z bpp img = t.picture z bpp img := by
    intro z bpp
    obtain hl | ⟨m, hl⟩ := hlog
    · rw [picture, hl, picture]
    · rw [picture, hl, List.foldl_append, picture]
      rfl
  have hraw : t'.RawOnly → t.RawOnly := by
    intro h s hmem
    obtain hl | ⟨m, hl⟩ := hlog
    · exact h s (hl ▸ hmem)
    · exact h s (hl ▸ List.mem_append_left _ hmem)
  refine ⟨hc, fun hr => hm.trans (h.raw (hraw hr)), fun hr hf px py hx hy => ?_⟩
  rw [hst.width] at hf hx
  rw [hst.height] at hf hy
  rw [hpic, hs]
  exact h.shown (hraw hr) hf px py hx hy

/-- A rectangle was built: the picture and `shadowbuf` change alike. -/
lemma Converging.sentRect (hz : env.lz4.Documented) (h : t.Converging env img neg)
    (hb : t.bufs = true) (hm : t.xmitMode = .raw) (ds : List Rect) (a : Bool) (r : Rect)
    (hr : 0 < t.width → 0 < t.height → r.Inside t.width t.height)
    (hc : (builtRect env neg { t with dirty := ds, dirtyAll := a } r).Covered) :
    (builtRect env neg { t with dirty := ds, dirtyAll := a } r).Converging env img neg := by
  set m := rectMessage env neg t.grabbuf r
  have hup : (Tx.shadowUpdate { t with dirty := ds, dirtyAll := a } r) =
      { t with
        dirty := ds
        dirtyAll := a
        shadowbuf := fun x y => if r.Mem x y then t.grabbuf x y else t.shadowbuf x y } := by
    simp [Tx.shadowUpdate, hb]
  have hlog : (builtRect env neg { t with dirty := ds, dirtyAll := a } r).log =
      t.log ++ [.rect m.1 m.2] := by
    simp [Tx.builtRect, hup, Tx.frameStart, m]
  have hraw : (builtRect env neg { t with dirty := ds, dirtyAll := a } r).RawOnly → t.RawOnly :=
    fun h s hmem => h s (hlog ▸ List.mem_append_left _ hmem)
  refine ⟨hc, fun _ => ?_, fun hro hf px py hx hy => ?_⟩
  · simpa [Tx.builtRect, hup, Tx.frameStart] using hm
  · have hw : (builtRect env neg { t with dirty := ds, dirtyAll := a } r).width = t.width := by
      simp [Tx.builtRect, hup, Tx.frameStart]
    have hh : (builtRect env neg { t with dirty := ds, dirtyAll := a } r).height = t.height := by
      simp [Tx.builtRect, hup, Tx.frameStart]
    have hsh : (builtRect env neg { t with dirty := ds, dirtyAll := a } r).shadowbuf px py =
        if r.Mem px py then t.grabbuf px py else t.shadowbuf px py := by
      simp [Tx.builtRect, hup, Tx.frameStart]
    rw [hw] at hf hx
    rw [hh] at hf hy
    have hin := hr (by omega) (by omega)
    rw [picture, hlog, List.foldl_append, hsh]
    have := rect_rectMessage hz hf hin t.grabbuf (t.picture env.lz4 neg.pixfmt.bytespp img) px py
    refine this.trans ?_
    split
    · rfl
    · exact h.shown (hraw hro) hf px py hx hy

/-- In an episode there is nothing to show. -/
lemma Converging.episode (h : t.Converging env img neg) (hm : t.xmitMode = .h264)
    (hx : t.Extends t') (hc : t'.Covered) : t'.Converging env img neg := by
  obtain ⟨new, hlog, -⟩ := hx
  have hno : ¬t'.RawOnly := by
    intro hr
    have hraw := h.raw fun s hs => hr s (hlog ▸ List.mem_append_left _ hs)
    rw [hm] at hraw
    cases hraw
  exact ⟨hc, fun hr => absurd hr hno, fun hr => absurd hr hno⟩

lemma Converging.act (hz : env.lz4.Documented)
    (hR : ∀ t grab rects, R.damage t grab rects → t.HonestDamage grab rects)
    (h : TxAct env neg R t t') (hc : t.Converging env img neg) : t'.Converging env img neg := by
  have hcov := hc.covered.act hR h
  have hst := h.sameStream
  have hx := extends_act h
  cases h with
  | ctrl m =>
      obtain ⟨-, h⟩ | ⟨-, -, w, h⟩ := t.xmitCtrl_cases m
      · rw [h]
        exact hc
      · rw [h] at hcov hst ⊢
        exact hc.aside hcov (.inr ⟨m, rfl⟩) rfl rfl hst
  | damage grab rects =>
      obtain ⟨ds, a, h⟩ := damageRects_eq neg.pixfmt.bytespp { t with grabbuf := grab } rects
      rw [h] at hcov hst ⊢
      exact hc.aside hcov (.inl rfl) rfl rfl hst
  | aux | lose | repaint | sendFrame | frameDone | sendHead | popHead =>
      exact hc.aside hcov (.inl rfl) rfl rfl hst
  | snapshot hr hm =>
      refine hc.sentRect hz hr.bufs hm [] false _ (fun hw hh => ?_) hcov
      exact Rect.inside_full (by omega) (by omega)
  | rect r ds hr hm ha hd =>
      refine hc.sentRect hz hr.bufs hm ds t.dirtyAll r (fun _ _ => ?_) hcov
      exact hc.covered.inside r (by simp [hd])
  | encodeAu nal idr hn hr hm => exact hc.episode hm hx hcov
  | encodeNothing _ hr hm => exact hc.episode hm hx hcov

/-- **Every action keeps the picture in step with `shadowbuf`.** -/
lemma Converging.step (hz : env.lz4.Documented)
    (hR : ∀ t grab rects, R.damage t grab rects → t.HonestDamage grab rects)
    (h : TxStep env neg R t t') (hc : t.Converging env img neg) : t'.Converging env img neg := by
  have hcov := hc.covered.step hR h
  have hx := extends_step h
  cases h with
  | act h => exact hc.act hz hR h
  | leave hs hm => exact hc.episode hm hx hcov
  | encodeFail _ hr hm => exact hc.episode hm hx hcov
  | enter now =>
      have hno : ¬(t.enterH264 now).RawOnly := by
        intro hr
        exact hr now (by simp [enterH264_eq])
      exact ⟨hcov, fun hr => absurd hr hno, fun hr => absurd hr hno⟩

end Actions

/-! ## What has arrived -/

/-- The messages that are whole within the first `n` bytes. -/
def wholeMsgs : List Sent → ℕ → List Sent
  | [], _ => []
  | m :: ms, n => if m.bytes.length ≤ n then m :: wholeMsgs ms (n - m.bytes.length) else []

/-- The messages that are whole on the wire. -/
def delivered (t : Tx) : List Sent := wholeMsgs t.msgs t.wire.length

lemma wholeMsgs_append (done rest : List Sent) (n : ℕ) :
    wholeMsgs (done ++ rest) ((done.flatMap Sent.bytes).length + n) =
      done ++ wholeMsgs rest n := by
  induction done with
  | nil => simp
  | cons m done ih =>
      rw [List.cons_append, wholeMsgs, List.flatMap_cons, List.length_append,
        if_pos (by omega), List.cons_append, ← ih]
      congr 2
      omega

lemma wholeMsgs_sublist (ms : List Sent) (n : ℕ) : (wholeMsgs ms n).Sublist ms := by
  induction ms generalizing n with
  | nil => exact .slnil
  | cons m ms ih =>
      rw [wholeMsgs]
      split
      · exact (ih _).cons_cons m
      · exact List.nil_sublist _

lemma foldl_apply_ctrl (z : Lz4) (bpp : ℕ) {ms : List Sent} (img : Image)
    (h : ∀ m ∈ ms, ∃ b, m = .ctrl b) : ms.foldl (Sent.apply z bpp) img = img := by
  induction ms with
  | nil => rfl
  | cons m ms ih =>
      obtain ⟨b, rfl⟩ := h m (List.mem_cons_self ..)
      exact ih fun m hm => h m (List.mem_cons_of_mem _ hm)

lemma foldl_apply_msgs (z : Lz4) (bpp : ℕ) (log : List Sent) (img : Image) :
    (log.filter Sent.isMsg).foldl (Sent.apply z bpp) img = log.foldl (Sent.apply z bpp) img := by
  induction log generalizing img with
  | nil => rfl
  | cons m log ih =>
      cases m with
      | opened s => exact ih img
      | ctrl b => exact ih img
      | rect hdr p => exact ih _
      | au hdr p f => exact ih img

lemma picture_eq_msgs (z : Lz4) (bpp : ℕ) (img : Image) (t : Tx) :
    t.picture z bpp img = t.msgs.foldl (Sent.apply z bpp) img :=
  (foldl_apply_msgs z bpp t.log img).symm

/-- With no frame in flight, all frames have arrived. -/
lemma Framed.picture_delivered {t : Tx} (h : t.Framed t.msgs) (ha : t.outActive = false)
    (z : Lz4) (bpp : ℕ) (img : Image) :
    t.delivered.foldl (Sent.apply z bpp) img = t.picture z bpp img := by
  obtain ⟨done, hm, hw⟩ := h.outbox.split
  have hcur : t.outbox.cur = none := by simp [Tx.outbox, ha]
  rw [hcur, Option.toList_none, List.nil_append] at hm
  have hctrl : ∀ m ∈ t.outbox.queue, ∃ b, m = .ctrl b := by
    intro m hm
    obtain ⟨b, -, rfl⟩ := List.mem_map.mp hm
    exact ⟨b, rfl⟩
  have hlen : t.wire.length =
      (done.flatMap Sent.bytes).length + (t.outbox.started Sent.bytes).length := by
    rw [← List.length_append, ← hw]
    rfl
  rw [delivered, hlen, hm, wholeMsgs_append, List.foldl_append,
    foldl_apply_ctrl z bpp _ fun m hm => hctrl m ((wholeMsgs_sublist _ _).subset hm),
    picture_eq_msgs, hm, List.foldl_append, foldl_apply_ctrl z bpp _ hctrl]

/-! ## Whole runs -/

/-- The start: nothing sent, nothing pending, in RAW mode, `grabbuf` as the client has it. -/
structure Settled (t : Tx) : Prop extends t.Unsent where
  clean : t.dirty = [] ∧ t.dirtyAll = false
  raw : t.xmitMode = .raw
  same : ∀ x y, (Rect.full t.width t.height).Mem x y → t.grabbuf x y = t.shadowbuf x y

lemma Settled.covered {t : Tx} (h : t.Settled) : t.Covered := by
  refine ⟨⟨by simp [h.clean.1], by simp [h.clean.1]⟩, fun x y hs => ?_⟩
  exact absurd (h.same x y hs.1) hs.2

lemma Settled.converging {t : Tx} {env : Env} {neg : Negotiated} {img : Image} (h : t.Settled)
    (himg : ∀ px py : ℕ, px < t.width → py < t.height →
      img px py = convertPixel env.dither neg.pixfmt px py (t.shadowbuf px py)) :
    t.Converging env img neg := by
  refine ⟨h.covered, fun _ => h.raw, fun _ _ px py hx hy => ?_⟩
  have hctrl : ∀ m ∈ t.msgs, ∃ b, m = .ctrl b := by
    rw [h.msgs]
    intro m hm
    obtain ⟨b, -, rfl⟩ := List.mem_map.mp hm
    exact ⟨b, rfl⟩
  rw [picture_eq_msgs, foldl_apply_ctrl _ _ _ hctrl]
  exact himg px py hx hy

end Tx

section Runs

variable [CDouble D]

/-- The source reports honestly, and nothing resets the transmitter. -/
def Honest (c : Client D) : Event → Prop
  | .damage grab rects => c.tx.HonestDamage grab rects
  | .modeChanged .. => False
  | _ => True

/-- The rules of an honest source. -/
def honestRules : Rules := { damage := Tx.HonestDamage }

lemma Honest.admits (env : Env) {c : Client D} {ev : Event} (h : Honest c ev) :
    honestRules.Admits env c ev := by
  cases ev with
  | damage => exact h
  | modeChanged => exact h.elim
  | outReady => exact fun k hk => ⟨fun _ => trivial, fun _ _ => trivial⟩
  | pingTick => exact fun t => trivial
  | repaint => exact ⟨trivial, trivial⟩
  | _ => exact trivial

/-- **Coverage and convergence.**  From a settled start, in every run with an honest source and
no reset: the region is at most sixteen non-empty rectangles inside the frame, and every pixel
where `grabbuf` differs from `shadowbuf` is pending.  And if the frame fits and no episode was
opened, then whenever nothing is pending or in flight, a client that started with the
conversion of `shadowbuf` has made, from the messages that are whole on the wire, exactly the
conversion of the whole `grabbuf`. -/
theorem covered_and_convergent (env : Env) (hz : env.lz4.Documented) {c : Client D} (img : Image)
    (es : List Event) (h₀ : c.tx.Settled)
    (himg : ∀ px py : ℕ, px < c.tx.width → py < c.tx.height → img px py =
      convertPixel env.dither c.neg.pixfmt px py (c.tx.shadowbuf px py))
    (hes : Along Honest (step env) c es) :
    let t := (run (step env) c es).tx
    let fmt := c.neg.pixfmt
    (t.dirty.length ≤ 16 ∧ (∀ r ∈ t.dirty, r.Inside t.width t.height) ∧
      ∀ x y, (Rect.full t.width t.height).Mem x y → t.grabbuf x y ≠ t.shadowbuf x y →
        t.dirtyAll = true ∨ ∃ r ∈ t.dirty, r.Mem x y) ∧
    (Fits c.tx.width c.tx.height fmt.bytespp → (∀ s, Sent.opened s ∉ t.log) →
      t.dirty = [] → t.dirtyAll = false → t.outActive = false →
      ∀ px py : ℕ, px < t.width → py < t.height →
        t.delivered.foldl (Sent.apply env.lz4 fmt.bytespp) img px py =
          ((convertRows env.dither fmt t.grabbuf 0 0 t.width t.height).drop
            ((py * t.width + px) * fmt.bytespp)).take fmt.bytespp) := by
  have hstep : ∀ {neg t t'}, TxStep env neg honestRules t t' →
      t.Converging env img neg ∧ t.Framed t.msgs ∧ t.width = c.tx.width ∧
        t.height = c.tx.height →
      t'.Converging env img neg ∧ t'.Framed t'.msgs ∧ t'.width = c.tx.width ∧
        t'.height = c.tx.height := by
    rintro neg t t' hstep ⟨hcv, hframed, hw, hh⟩
    have hst := hstep.sameStream
    exact ⟨hcv.step hz (fun _ _ _ h => h) hstep, ((Tx.extends_step hstep).msgs hframed).1,
      hst.width.trans hw, hst.height.trans hh⟩
  obtain ⟨-, hcv, hframed, hw, hh⟩ := run_txInvariant hstep
    ⟨h₀.converging himg, h₀.framed rfl, rfl, rfl⟩ (hes.mono fun _ _ h => h.admits env)
  intro t fmt
  refine ⟨⟨hcv.covered.count, hcv.covered.inside, fun x y hm hne =>
    hcv.covered.stale x y ⟨hm, hne⟩⟩, fun hfit hraw hd ha hact px py hx hy => ?_⟩
  have hsame : ∀ x y, (Rect.full t.width t.height).Mem x y →
      t.grabbuf x y = t.shadowbuf x y := by
    intro x y hm
    by_contra hne
    rcases hcv.covered.stale x y ⟨hm, hne⟩ with hall | ⟨r, hr, -⟩
    · simp [t, ha] at hall
    · simp [t, hd] at hr
  rw [hframed.picture_delivered hact, take_drop_convertRows _ _ _ 0 0 hx hy,
    hcv.shown hraw (hw.symm ▸ hh.symm ▸ hfit) px py hx hy]
  rw [Nat.zero_add, Nat.zero_add, hsame px py (Rect.mem_full.mpr (by omega))]

end Runs

/-- Two white pixels on a black client. -/
theorem covered_and_convergent_tiny :
    let t := (run (step Env.willing) (Client.tiny Env.willing) [.outReady false,
      .damage (fun _ _ => 0xFFFFFF) [⟨0, 0, 2, 1⟩], .outReady false, .outReady false]).tx
    ∀ px py : ℕ, px < t.width → py < t.height →
      t.delivered.foldl (Sent.apply Env.willing.lz4 2)
          (fun px py => convertPixel true .rgb565 px py 0) px py =
        ((convertRows true .rgb565 t.grabbuf 0 0 t.width t.height).drop
          ((py * t.width + px) * 2)).take 2 := by
  intro t
  have hlog : t.log.all Sent.isMsg = true := by decide +kernel
  have h := covered_and_convergent Env.willing Lz4.literal_documented
    (c := Client.tiny Env.willing) (fun px py => convertPixel true .rgb565 px py 0)
    [.outReady false, .damage (fun _ _ => 0xFFFFFF) [⟨0, 0, 2, 1⟩], .outReady false,
      .outReady false]
    ⟨⟨rfl, rfl, rfl, rfl⟩, ⟨rfl, rfl⟩, rfl, fun _ _ _ => rfl⟩ (fun _ _ _ _ => rfl)
    ⟨trivial, fun x y hm _ => ⟨⟨0, 0, 2, 1⟩, List.mem_singleton.mpr rfl, hm⟩, trivial, trivial,
      trivial⟩
  refine h.2 ⟨by decide, by decide, by decide⟩ (fun s hs => ?_) (by decide +kernel)
    (by decide +kernel) (by decide +kernel)
  exact absurd (List.all_eq_true.mp hlog _ hs) (by simp [Sent.isMsg])

/-! ## Beyond LZ4's range

A frame of 32768 by 32768 XRGB8888 pixels has `2 ^ 32` bytes, which is `0` as an `int`.  LZ4
then compresses zero bytes, successfully and to less than the size of the rectangle, and the
client gets a message without pixels. -/

section Huge

lemma Tx.rowSame_eq_false {t : Tx} {r : Rect} {x y : ℤ} (hx : r.x1 ≤ x) (hx' : x < r.x2)
    (hne : t.grabbuf x y ≠ t.shadowbuf x y) : t.rowSame r y = false := by
  by_contra h
  exact hne (eq_of_rowSame (by simpa using h) hx hx')

/-- A rectangle whose first and last rows differ is not trimmed. -/
lemma Tx.rectTrim_eq_self {t : Tx} {r : Rect} (hy : r.y1 < r.y2)
    (h₁ : t.rowSame r r.y1 = false) (h₂ : t.rowSame r (r.y2 - 1) = false) :
    t.rectTrim r = r := by
  unfold rectTrim
  split
  · rfl
  · obtain ⟨n, hn⟩ : ∃ n, (r.y2 - r.y1).toNat = n + 1 := ⟨(r.y2 - r.y1).toNat - 1, by omega⟩
    have ht : trimTop (t.rowSame r) (r.y2 - r.y1).toNat r.y1 = r.y1 := by
      rw [hn, trimTop, if_neg (by simp [h₁])]
    have hb : trimBottom (t.rowSame r) (r.y2 - r.y1).toNat r.y2 = r.y2 := by
      rw [hn, trimBottom, if_neg (by simp [h₂])]
    simp only [ht, hb]

lemma step_damage_of_watched [CDouble D] {env : Env} {c : Client D} {grab : Frame}
    {rects : List Rect} {t : Tx} {raw : ℕ} (hs : c.tx.state = .streaming) (hfd : c.tx.fd = true)
    (hfb : c.neg.feedback = false)
    (hd : Tx.damageRects c.neg.pixfmt.bytespp { c.tx with grabbuf := grab } rects = (t, raw))
    (hraw : raw ≠ 0) (ht : t.outWatch = true) :
    step env c (.damage grab rects) = { c with tx := t } := by
  have hstep : step env c (.damage grab rects) =
      xmitDamage env { c with tx := { c.tx with grabbuf := grab } } rects := if_pos ⟨hs, hfd⟩
  rw [hstep]
  unfold xmitDamage
  simp only [hd, if_neg hraw, hfb, Bool.false_eq_true, if_false]
  rw [show t.xmitKick = t by simp [Tx.xmitKick, ht]]

lemma step_outReady [CDouble D] {env : Env} {c : Client D} (err : Bool)
    (hw : c.tx.outWatch = true) : step env c (.outReady err) = onOutReady env err c := if_pos hw

lemma buildNext_rect [CDouble D] {env : Env} {c d : Client D} {r : Rect} {ds : List Rect}
    (hs : c.tx.state = .streaming) (hb : c.tx.bufs = true) (hm : c.tx.xmitMode = .raw)
    (ha : c.tx.dirtyAll = false) (hd : c.tx.dirty = r :: ds)
    (hbd : buildRawRect env { c with tx := { c.tx with dirty := ds } } r = d) :
    buildNext env c = (d, d.tx.outActive) := by
  unfold buildNext
  rw [if_neg (by simp [hs, hb])]
  split <;> rename_i hm'
  · simp [hm] at hm'
  · rw [if_neg (by simp [ha])]
    split <;> rename_i hd'
    · simp [hd] at hd'
    · rw [hd] at hd'
      obtain ⟨rfl, rfl⟩ := List.cons.inj hd'
      subst hbd
      rfl

/-- A hello that `hello_valid` accepts. -/
def Negotiated.huge : Negotiated where
  xres := 32768
  yres := 32768
  pixfmt := .xrgb8888
  lz4 := true
  feedback := false
  h264Cap := false

def Client.huge : Client ℚ := kvmAcquire Env.willing (Client.fresh .huge) 32768 32768 0 0

def hugeRect : Rect := ⟨0, 0, 32768, 32768⟩

/-- The header of the message that lost its pixels. -/
def hugeHdr : FrameHdr :=
  { encoding := Encoding.lz4.code, w := 32768, h := 32768, payloadLen := 1 }

lemma rectMessage_huge (f : Frame) :
    rectMessage Env.willing .huge f hugeRect = (hugeHdr, [0]) := by
  have hlen : (rectPixels Env.willing .huge f hugeRect).length = 2 ^ 32 := by
    unfold rectPixels
    rw [length_convertRows]
    decide
  have hint : intOfSize (2 ^ 32) = 0 := by decide
  have hp : rectPayload Env.willing .huge (rectPixels Env.willing .huge f hugeRect) =
      (.lz4, [0]) := by
    unfold rectPayload
    simp only [hlen, hint]
    simp [Negotiated.huge, Env.willing, Lz4.literal, Lz4.literalBlock, lz4CompressBound,
      lz4MaxInputSize]
  unfold rectMessage
  rw [hp]
  decide

/-- The client after the whole frame was damaged. -/
def hugeDamaged : Client ℚ :=
  { Client.huge with
    tx := { Client.huge.tx with grabbuf := fun _ _ => 1, dirty := [hugeRect] } }

/-- The hello is out. -/
def hugeGreeted : Client ℚ :=
  { hugeDamaged with
    tx := { hugeDamaged.tx with outq := [], wire := Client.huge.tx.outq.flatten }
    tick := hugeDamaged.tick + 1 }

/-- The rectangle is built. -/
def hugeBuilt : Client ℚ :=
  { hugeGreeted with
    tx := { hugeGreeted.tx with
      dirty := []
      shadowbuf := fun x y => if hugeRect.Mem x y then 1 else 0
      sendbuf := hugeHdr.bytes ++ [0]
      segLen0 := 21
      segLen1 := 0
      outOff := 0
      outActive := true
      wireTotal := 21
      log := hugeGreeted.tx.log ++ [.rect hugeHdr [0]] } }

/-- It is out. -/
def hugeSent : Client ℚ :=
  { hugeBuilt with
    tx := { hugeBuilt.tx with
      wire := hugeGreeted.tx.wire ++ (hugeHdr.bytes ++ [0])
      outActive := false }
    tick := hugeBuilt.tick + 1 }

lemma step_huge_damage :
    step Env.willing Client.huge (.damage (fun _ _ => 1) [hugeRect]) = hugeDamaged := by
  have htrim : Tx.rectTrim { Client.huge.tx with grabbuf := fun _ _ => 1 } hugeRect = hugeRect := by
    refine Tx.rectTrim_eq_self (by decide)
      (Tx.rowSame_eq_false (x := 0) (by decide) (by decide) ?_)
      (Tx.rowSame_eq_false (x := 0) (by decide) (by decide) ?_)
    · decide
    · decide
  have hclamp : Tx.clampRect { Client.huge.tx with grabbuf := fun _ _ => 1 } hugeRect =
      hugeRect := by decide
  have hd : Tx.damageRects 4 { Client.huge.tx with grabbuf := fun _ _ => 1 } [hugeRect] =
      (hugeDamaged.tx, 32768 * 32768 * 4) := by
    simp only [Tx.damageRects, List.foldl_cons, List.foldl_nil, Tx.damageRect, hclamp, htrim]
    rfl
  exact step_damage_of_watched rfl rfl rfl hd (by decide) rfl

lemma step_huge_build : step Env.willing hugeDamaged (.outReady false) = hugeBuilt := by
  have h₁ : drainFrame Env.willing hugeDamaged = (hugeDamaged, .done) := rfl
  have h₂ : drainQueue Env.willing hugeDamaged.tx.outq hugeDamaged = (hugeGreeted, .done) := rfl
  have hr : buildRawRect Env.willing
      { hugeGreeted with tx := { hugeGreeted.tx with dirty := [] } } hugeRect = hugeBuilt := by
    unfold buildRawRect
    rw [show hugeGreeted.neg = .huge from rfl, rectMessage_huge]
    rfl
  have h₃ : buildNext Env.willing hugeGreeted = (hugeBuilt, true) :=
    buildNext_rect rfl rfl rfl rfl rfl hr
  rw [step_outReady _ rfl]
  unfold onOutReady
  simp only [h₁, h₂, h₃, Bool.false_eq_true, if_false]

lemma step_huge_send : step Env.willing hugeBuilt (.outReady false) =
    { hugeSent with tx := { hugeSent.tx with outWatch := false } } := by
  have h₁ : drainFrame Env.willing hugeBuilt = (hugeSent, .done) := rfl
  have h₂ : drainQueue Env.willing hugeSent.tx.outq hugeSent = (hugeSent, .done) := rfl
  have h₃ : buildNext Env.willing hugeSent = (hugeSent, false) := rfl
  rw [step_outReady _ rfl]
  unfold onOutReady
  simp only [h₁, h₂, h₃, Bool.false_eq_true, if_false]

/-- **A frame of `2 ^ 32` bytes does not converge.**  The run is honest and ends with nothing
pending and nothing in flight, and the client's first pixel is not the one of `grabbuf`. -/
theorem not_convergent_of_huge_frame :
    let es : List Event :=
      [.damage (fun _ _ => 1) [hugeRect], .outReady false, .outReady false]
    let t := (run (step Env.willing) Client.huge es).tx
    let black : Image := fun px py => convertPixel true .xrgb8888 px py 0
    Client.huge.tx.Settled ∧ Along Honest (step Env.willing) Client.huge es ∧
      (∀ px py : ℕ, black px py =
        convertPixel true .xrgb8888 px py (Client.huge.tx.shadowbuf px py)) ∧
      (∀ s, Sent.opened s ∉ t.log) ∧ t.dirty = [] ∧ t.dirtyAll = false ∧ t.outActive = false ∧
      t.delivered.foldl (Sent.apply Env.willing.lz4 4) black 0 0 ≠
        ((convertRows true .xrgb8888 t.grabbuf 0 0 t.width t.height).drop
          ((0 * t.width + 0) * 4)).take 4 := by
  intro es t black
  have ht : t = { hugeSent.tx with outWatch := false } := by
    have hrun : run (step Env.willing) Client.huge es =
        { hugeSent with tx := { hugeSent.tx with outWatch := false } } := by
      rw [run_cons, run_cons, run_cons, run_nil, step_huge_damage, step_huge_build,
        step_huge_send]
    exact congrArg Client.tx hrun
  have hlog : t.log.all Sent.isMsg = true := by
    rw [ht]
    rfl
  refine ⟨⟨⟨rfl, rfl, rfl, rfl⟩, ⟨rfl, rfl⟩, rfl, fun _ _ _ => rfl⟩, ⟨?_, trivial, trivial, trivial⟩,
    fun _ _ => rfl, fun s hs => ?_, by rw [ht]; rfl, by rw [ht]; rfl, by rw [ht]; rfl, ?_⟩
  · exact fun x y hm _ => ⟨hugeRect, List.mem_singleton.mpr rfl, hm⟩
  · exact absurd (List.all_eq_true.mp hlog _ hs) (by simp [Sent.isMsg])
  · have hw : 0 < t.width := by rw [ht]; decide
    have hh : 0 < t.height := by rw [ht]; decide
    have hcell := take_drop_convertRows true .xrgb8888 t.grabbuf 0 0 hw hh
    rw [show PixFmt.xrgb8888.bytespp = 4 from rfl] at hcell
    rw [hcell, ht]
    decide +kernel

end Huge

end Sremfb
