import Sremfb.Agreement
import Sremfb.Server.FirstPaint

/-!
# What the viewer shows is the desktop

Convergence was proved for a connection that stays in RAW mode.  Here the controller may switch to
H.264 and back as often as it likes.  An episode leaves the client with whatever its decoder made
of it; what repairs the picture is `leave_h264`, which marks the whole frame before the first RAW
message, so that in RAW mode a pixel that is not pending has been sent since the last episode.

A receiver enters as a relation (`Drawing`): what reading a message may make of its picture.  Of
this relation only `Drawing.Faithful` is used: rectangles put their pixels, the control messages of
a running stream put nothing.  Access units and EOS may draw anything.  `Repainted` is the
invariant, for all pictures the messages so far can have led to.

The viewer is such a receiver (`ViewStream.faithful`).  With the framing of the wire and with
`View.accepts`, which says that no message is refused, this gives the statement about both
programs: once everything is on the wire and nothing is pending, a viewer that reads it message
by message ends with the desktop in its framebuffer (`viewer_shows_desktop`).
-/

namespace Sremfb

open Lib Relation

variable {T : Type}

/-! ## Receivers -/

/-- What reading a message may make of a receiver's picture. -/
abbrev Drawing := List UInt8 → Image → Image → Prop

namespace Drawing

/-- The pictures that reading a list of messages may lead to. -/
def Leads (D : Drawing) : List Sent → Image → Image → Prop
  | [], img, img' => img' = img
  | e :: ms, img, img' => ∃ mid, D e.bytes img mid ∧ Leads D ms mid img'

lemma leads_concat {D : Drawing} {ms : List Sent} {e : Sent} {img img' : Image} :
    D.Leads (ms ++ [e]) img img' ↔ ∃ mid, D.Leads ms img mid ∧ D e.bytes mid img' := by
  induction ms generalizing img with
  | nil => simp [Leads]
  | cons d ms ih =>
      simp only [List.cons_append, Leads, ih]
      constructor
      · rintro ⟨mid, hd, mid', hl, he⟩
        exact ⟨mid', ⟨mid, hd, hl⟩, he⟩
      · rintro ⟨mid', ⟨mid, hd, hl⟩, he⟩
        exact ⟨mid, hd, mid', hl, he⟩

/-- On the pixels of `P`, all of them in the frame, rectangles put their pixels and the control
messages of a running stream nothing. -/
structure Faithful (env : Env) (neg : Negotiated) (w h : ℕ) (P : ℕ → ℕ → Prop) (D : Drawing) :
    Prop where
  frame : ∀ {px py}, P px py → px < w ∧ py < h
  rect : ∀ {f r img img'}, r.Inside w h → D (Message.bytes env neg w h (.rect f r)) img img' →
    Image.AgreeOn P img' (img.paint env.dither neg.pixfmt f r)
  ctrl : ∀ {m img img'}, IsStreamCtrl m → D m img img' → Image.AgreeOn P img' img

end Drawing

/-! ## In RAW mode, what is not pending is shown -/

namespace Tx

/-- Outside the region the picture is the conversion of `shadowbuf`. -/
def ShownOn (env : Env) (neg : Negotiated) (P : ℕ → ℕ → Prop) (img : Image) (t : Tx) : Prop :=
  ∀ px py : ℕ, P px py → ¬t.InRegion px py →
    img px py = convertPixel env.dither neg.pixfmt px py (t.shadowbuf px py)

/-- The invariant, for the messages behind `old` and a receiver that started with `img₀`. -/
structure Repainted (env : Env) (P : ℕ → ℕ → Prop) (D : Drawing) (old : List Sent) (img₀ : Image)
    (neg : Negotiated) (t : Tx) : Prop where
  covered : t.Covered
  shown : ∃ new, t.msgs = old ++ new ∧
    (t.xmitMode = .raw → ∀ img, D.Leads new img₀ img → t.ShownOn env neg P img)

section Actions

variable {env : Env} {neg : Negotiated} {R : Rules} {P : ℕ → ℕ → Prop} {D : Drawing}
  {old : List Sent} {img₀ : Image} {t t' : Tx}

/-- An action that shows nothing: at most a control message, and the region only grows. -/
lemma Repainted.aside (hD : D.Faithful env neg t.width t.height P)
    (h : t.Repainted env P D old img₀ neg) (hc : t'.Covered)
    (hlog : t'.msgs = t.msgs ∨ ∃ m, IsStreamCtrl m ∧ t'.msgs = t.msgs ++ [.ctrl m])
    (hm : t'.xmitMode = t.xmitMode) (hs : t'.shadowbuf = t.shadowbuf)
    (hr : ∀ x y, t.InRegion x y → t'.InRegion x y) : t'.Repainted env P D old img₀ neg := by
  obtain ⟨new, hnew, hshown⟩ := h.shown
  have hkeep : t.xmitMode = .raw → ∀ img, D.Leads new img₀ img → t'.ShownOn env neg P img := by
    intro hraw img hl px py hp hn
    rw [hs]
    exact hshown hraw img hl px py hp fun hin => hn (hr px py hin)
  obtain hl | ⟨m, hctrl, hl⟩ := hlog
  · exact ⟨hc, new, hl.trans hnew, fun hraw => hkeep (hm ▸ hraw)⟩
  · refine ⟨hc, new ++ [.ctrl m], by rw [hl, hnew, List.append_assoc], fun hraw img hl => ?_⟩
    obtain ⟨mid, hmid, hd⟩ := Drawing.leads_concat.mp hl
    intro px py hp hn
    rw [hD.ctrl hctrl hd px py hp]
    exact hkeep (hm ▸ hraw) mid hmid px py hp hn

/-- A rectangle was built: what it covers is shown by its own pixels, the rest as before. -/
lemma Repainted.sentRect (hD : D.Faithful env neg t.width t.height P)
    (h : t.Repainted env P D old img₀ neg) (hb : t.bufs = true) (hm : t.xmitMode = .raw)
    {ds : List Rect} {a : Bool} {r : Rect} (hr : r.Inside t.width t.height)
    (hreg : ∀ x y, (Rect.full t.width t.height).Mem x y → t.InRegion x y → ¬r.Mem x y →
      InRegion { t with dirty := ds, dirtyAll := a } x y)
    (hc : (builtRect env neg { t with dirty := ds, dirtyAll := a } r).Covered) :
    (builtRect env neg { t with dirty := ds, dirtyAll := a } r).Repainted env P D old img₀ neg := by
  obtain ⟨new, hnew, hshown⟩ := h.shown
  set m := rectMessage env neg t.grabbuf r with hmsg
  have hup : Tx.shadowUpdate { t with dirty := ds, dirtyAll := a } r =
      { t with
        dirty := ds
        dirtyAll := a
        shadowbuf := fun x y => if r.Mem x y then t.grabbuf x y else t.shadowbuf x y } := by
    simp [Tx.shadowUpdate, hb]
  have hmsgs : (builtRect env neg { t with dirty := ds, dirtyAll := a } r).msgs =
      t.msgs ++ [.rect m.1 m.2] := by
    simp [msgs, Sent.isMsg, hmsg]
  refine ⟨hc, new ++ [.rect m.1 m.2], by rw [hmsgs, hnew, List.append_assoc], fun _ img hl => ?_⟩
  obtain ⟨mid, hmid, hd⟩ := Drawing.leads_concat.mp hl
  intro px py hp hn
  have hsh : (builtRect env neg { t with dirty := ds, dirtyAll := a } r).shadowbuf px py =
      if r.Mem px py then t.grabbuf px py else t.shadowbuf px py := by
    simp [builtRect, hup, frameStart]
  have hn' : ¬InRegion { t with dirty := ds, dirtyAll := a } px py := by
    simpa [InRegion, builtRect, hup, frameStart] using hn
  have hf : (Rect.full t.width t.height).Mem px py := by
    have := hD.frame hp
    exact Rect.mem_full.mpr (by omega)
  rw [hD.rect hr hd px py hp, hsh, Image.paint]
  by_cases hin : r.Mem px py
  · rw [if_pos hin, if_pos hin]
  · rw [if_neg hin, if_neg hin]
    exact hshown hm mid hmid px py hp fun h => hn' (hreg px py hf h hin)

/-- In an episode, and with the whole frame marked, nothing has to be shown. -/
lemma Repainted.owing (h : t.Repainted env P D old img₀ neg) (hx : t.Extends t')
    (hc : t'.Covered) (ho : t'.xmitMode = .h264 ∨ t'.dirtyAll = true) :
    t'.Repainted env P D old img₀ neg := by
  obtain ⟨new, hnew, -⟩ := h.shown
  obtain ⟨more, hlog, -⟩ := hx
  have hmsgs : t'.msgs = t.msgs ++ more.filter Sent.isMsg := by
    rw [msgs, hlog, List.filter_append, msgs]
  refine ⟨hc, new ++ more.filter Sent.isMsg, by rw [hmsgs, hnew, List.append_assoc],
    fun hraw img _ px py _ hn => ?_⟩
  rcases ho with hmode | hall
  · rw [hmode] at hraw
    cases hraw
  · exact absurd (.inl hall) hn

/-- Leaving an episode marks the whole frame. -/
lemma leaveH264_dirtyAll (t : Tx) : t.leaveH264.dirtyAll = true := by
  obtain ⟨-, h⟩ | ⟨-, -, w, h⟩ := t.leaveH264_cases
  · rw [h]
  · rw [h]

lemma Repainted.act (hctrl : ∀ m, R.ctrl m → IsStreamCtrl m)
    (hR : ∀ t grab rects, R.damage t grab rects → t.HonestDamage grab rects)
    (hw : 0 < t.width) (hh : 0 < t.height) (hD : D.Faithful env neg t.width t.height P)
    (h : TxAct env neg R t t') (hc : t.Repainted env P D old img₀ neg) :
    t'.Repainted env P D old img₀ neg := by
  have hcov := hc.covered.act hR h
  have hx := extends_act h
  have hmode := h.xmitMode
  cases h with
  | ctrl m hm =>
      obtain ⟨-, h⟩ | ⟨-, -, w, h⟩ := t.xmitCtrl_cases m
      · rw [h]
        exact hc
      · rw [h] at hcov ⊢
        exact hc.aside hD hcov (.inr ⟨m, hctrl m hm, by simp [msgs, Sent.isMsg]⟩) rfl rfl
          fun _ _ => id
  | damage grab rects =>
      obtain ⟨-, hmem⟩ := foldl_damageRect_spec (t := { t with grabbuf := grab })
        neg.pixfmt.bytespp rects 0 ⟨hc.covered.count, hc.covered.inside⟩
      have hgrow : ∀ x y, t.InRegion x y → InRegion
          ({ t with grabbuf := grab }.damageRects neg.pixfmt.bytespp rects).1 x y :=
        fun x y hin => hmem x y (.inl hin)
      obtain ⟨ds, a, h⟩ := damageRects_eq neg.pixfmt.bytespp { t with grabbuf := grab } rects
      rw [h] at hcov hgrow ⊢
      exact hc.aside hD hcov (.inl rfl) rfl rfl hgrow
  | repaint => exact hc.owing hx hcov (.inr rfl)
  | aux | lose | sendFrame | frameDone | sendHead | popHead =>
      exact hc.aside hD hcov (.inl rfl) rfl rfl fun _ _ => id
  | snapshot hr hm =>
      exact hc.sentRect hD hr.bufs hm (Rect.inside_full (by omega) (by omega))
        (fun x y hf _ hout => absurd hf hout) hcov
  | rect r ds hr hm ha hd =>
      refine hc.sentRect hD hr.bufs hm (hc.covered.inside r (by simp [hd])) ?_ hcov
      rintro x y - (hall | ⟨e, he, hin⟩) hout
      · exact .inl hall
      · rw [hd] at he
        rcases List.mem_cons.mp he with rfl | he
        · exact absurd hin hout
        · exact .inr ⟨e, he, hin⟩
  | encodeAu nal idr hn hr hm => exact hc.owing hx hcov (.inl (hmode.trans hm))
  | encodeNothing _ hr hm => exact hc.owing hx hcov (.inl (hmode.trans hm))

/-- **Every action keeps what is not pending shown**, mode switches included. -/
lemma Repainted.step (hctrl : ∀ m, R.ctrl m → IsStreamCtrl m)
    (hR : ∀ t grab rects, R.damage t grab rects → t.HonestDamage grab rects)
    (hw : 0 < t.width) (hh : 0 < t.height) (hD : D.Faithful env neg t.width t.height P)
    (h : TxStep env neg R t t') (hc : t.Repainted env P D old img₀ neg) :
    t'.Repainted env P D old img₀ neg := by
  have hcov := hc.covered.step hR h
  have hx := extends_step h
  cases h with
  | act h => exact hc.act hctrl hR hw hh hD h
  | enter now hs hm => exact hc.owing hx hcov (.inl (by rw [enterH264_eq]))
  | leave | encodeFail => exact hc.owing hx hcov (.inr (leaveH264_dirtyAll _))

/-- With nothing pending the picture is the conversion of `grabbuf`. -/
lemma Repainted.settled (hD : D.Faithful env neg t.width t.height P)
    (h : t.Repainted env P D old img₀ neg) (hm : t.xmitMode = .raw) (hd : t.dirty = [])
    (ha : t.dirtyAll = false) :
    ∃ new, t.msgs = old ++ new ∧ ∀ img, D.Leads new img₀ img → ∀ px py : ℕ, P px py →
      img px py = convertPixel env.dither neg.pixfmt px py (t.grabbuf px py) := by
  obtain ⟨new, hnew, hshown⟩ := h.shown
  have hnone : ∀ x y, ¬t.InRegion x y := fun x y hin => by simp [InRegion, hd, ha] at hin
  refine ⟨new, hnew, fun img hl px py hp => ?_⟩
  have hsame : t.grabbuf px py = t.shadowbuf px py := by
    by_contra hne
    have := hD.frame hp
    exact hnone px py (h.covered.stale px py ⟨Rect.mem_full.mpr (by omega), hne⟩)
  rw [hshown hm img hl px py hp (hnone px py), hsame]

end Actions

/-! ## The start of a stream -/

/-- The hello waits in the queue, nothing else was handed over, and the client is taken to show
black. -/
structure Greeted (neg : Negotiated) (sh : ServerHello) (t : Tx) : Prop extends t.RegionOk where
  framed : t.Framed t.msgs
  log : t.log = [.ctrl sh.bytes]
  mode : t.xmitMode = .raw
  black : ∀ x y, t.shadowbuf x y = 0
  width : 0 < t.width ∧ sh.width.toNat = t.width
  height : 0 < t.height ∧ sh.height.toNat = t.height
  live : t.state = .streaming ∧ t.fd = true
  status : sh.status = 0
  pixfmt : sh.pixfmt = neg.pixfmt.code

lemma Greeted.msgs {neg : Negotiated} {sh : ServerHello} {t : Tx} (h : t.Greeted neg sh) :
    t.msgs = [.ctrl sh.bytes] := by
  simp [Tx.msgs, h.log, Sent.isMsg]

end Tx

section Runs

variable [CDouble T] {env : Env} {neg : Negotiated}

/-- The server's side of a new stream, and what happens before the first event that counts: KVM
starts with a black frame of its own; EVDI waits for the compositor's mode, and its first grab
reports the whole frame. -/
inductive Start (env : Env) (neg : Negotiated) : Client T → List Event → Prop
  | kvm (w h : ℕ) (extra : UInt8) (token : UInt16) (hw : 0 < w ∧ w < 2 ^ 16)
      (hh : 0 < h ∧ h < 2 ^ 16) :
      Start env neg (kvmAcquire env (Client.fresh neg) w h extra token) []
  | evdi (w h : ℕ) (extra : UInt8) (token : UInt16) (hw : 0 < w ∧ w < 2 ^ 16)
      (hh : 0 < h ∧ h < 2 ^ 16) (old grab : Frame) (rects : List Rect)
      (hr : ∀ x y, (Rect.full w h).Mem x y → ∃ r ∈ rects, r.Mem x y) :
      Start env neg (onModeChanged env (Client.fresh neg) w h old extra token)
        [.damage grab rects]

lemma greeted_startStreaming (env : Env) (neg : Negotiated) (k : Ctl T) {w h : ℕ}
    (hw : 0 < w ∧ w < 2 ^ 16) (hh : 0 < h ∧ h < 2 ^ 16) (grab : Frame) (extra : UInt8)
    (token : UInt16) :
    let t := (startStreaming env
      ({ neg := neg, ctl := k, tx := Tx.withBuffers {} w h neg.pixfmt grab } : Client T) extra
        token).tx
    (∃ sh, t.Greeted neg sh) ∧ t.width = w ∧ t.height = h ∧ t.grabbuf = grab := by
  intro t
  rw [show t = _ from startStreaming_tx .., Tx.xmitHello]
  generalize hsh : ServerHello.mk .. = sh
  obtain ⟨hno, -⟩ | ⟨-, -, watch, hx⟩ :=
    (Tx.withBuffers {} w h neg.pixfmt grab).xmitCtrl_cases sh.bytes
  · simp [Tx.withBuffers] at hno
  have hsize : ∀ n < 2 ^ 16, (UInt16.ofNat n).toNat = n := fun n hn => by
    rw [UInt16.toNat_ofNat']
    omega
  rw [hx]
  refine ⟨⟨sh, ?_⟩, rfl, rfl, rfl⟩
  subst hsh
  exact ⟨⟨Nat.zero_le _, fun r hr => by cases hr⟩, Tx.Unsent.framed ⟨rfl, rfl, rfl, rfl⟩ rfl, rfl,
    rfl, fun _ _ => rfl, ⟨hw.1, hsize w hw.2⟩, ⟨hh.1, hsize h hh.2⟩, ⟨rfl, rfl⟩, rfl, rfl⟩

lemma startStreaming_neg (c : Client T) (extra : UInt8) (token : UInt16) :
    (startStreaming env c extra token).neg = c.neg := by
  simp [startStreaming, ctlStart]

/-- The compositor's first mode is, for the transmitter, what KVM does at once. -/
lemma onModeChanged_fresh (env : Env) (neg : Negotiated) {w h : ℕ} (hw : 0 < w) (hh : 0 < h)
    (old : Frame) (extra : UInt8) (token : UInt16) :
    ∃ k : Ctl T, onModeChanged env (Client.fresh neg) w h old extra token =
      startStreaming env { neg := neg, ctl := k, tx := Tx.withBuffers {} w h neg.pixfmt old } extra
        token := by
  refine ⟨{ (Client.fresh neg : Client T).ctl with pingsOutstanding := 0 }, ?_⟩
  rw [onModeChanged_eq env _ (by omega) (by omega), if_pos ⟨rfl, rfl⟩]
  rfl

lemma Start.greeted {c : Client T} {first : List Event} (h : Start env neg c first) :
    c.neg = neg ∧ (∃ sh, c.tx.Greeted neg sh) ∧ ∀ ev ∈ first, ev.InStream := by
  cases h with
  | kvm w h extra token hw hh =>
      exact ⟨startStreaming_neg .., (greeted_startStreaming _ _ _ hw hh _ extra token).1, by simp⟩
  | evdi w h extra token hw hh old grab rects hr =>
      obtain ⟨k, hk⟩ := onModeChanged_fresh env neg (T := T) hw.1 hh.1 old extra
        token
      rw [hk]
      exact ⟨startStreaming_neg .., (greeted_startStreaming _ _ k hw hh old extra token).1,
        by simp [Event.InStream]⟩

/-- The rules of a running stream with an honest source. -/
def Rules.desktop : Rules :=
  { ctrl := IsStreamCtrl, damage := Tx.HonestDamage, decisions := False }

/-- The invariant with the frame's size, so that it can be carried along a run. -/
def Tx.KeepsRepainted (env : Env) (P : ℕ → ℕ → Prop) (D : Drawing) (old : List Sent)
    (img₀ : Image) (w h : ℕ) (neg₀ : Negotiated) (neg : Negotiated) (t : Tx) : Prop :=
  neg = neg₀ ∧ t.width = w ∧ t.height = h ∧ t.Repainted env P D old img₀ neg

lemma Tx.KeepsRepainted.step {P : ℕ → ℕ → Prop} {D : Drawing} {old : List Sent} {img₀ : Image}
    {w h : ℕ} {neg₀ : Negotiated} (hw : 0 < w) (hh : 0 < h) (hD : D.Faithful env neg₀ w h P)
    {t t' : Tx} (hs : TxStep env neg .desktop t t')
    (ht : t.KeepsRepainted env P D old img₀ w h neg₀ neg) :
    t'.KeepsRepainted env P D old img₀ w h neg₀ neg := by
  obtain ⟨rfl, rfl, rfl, hr⟩ := ht
  have hst := hs.sameStream
  exact ⟨rfl, hst.width, hst.height,
    hr.step (R := .desktop) (fun _ h => h) (fun _ _ _ h => h) hw hh hD hs⟩

end Runs

/-! ## The viewer as a receiver -/

namespace ViewStream

variable {v : ViewStream} {z : Lz4} {env : Env}

/-- The rounds of `stream_loop`, one for each answer of the outside. -/
def streamLoop (v : ViewStream) (z : Lz4) (os : List ViewWorld) (n : ViewState)
    (inp : List UInt8) : ViewRound :=
  os.foldlM (fun s o => v.streamMsg z o s.1 s.2) (n, inp)

/-- What a round of the viewer's loop may make of its picture, with an outside that works. -/
def draws (v : ViewStream) (z : Lz4) : Drawing := fun b img img' =>
  ∃ o n n' rest, (∀ m, ViewWorld.Works o m) ∧ v.streamMsg z o n (b ++ rest) = .ok (n', rest) ∧
    v.image n = img ∧ v.image n' = img'

/-- **No message is refused.**  Reading messages the server built, one a round, the viewer comes
to their end, along a way its picture can go. -/
lemma reads {w : View} {broken : Bool} {sh : ServerHello} (hz : env.lz4.Documented)
    (hv : w.helloExchange broken sh = some v)
    (hsize : sh.width.toNat * sh.height.toNat * w.pixfmt.bytespp ≤ 0x7E000000)
    {ms : List Sent}
    (hms : ∀ e ∈ ms, Emitted env (.ofHello (w.hello broken)) sh.width.toNat sh.height.toNat e)
    (hau : ∀ e ∈ ms, ∀ nal idr, e.bytes = Message.bytes env (.ofHello (w.hello broken))
      sh.width.toNat sh.height.toNat (.au nal idr) → nal.length ≤ auCap)
    (os : List ViewWorld) (hlen : os.length = ms.length) (ho : ∀ o ∈ os, ∀ m, o.Works m)
    (n : ViewState) :
    ∃ n', v.streamLoop env.lz4 os n (ms.flatMap Sent.bytes) = .ok (n', []) ∧
      (v.draws env.lz4).Leads ms (v.image n) (v.image n') := by
  induction ms generalizing os n with
  | nil =>
      obtain rfl := List.length_eq_zero_iff.mp hlen
      exact ⟨n, rfl, rfl⟩
  | cons e ms ih =>
      obtain ⟨o, os, rfl⟩ := List.exists_cons_of_length_eq_add_one hlen
      obtain ⟨m, hm, hbytes⟩ := hms e (List.mem_cons_self ..)
      have hcap : m.Bounded := by
        cases m with
        | au nal idr => exact hau e (List.mem_cons_self ..) nal idr hbytes
        | rect | blank | unblank | ping | eos => trivial
      obtain ⟨n₁, hn₁, -⟩ := View.accepts hz hv hsize hm hcap (ho o (List.mem_cons_self ..) m) n
        (ms.flatMap Sent.bytes)
      rw [← hbytes] at hn₁
      obtain ⟨n', hn', hl⟩ := ih (fun e he => hms e (List.mem_cons_of_mem _ he))
        (fun e he => hau e (List.mem_cons_of_mem _ he)) os (by simpa using hlen)
        (fun o h => ho o (List.mem_cons_of_mem _ h)) n₁
      refine ⟨n', ?_, v.image n₁, ⟨o, n, n₁, _, ho o (List.mem_cons_self ..), hn₁, rfl, rfl⟩, hl⟩
      rw [streamLoop, List.foldlM_cons, List.flatMap_cons, hn₁]
      exact hn'

end ViewStream

/-! ## Both programs -/

lemma Event.InStream.isModeChange {ev : Event} (h : ev.InStream) : ev.isModeChange = false := by
  cases ev with
  | modeChanged => exact h.elim
  | _ => rfl

/-- The viewer takes the hello. -/
lemma Tx.Greeted.helloExchange {v : View} {broken : Bool} {sh : ServerHello} {t : Tx}
    (h : t.Greeted (.ofHello (v.hello broken)) sh) :
    ∃ v', v.helloExchange broken sh = some v' := by
  obtain ⟨hfmt, -, -⟩ := v.hello_negotiated broken
  have hw := h.width
  have hh := h.height
  have hpos : ¬(sh.width = 0 ∨ sh.height = 0) := by
    rintro (h | h)
    · rw [h, UInt16.toNat_zero] at hw
      omega
    · rw [h, UInt16.toNat_zero] at hh
      omega
  unfold View.helloExchange
  rw [if_neg (by simp [h.status]), if_neg (by simp [h.pixfmt, hfmt]), if_neg hpos]
  exact ⟨_, rfl⟩

section Desktop

variable [CDouble T]

/-- **What the wire holds** once everything is out: the hello, then messages of the server. -/
lemma Start.wire {env : Env} {neg : Negotiated} {c : Client T} {first es : List Event}
    (h : Start env neg c first) (hin : ∀ ev ∈ es, ev.InStream)
    (hact : (run (step env) c (first ++ es)).tx.outActive = false)
    (hq : (run (step env) c (first ++ es)).tx.outq = []) :
    let t := (run (step env) c (first ++ es)).tx
    ∃ sh new, c.tx.Greeted neg sh ∧ t.wire = sh.bytes ++ new.flatMap Sent.bytes ∧
      t.msgs = c.tx.msgs ++ new ∧ t.width = c.tx.width ∧ t.height = c.tx.height ∧
      ∀ e ∈ new, e ∈ t.log ∧
        Emitted env (run (step env) c (first ++ es)).neg c.tx.width c.tx.height e := by
  intro t
  obtain ⟨-, ⟨sh, hg⟩, hfirst⟩ := h.greeted
  have hall : ∀ ev ∈ first ++ es, ev.InStream := fun ev hev =>
    (List.mem_append.mp hev).elim (hfirst ev) (hin ev)
  obtain ⟨hframed, -⟩ := run_framed env (c := c) hg.framed
    fun ev hev => (hall ev hev).isModeChange
  have hwire : t.wire = t.msgs.flatMap Sent.bytes := hframed.wire_eq hact hq
  have hem : Emits env c.tx.width c.tx.height c.tx.log (run (step env) c (first ++ es)) :=
    run_emits hg.width.1 hg.height.1
      ⟨rfl, rfl, hg.toRegionOk, fun hm => by simp [hg.mode] at hm, [], by simp, by simp⟩ hall
  obtain ⟨new, hlog, hnew⟩ := hem.log
  have hmsgs : t.msgs = c.tx.msgs ++ new.filter Sent.isMsg := by
    rw [Tx.msgs, hlog, List.filter_append, Tx.msgs]
  refine ⟨sh, new.filter Sent.isMsg, hg, ?_, hmsgs, hem.width, hem.height, fun e he => ?_⟩
  · rw [hwire, hmsgs, hg.msgs]
    rfl
  · obtain ⟨he, hmsg⟩ := List.mem_filter.mp he
    exact ⟨hlog ▸ List.mem_append_right _ he, hnew e he hmsg⟩

end Desktop

/-- A decoder that shows white. -/
def ViewWorld.white : ViewWorld where
  pictures := [⟨2, 1, fun _ _ => 235, fun _ _ => 128, fun _ _ => 128⟩]

end Sremfb
