import Sremfb.Server.Converge

/-!
# The first picture of a stream

`on_mode_changed` hands the transmitter a `shadowbuf` of zeros, as if the client already showed
black.  The first damage report is then trimmed against black: the rows of a rectangle that are
black above its first and below its last row with a colour are not sent at all.  A client that
shows something else there keeps it, since it clears its panel once, when the program starts.

`Marked` is the part of the frame a first report leaves pending.  It is a function of the report
and of the frame alone, computed by the transmitter's own clamping, trimming and merging; for a
report of the whole frame in one rectangle it is everything from the first to the last row that
is not black (`marked_full`).  Two invariants follow the stream.  Until the report nothing is
pending and no pixel is sent (`Unpainted`); after it the marked pixels are pending or shown, and
the others are neither pending nor touched (`Painting`).
-/

namespace Sremfb

open Lib Relation

variable {D : Type}

namespace Tx

/-! ## What a report marks -/

/-- The part of the state that `sremfb_xmit_damage` reads, and the region it writes. -/
def core (t : Tx) : Tx where
  width := t.width
  height := t.height
  bufs := t.bufs
  grabbuf := t.grabbuf
  shadowbuf := t.shadowbuf
  xmitMode := t.xmitMode
  dirty := t.dirty
  dirtyAll := t.dirtyAll

lemma dirtyAdd_core (t : Tx) (r : Rect) : (t.dirtyAdd r).core = t.core.dirtyAdd r := by
  unfold dirtyAdd
  by_cases ha : t.dirtyAll = true
  · rw [if_pos ha, if_pos (show t.core.dirtyAll = true from ha)]
  rw [if_neg ha, if_neg (show ¬t.core.dirtyAll = true from ha),
    show t.core.dirty = t.dirty from rfl]
  cases mergeTouching r t.dirty with
  | some ds => rfl
  | none =>
      dsimp only
      by_cases hn : t.dirty.length < dirtyMax
      · rw [if_pos hn, if_pos hn]
        rfl
      · rw [if_neg hn, if_neg hn]
        cases t.dirty with
        | nil => rfl
        | cons d ds => rfl

lemma damageRect_core (bpp bpp' : ℕ) (t : Tx) (raw raw' : ℕ) (r : Rect) :
    (damageRect bpp (t, raw) r).1.core = (damageRect bpp' (t.core, raw') r).1 := by
  have hc : t.core.clampRect r = t.clampRect r := rfl
  have ht : ∀ s, t.core.rectTrim s = t.rectTrim s := fun _ => rfl
  have hm : t.core.xmitMode = t.xmitMode := rfl
  unfold damageRect
  simp only [hc, ht, hm]
  split
  · rfl
  split
  · rfl
  split
  · rfl
  · exact t.dirtyAdd_core _

lemma foldl_damageRect_core (bpp bpp' : ℕ) (rects : List Rect) (t : Tx) (raw raw' : ℕ) :
    (rects.foldl (damageRect bpp) (t, raw)).1.core =
      (rects.foldl (damageRect bpp') (t.core, raw')).1 := by
  induction rects generalizing t raw raw' with
  | nil => rfl
  | cons r rects ih =>
      have h := damageRect_core bpp bpp' t raw raw' r
      rw [List.foldl_cons, List.foldl_cons]
      have ih' := ih (damageRect bpp (t, raw) r).1 (damageRect bpp (t, raw) r).2
        (damageRect bpp' (t.core, raw') r).2
      rw [h] at ih'
      exact ih'

/-- In RAW mode a report never marks the whole frame at once. -/
lemma damageRects_dirtyAll_of_raw (bpp : ℕ) {t : Tx} (rects : List Rect) (hm : t.xmitMode = .raw) :
    (t.damageRects bpp rects).1.dirtyAll = t.dirtyAll := by
  have key : ∀ (raw : ℕ) {u : Tx}, u.xmitMode = .raw →
      (rects.foldl (damageRect bpp) (u, raw)).1.dirtyAll = u.dirtyAll := by
    induction rects with
    | nil => exact fun _ _ _ => rfl
    | cons r rects ih =>
        intro raw u hu
        have hone : (damageRect bpp (u, raw) r).1.dirtyAll = u.dirtyAll := by
          unfold damageRect
          dsimp only
          split
          · rfl
          split
          · rfl
          rw [if_neg (by simp [hu])]
          obtain ⟨ds, h⟩ := u.dirtyAdd_eq (u.rectTrim (u.clampRect r))
          rw [h]
        obtain ⟨ds, a, h⟩ := damageRect_eq bpp u raw r
        have hmode : (damageRect bpp (u, raw) r).1.xmitMode = .raw := by
          rw [h]
          exact hu
        rw [List.foldl_cons, ← hone]
        exact ih (damageRect bpp (u, raw) r).2 hmode
  exact key 0 hm

/-- The first and the last row that trimming leaves are not what the client has. -/
lemma rowSame_rectTrim {t : Tx} {r : Rect} (hb : t.bufs = true) (hy : r.y1 ≤ r.y2)
    (hlt : (t.rectTrim r).y1 < (t.rectTrim r).y2) :
    t.rowSame r (t.rectTrim r).y1 = false ∧ t.rowSame r ((t.rectTrim r).y2 - 1) = false := by
  have hbounds := t.rectTrim_bounds r
  unfold rectTrim at hlt hbounds ⊢
  rw [if_neg (by simp [hb])] at hlt hbounds ⊢
  exact ⟨not_same_trimTop (by dsimp only at *; omega),
    not_same_trimBottom (by dsimp only at *; omega)⟩

/-- A transmitter right after a mode change, with the frame the source wrote. -/
def black (w h : ℕ) (g : Frame) : Tx where
  width := w
  height := h
  bufs := true
  grabbuf := g

end Tx

/-- The pixels that a report of the frame `g` leaves pending, on a client taken to be black. -/
def Marked (w h : ℕ) (g : Frame) (rects : List Rect) (x y : ℤ) : Prop :=
  ((Tx.black w h g).damageRects 0 rects).1.InRegion x y

/-- A pixel that was reported and is not marked is black. -/
lemma eq_zero_of_not_marked {w h : ℕ} {g : Frame} {rects : List Rect} {x y : ℤ}
    (hf : (Rect.full w h).Mem x y) (hr : ∃ r ∈ rects, r.Mem x y)
    (hm : ¬Marked w h g rects x y) : g x y = 0 := by
  by_contra hne
  have hok : (Tx.black w h g).RegionOk := ⟨Nat.zero_le _, fun r hr => by cases hr⟩
  obtain ⟨-, hmem⟩ := Tx.foldl_damageRect_spec (t := Tx.black w h g) 0 rects 0 hok
  exact hm (hmem x y (.inr ⟨⟨hf, hne⟩, hr⟩))

/-- A row that is not black has a pixel that is not. -/
lemma exists_of_rowSame_eq_false {w h : ℕ} {g : Frame} {y : ℤ} {r : Rect} (h₁ : r.x1 = 0)
    (h₂ : r.x2 = w) (hs : (Tx.black w h g).rowSame r y = false) :
    ∃ x : ℤ, 0 ≤ x ∧ x < w ∧ g x y ≠ 0 := by
  rw [Tx.rowSame, List.all_eq_false] at hs
  obtain ⟨i, hi, hne⟩ := hs
  rw [List.mem_range, h₁, h₂] at hi
  refine ⟨i, by omega, by omega, ?_⟩
  rw [h₁, zero_add] at hne
  simpa [Tx.black] using hne

/-- A report of the whole frame marks the rows from the first to the last that is not black. -/
lemma marked_full {w h : ℕ} (g : Frame) {x y : ℤ} (hf : (Rect.full w h).Mem x y) :
    Marked w h g [Rect.full w h] x y ↔ ∃ x₁ y₁ x₂ y₂, (Rect.full w h).Mem x₁ y₁ ∧
      (Rect.full w h).Mem x₂ y₂ ∧ y₁ ≤ y ∧ y ≤ y₂ ∧ g x₁ y₁ ≠ 0 ∧ g x₂ y₂ ≠ 0 := by
  have hf' := Rect.mem_full.mp hf
  have hc : (Tx.black w h g).clampRect (Rect.full w h) = Rect.full w h := by
    simp only [Tx.clampRect, Tx.black, Rect.full, clamp, Rect.mk.injEq]
    split_ifs <;> omega
  have hm : Marked w h g [Rect.full w h] x y ↔
      ((Tx.black w h g).rectTrim (Rect.full w h)).Mem x y := by
    rw [Marked, Tx.damageRects, List.foldl_cons, List.foldl_nil, Tx.damageRect]
    dsimp only
    rw [hc, if_neg (by simp only [Rect.full]; omega)]
    split <;> rename_i he
    · have hall : (Tx.black w h g).dirtyAll = false := rfl
      have hnil : (Tx.black w h g).dirty = [] := rfl
      rw [Tx.InRegion, hall, hnil, Rect.Mem]
      simp only [Bool.false_eq_true, List.not_mem_nil, false_and, exists_false, or_self, false_iff]
      omega
    · rw [if_neg (by simp [Tx.black])]
      simp [Tx.InRegion, Tx.dirtyAdd, Tx.black, Tx.mergeTouching, Tx.dirtyMax]
  rw [hm]
  constructor
  · rintro ⟨-, -, h₁, h₂⟩
    obtain ⟨ht, hb⟩ := Tx.rowSame_rectTrim (t := Tx.black w h g) (r := Rect.full w h) rfl
      (by simp only [Rect.full]; omega) (by omega)
    obtain ⟨-, -, hy1, hy2⟩ := (Tx.black w h g).rectTrim_bounds (Rect.full w h)
    obtain ⟨x₁, hx₁, hx₁', hne₁⟩ := exists_of_rowSame_eq_false rfl rfl ht
    obtain ⟨x₂, hx₂, hx₂', hne₂⟩ := exists_of_rowSame_eq_false rfl rfl hb
    simp only [Rect.full] at hy1 hy2 h₁ h₂ hne₁ hne₂
    refine ⟨x₁, _, x₂, _, Rect.mem_full.mpr ⟨hx₁, hx₁', hy1, ?_⟩,
      Rect.mem_full.mpr ⟨hx₂, hx₂', ?_, ?_⟩, h₁, ?_, hne₁, hne₂⟩ <;> omega
  · rintro ⟨x₁, y₁, x₂, y₂, m₁, m₂, hy₁, hy₂, hne₁, hne₂⟩
    obtain ⟨-, -, ht, -⟩ := Tx.mem_rectTrim (t := Tx.black w h g) m₁ hne₁
    obtain ⟨-, -, -, hb⟩ := Tx.mem_rectTrim (t := Tx.black w h g) m₂ hne₂
    obtain ⟨hx1, hx2, -, -⟩ := (Tx.black w h g).rectTrim_bounds (Rect.full w h)
    rw [Rect.Mem, hx1, hx2]
    exact ⟨hf.1, hf.2.1, ht.trans hy₁, hy₂.trans_lt hb⟩

namespace Tx

variable {env : Env} {neg : Negotiated} {R : Rules} {t t' : Tx} {n w h : ℕ} {img : Image}
  {g : Frame} {M : ℤ → ℤ → Prop}

/-! ## The two invariants -/

/-- What was logged after the first `n` entries. -/
def since (n : ℕ) (t : Tx) : List Sent := t.log.drop n

/-- No episode was opened after the first `n` entries. -/
def RawSince (n : ℕ) (t : Tx) : Prop := ∀ s, Sent.opened s ∉ t.since n

/-- The picture made from what was logged after the first `n` entries. -/
def pictureSince (n : ℕ) (z : Lz4) (bpp : ℕ) (img : Image) (t : Tx) : Image :=
  (t.since n).foldl (Sent.apply z bpp) img

/-- The frame of the stream, before and after the report. -/
structure Screen (n w h : ℕ) (t : Tx) : Prop where
  logged : n ≤ t.log.length
  width : t.width = w
  height : t.height = h
  bufs : t.bufs = true
  state : t.state = .streaming
  fd : t.fd = true

/-- Before the first report: nothing is pending, and the picture is the old one. -/
structure Unpainted (n : ℕ) (env : Env) (img : Image) (neg : Negotiated) (t : Tx) : Prop where
  raw : t.xmitMode = .raw
  clean : t.dirty = [] ∧ t.dirtyAll = false
  shadow : t.shadowbuf = fun _ _ => 0
  picture : t.pictureSince n env.lz4 neg.pixfmt.bytespp img = img

/-- After the report of `g`: the pixels of `M` are pending or shown, the others are left. -/
structure Painting (n : ℕ) (env : Env) (img : Image) (g : Frame) (M : ℤ → ℤ → Prop)
    (neg : Negotiated) (t : Tx) : Prop where
  raw : t.xmitMode = .raw
  all : t.dirtyAll = false
  grab : t.grabbuf = g
  inside : ∀ r ∈ t.dirty, r.Inside t.width t.height
  left : ∀ px py : ℕ, ¬M px py → ¬t.InRegion px py ∧
    t.pictureSince n env.lz4 neg.pixfmt.bytespp img px py = img px py
  shown : ∀ px py : ℕ, M px py → t.InRegion px py ∨
    t.pictureSince n env.lz4 neg.pixfmt.bytespp img px py =
      convertPixel env.dither neg.pixfmt px py (g px py)

/-! ## Actions between reports -/

/-- What an action other than a report does to a RAW transmitter that has not to send the whole
frame. -/
inductive RawMove (env : Env) (neg : Negotiated) (t : Tx) : Tx → Prop
  | aside {t' : Tx} (hlog : t'.log = t.log ∨ ∃ m, t'.log = t.log ++ [.ctrl m])
      (hm : t'.xmitMode = t.xmitMode) (hd : t'.dirty = t.dirty) (ha : t'.dirtyAll = t.dirtyAll)
      (hg : t'.grabbuf = t.grabbuf) (hs : t'.shadowbuf = t.shadowbuf) : RawMove env neg t t'
  | rect (r : Rect) (ds : List Rect) (hb : t.bufs = true) (hd : t.dirty = r :: ds) :
      RawMove env neg t ({ t with dirty := ds }.builtRect env neg r)
  | opened (now : ℤ) : RawMove env neg t (t.enterH264 now)

/-- The rules between reports. -/
def quietRules : Rules where
  damage _ _ _ := False
  repaint := False

lemma rawMove_of_step (h : TxStep env neg quietRules t t') (hm : t.xmitMode = .raw)
    (ha : t.dirtyAll = false) : RawMove env neg t t' := by
  cases h with
  | enter now => exact .opened now
  | leave hs hm' => simp [hm] at hm'
  | encodeFail _ hr hm' => simp [hm] at hm'
  | act h =>
      cases h with
      | ctrl m =>
          obtain ⟨-, h⟩ | ⟨-, -, w, h⟩ := t.xmitCtrl_cases m
          · rw [h]
            exact .aside (.inl rfl) rfl rfl rfl rfl rfl
          · rw [h]
            exact .aside (.inr ⟨m, rfl⟩) rfl rfl rfl rfl rfl
      | damage grab rects h => exact h.elim
      | repaint grab h => exact h.elim
      | snapshot hr hm' hd => simp [ha] at hd
      | rect r ds hr hm' ha' hd => exact .rect r ds hr.bufs hd
      | encodeAu nal idr hn hr hm' => simp [hm] at hm'
      | encodeNothing _ hr hm' => simp [hm] at hm'
      | aux | lose | sendFrame | frameDone | sendHead | popHead =>
          exact .aside (.inl rfl) rfl rfl rfl rfl rfl

lemma since_append (hn : n ≤ t.log.length) {new : List Sent} (h : t'.log = t.log ++ new) :
    t'.since n = t.since n ++ new := by
  rw [since, h, List.drop_append_of_le_length hn, since]

lemma RawSince.of_step (hn : n ≤ t.log.length) (h : TxStep env neg R t t')
    (hraw : t'.RawSince n) : t.RawSince n := by
  obtain ⟨new, hlog, -⟩ := h.logs
  intro s hs
  exact hraw s (since_append hn hlog ▸ List.mem_append_left _ hs)

lemma Screen.step (hs : t.Screen n w h) (hstep : TxStep env neg R t t') : t'.Screen n w h := by
  have hst := hstep.sameStream
  obtain ⟨new, hlog, -⟩ := hstep.logs
  refine ⟨?_, hst.width.trans hs.width, hst.height.trans hs.height, hst.bufs.trans hs.bufs,
    hst.state.trans hs.state, hst.fd.trans hs.fd⟩
  have := hs.logged
  rw [hlog, List.length_append]
  omega

/-- Control messages do not change the picture. -/
lemma pictureSince_aside (hn : n ≤ t.log.length)
    (hlog : t'.log = t.log ∨ ∃ m, t'.log = t.log ++ [.ctrl m]) (z : Lz4) (bpp : ℕ) :
    t'.pictureSince n z bpp img = t.pictureSince n z bpp img := by
  obtain hl | ⟨m, hl⟩ := hlog
  · rw [pictureSince, since, hl, pictureSince, since]
  · rw [pictureSince, since_append hn hl, List.foldl_append, pictureSince]
    rfl

/-- A switch to H.264 is in the log. -/
lemma not_rawSince_enterH264 (hn : n ≤ t.log.length) (now : ℤ) :
    ¬(t.enterH264 now).RawSince n := by
  intro h
  have hlog : (t.enterH264 now).log = t.log ++ [.opened now] := by rw [enterH264_eq]
  refine h now ?_
  rw [since_append hn hlog]
  exact List.mem_append_right _ (List.mem_singleton.mpr rfl)

lemma Unpainted.step (hn : n ≤ t.log.length) (hstep : TxStep env neg quietRules t t')
    (hu : t.Unpainted n env img neg) : t'.RawSince n → t'.Unpainted n env img neg := by
  intro hraw
  cases rawMove_of_step hstep hu.raw hu.clean.2 with
  | aside hlog hm hd ha hg hs =>
      refine ⟨hm.trans hu.raw, ⟨hd.trans hu.clean.1, ha.trans hu.clean.2⟩, hs.trans hu.shadow, ?_⟩
      rw [pictureSince_aside hn hlog]
      exact hu.picture
  | rect r ds hb hd => simp [hu.clean.1] at hd
  | opened now => exact absurd hraw (not_rawSince_enterH264 hn now)

/-- A build leaves the region, the frame and the mode alone. -/
lemma builtRect_keeps (env : Env) (neg : Negotiated) (t : Tx) (r : Rect) :
    (t.builtRect env neg r).dirty = t.dirty ∧ (t.builtRect env neg r).dirtyAll = t.dirtyAll ∧
      (t.builtRect env neg r).grabbuf = t.grabbuf ∧
      (t.builtRect env neg r).xmitMode = t.xmitMode := by
  obtain ⟨f, hf⟩ := t.shadowUpdate_eq r
  simp [builtRect, hf, frameStart]

/-- **The step lemma of the paint.**  A rectangle that is sent turns its pixels from pending to
shown. -/
lemma Painting.step (hz : env.lz4.Documented) (hfit : Fits w h neg.pixfmt.bytespp)
    (hs : t.Screen n w h) (hstep : TxStep env neg quietRules t t')
    (hp : t.Painting n env img g M neg) : t'.RawSince n → t'.Painting n env img g M neg := by
  intro hraw
  have hst := hstep.sameStream
  cases rawMove_of_step hstep hp.raw hp.all with
  | aside hlog hm hd ha hg hsh =>
      refine ⟨hm.trans hp.raw, ha.trans hp.all, hg.trans hp.grab, ?_, fun px py => ?_,
        fun px py => ?_⟩
      · rw [hd, hst.width, hst.height]
        exact hp.inside
      · rw [pictureSince_aside hs.logged hlog, InRegion, ha, hd]
        exact hp.left px py
      · rw [pictureSince_aside hs.logged hlog, InRegion, ha, hd]
        exact hp.shown px py
  | opened now => exact absurd hraw (not_rawSince_enterH264 hs.logged now)
  | rect r ds hb hd =>
      obtain ⟨hds, hall, hgrab, hmode⟩ := builtRect_keeps env neg { t with dirty := ds } r
      have hin := hp.inside
      rw [hd] at hin
      have hr : r.Inside w h := by
        have := hin r (List.mem_cons_self ..)
        rwa [hs.width, hs.height] at this
      have hpic : ∀ px py : ℕ, ({ t with dirty := ds }.builtRect env neg r).pictureSince n
          env.lz4 neg.pixfmt.bytespp img px py = if r.Mem px py then
            convertPixel env.dither neg.pixfmt px py (g px py) else
            t.pictureSince n env.lz4 neg.pixfmt.bytespp img px py := by
        intro px py
        rw [pictureSince, since_append hs.logged (builtRect_log env neg { t with dirty := ds } r),
          List.foldl_append, ← hp.grab]
        exact rect_rectMessage hz hfit hr t.grabbuf _ px py
      have hreg : ∀ x y, ({ t with dirty := ds }.builtRect env neg r).InRegion x y ↔
          ∃ e ∈ ds, e.Mem x y := by
        intro x y
        rw [InRegion, hds, hall]
        simp [hp.all]
      have hold : ∀ x y, t.InRegion x y ↔ r.Mem x y ∨ ∃ e ∈ ds, e.Mem x y := by
        intro x y
        simp [InRegion, hp.all, hd]
      refine ⟨?_, ?_, ?_, ?_, fun px py hm => ?_, fun px py hm => ?_⟩
      · exact hmode.trans hp.raw
      · exact hall.trans hp.all
      · exact hgrab.trans hp.grab
      · rw [hds, hst.width, hst.height]
        exact fun e he => hin e (List.mem_cons_of_mem _ he)
      · obtain ⟨hout, hpx⟩ := hp.left px py hm
        rw [hold, not_or] at hout
        rw [hreg, hpic, if_neg hout.1]
        exact ⟨hout.2, hpx⟩
      · rw [hreg, hpic]
        by_cases hmem : r.Mem px py
        · rw [if_pos hmem]
          exact .inr rfl
        · rw [if_neg hmem]
          refine (hp.shown px py hm).imp_left fun hreg => ?_
          exact ((hold px py).mp hreg).resolve_left hmem

end Tx

/-! ## Runs -/

/-- The event is no report, no repaint and no mode change. -/
def Event.isQuiet : Event → Bool
  | .damage .. | .repaint .. | .modeChanged .. => false
  | _ => true

section Runs

variable [CDouble D] {env : Env} {n w h : ℕ} {img : Image} {g : Frame} {M : ℤ → ℤ → Prop}

lemma Event.admits_of_isQuiet {c : Client D} {ev : Event} (hev : ev.isQuiet = true) :
    Tx.quietRules.Admits env c ev := by
  cases ev with
  | damage | repaint | modeChanged => cases hev
  | outReady => exact fun k hk => ⟨fun _ => trivial, fun _ _ => trivial⟩
  | pingTick => exact fun t => trivial
  | retry | pong | ctrl | dpms | setMode | lost => exact trivial

lemma along_quiet {c : Client D} {es : List Event} (hes : ∀ ev ∈ es, ev.isQuiet = true) :
    Along (Tx.quietRules.Admits env) (step env) c es :=
  (along_of_forall hes).mono fun _ _ h => Event.admits_of_isQuiet h

/-- The stream after a mode change, up to the first report. -/
def Tx.Blank (n w h : ℕ) (env : Env) (img : Image) (neg : Negotiated) (t : Tx) : Prop :=
  t.Screen n w h ∧ (t.RawSince n → t.Unpainted n env img neg)

/-- The stream from the first report on. -/
def Tx.Painted (n w h : ℕ) (env : Env) (img : Image) (g : Frame) (M : ℤ → ℤ → Prop)
    (neg : Negotiated) (t : Tx) : Prop :=
  t.Screen n w h ∧ (t.RawSince n → t.Painting n env img g M neg)

lemma Tx.Blank.step {neg : Negotiated} {t t' : Tx} (hstep : TxStep env neg quietRules t t')
    (ht : t.Blank n w h env img neg) : t'.Blank n w h env img neg := by
  obtain ⟨hs, hu⟩ := ht
  refine ⟨hs.step hstep, fun hraw => ?_⟩
  exact (hu (hraw.of_step hs.logged hstep)).step hs.logged hstep hraw

lemma Tx.Painted.step {neg : Negotiated} {t t' : Tx} (hz : env.lz4.Documented)
    (hfit : Fits w h neg.pixfmt.bytespp) (hstep : TxStep env neg quietRules t t')
    (ht : t.Painted n w h env img g M neg) : t'.Painted n w h env img g M neg := by
  obtain ⟨hs, hp⟩ := ht
  refine ⟨hs.step hstep, fun hraw => ?_⟩
  exact (hp (hraw.of_step hs.logged hstep)).step hz hfit hs hstep hraw

/-- The report itself: what it marks is pending. -/
lemma Tx.Unpainted.report {neg : Negotiated} {t : Tx} (hs : t.Screen n w h)
    (hu : t.Unpainted n env img neg) (g : Frame) (rects : List Rect) :
    Tx.Painting n env img g (Marked w h g rects) neg
      ({ t with grabbuf := g }.damageRects neg.pixfmt.bytespp rects).1 := by
  have hcore : Tx.core { t with grabbuf := g } = Tx.black w h g := by
    simp only [Tx.core, Tx.black, hs.width, hs.height, hs.bufs, hu.shadow, hu.raw, hu.clean.1,
      hu.clean.2]
  have hmark := foldl_damageRect_core neg.pixfmt.bytespp 0 rects { t with grabbuf := g } 0 0
  rw [hcore] at hmark
  have hreg : ∀ x y, ({ t with grabbuf := g }.damageRects neg.pixfmt.bytespp rects).1.InRegion
      x y ↔ Marked w h g rects x y := by
    intro x y
    simp only [Marked, Tx.damageRects]
    rw [← hmark]
    exact Iff.rfl
  obtain ⟨hok, -⟩ := foldl_damageRect_spec (t := { t with grabbuf := g }) neg.pixfmt.bytespp
    rects 0 ⟨by simp [hu.clean.1], by simp [hu.clean.1]⟩
  obtain ⟨ds, a, he⟩ := damageRects_eq neg.pixfmt.bytespp { t with grabbuf := g } rects
  have hpic : ({ t with grabbuf := g }.damageRects neg.pixfmt.bytespp rects).1.pictureSince n
      env.lz4 neg.pixfmt.bytespp img = img := by
    rw [he]
    exact hu.picture
  refine ⟨?_, ?_, ?_, hok.inside, fun px py hm => ?_, fun px py hm => ?_⟩
  · rw [he]
    exact hu.raw
  · exact (damageRects_dirtyAll_of_raw (t := { t with grabbuf := g }) _ rects hu.raw).trans hu.clean.2
  · rw [he]
  · rw [hreg, hpic]
    exact ⟨hm, rfl⟩
  · exact .inl ((hreg px py).mpr hm)

/-- The callback of the report: the report, then at most a switch. -/
lemma step_report (hz : env.lz4.Documented) {c : Client D}
    (hfit : Fits w h c.neg.pixfmt.bytespp) (hc : c.tx.Blank n w h env img c.neg) (g : Frame)
    (rects : List Rect) : (step env c (.damage g rects)).neg = c.neg ∧
      (step env c (.damage g rects)).tx.Painted n w h env img g (Marked w h g rects) c.neg := by
  obtain ⟨hs, hu⟩ := hc
  set d : Client D := { c with
    tx := ({ c.tx with grabbuf := g }.damageRects c.neg.pixfmt.bytespp rects).1 } with hd
  have hp : d.tx.Painted n w h env img g (Marked w h g rects) c.neg := by
    obtain ⟨ds, a, he⟩ := Tx.damageRects_eq c.neg.pixfmt.bytespp { c.tx with grabbuf := g } rects
    have hdtx : d.tx = { c.tx with grabbuf := g, dirty := ds, dirtyAll := a } := he
    refine ⟨?_, fun hraw => ?_⟩
    · rw [hdtx]
      exact ⟨hs.logged, hs.width, hs.height, hs.bufs, hs.state, hs.fd⟩
    · refine Tx.Unpainted.report hs (hu ?_) g rects
      rw [hdtx] at hraw
      exact hraw
  have hstep : step env c (.damage g rects) =
      xmitDamage env { c with tx := { c.tx with grabbuf := g } } rects := if_pos ⟨hs.state, hs.fd⟩
  have hchain : ReflTransGen (Micro env Tx.quietRules) d (step env c (.damage g rects)) := by
    rw [hstep]
    obtain ⟨-, he⟩ | ⟨e, hm, he⟩ := xmitDamage_moves env
      { c with tx := { c.tx with grabbuf := g } } rects
    · rw [he]
    · rw [he]
      exact (CtlMove.chain hm).tail (xmitKick_act e)
  obtain ⟨hneg, htx⟩ := txChain_of_micro hchain
  exact ⟨hneg, chain_invariant (r := TxStep env c.neg Tx.quietRules)
    (fun hst hq => Tx.Painted.step hz hfit hst hq) htx hp⟩

/-- A stream that has at most queued its hello shows the old picture. -/
lemma Tx.Screen.blank {neg : Negotiated} {t : Tx} (hs : t.Screen n w h)
    (hlog : t.since n = [] ∨ ∃ m, t.since n = [.ctrl m]) (hraw : t.xmitMode = .raw)
    (hclean : t.dirty = [] ∧ t.dirtyAll = false) (hshadow : t.shadowbuf = fun _ _ => 0) :
    t.Blank n w h env img neg := by
  refine ⟨hs, fun _ => ⟨hraw, hclean, hshadow, ?_⟩⟩
  obtain hl | ⟨m, hl⟩ := hlog
  · rw [Tx.pictureSince, hl]
    rfl
  · rw [Tx.pictureSince, hl]
    rfl

/-- So it is after the hello. -/
lemma Tx.blank_of_ctrl {neg : Negotiated} {t : Tx} (hw : t.width = w) (hh : t.height = h)
    (hb : t.bufs = true) (hfd : t.fd = true) (hclean : t.dirty = [] ∧ t.dirtyAll = false)
    (hshadow : t.shadowbuf = fun _ _ => 0) (m : List UInt8) :
    Tx.Blank t.log.length w h env img neg
      { t.xmitCtrl m with state := .streaming, xmitMode := .raw, wireTotal := 0 } := by
  obtain ⟨-, he⟩ | ⟨-, -, watch, he⟩ := t.xmitCtrl_cases m
  · rw [he]
    refine Tx.Screen.blank ⟨le_rfl, hw, hh, hb, rfl, hfd⟩ (.inl ?_) rfl hclean hshadow
    exact List.drop_length
  · rw [he]
    refine Tx.Screen.blank ⟨?_, hw, hh, hb, rfl, hfd⟩ (.inr ⟨m, ?_⟩) rfl hclean hshadow
    · simp
    · simp [Tx.since]

/-- The reset leaves the wire at the end of what was sent. -/
lemma Tx.framed_remade {t : Tx} {old : List Sent} (hold : t.wire = old.flatMap Sent.bytes)
    (w h : ℤ) (fmt : PixFmt) (grab : Frame) : (t.remade w h fmt grab).Framed old := by
  refine ⟨fun ha => Bool.noConfusion ha, ⟨⟨old, ?_, ?_⟩, ?_, fun _ => rfl⟩⟩
  · simp [Tx.outbox, Tx.remade, Tx.withBuffers]
  · simp [Tx.outbox, Tx.remade, Tx.withBuffers, Outbox.started, hold]
  · simp [Tx.outbox, Tx.remade, Tx.withBuffers]

/-- The callback of a mode change: a blank stream, framed after what was sent before. -/
lemma step_modeChanged (img : Image) {c d : Client D} (hfd : c.tx.fd = true) (hw : 0 < w) (hh : 0 < h)
    {grab : Frame} {extra : UInt8} {token : UInt16} {old : List Sent}
    (hold : c.tx.wire = old.flatMap Sent.bytes)
    (hd : step env c (.modeChanged w h grab extra token) = d) (hraw : d.tx.xmitMode = .raw) :
    d.neg = c.neg ∧ d.tx.Blank c.tx.log.length w h env img c.neg ∧
      d.tx.Framed (old ++ (d.tx.since c.tx.log.length).filter Sent.isMsg) := by
  have hframed := Tx.framed_remade hold w h c.neg.pixfmt grab
  have hnil : (c.tx.remade w h c.neg.pixfmt grab).since c.tx.log.length = [] :=
    List.drop_length
  rw [step, onModeChanged_eq env c (by omega) (by omega)] at hd
  by_cases hwait : c.tx.state = .modeWait
  · rw [if_pos ⟨hwait, hfd⟩] at hd
    have hneg : d.neg = c.neg := by
      rw [← hd]
      simp [startStreaming, ctlStart]
    have htx := congrArg Client.tx hd
    rw [startStreaming_tx] at htx
    have hext : (c.tx.remade w h c.neg.pixfmt grab).Extends d.tx := by
      rw [← htx]
      exact (Tx.extends_xmitCtrl _ _).trans (.aside rfl rfl)
    obtain ⟨new, hlog, hkeep⟩ := hext
    have hsince : d.tx.since c.tx.log.length = new := by
      have happ := Tx.since_append (n := c.tx.log.length)
        (t := c.tx.remade w h c.neg.pixfmt grab) le_rfl hlog
      rw [happ, hnil, List.nil_append]
    refine ⟨hneg, ?_, by rw [hsince]; exact hkeep old hframed⟩
    rw [← htx]
    exact Tx.blank_of_ctrl (t := c.tx.remade w h c.neg.pixfmt grab) rfl rfl rfl hfd ⟨rfl, rfl⟩ rfl _
  · rw [if_neg fun hc => hwait hc.1] at hd
    have hstream : c.tx.state = .streaming := by
      cases hst : c.tx.state with
      | modeWait => exact absurd hst hwait
      | streaming => rfl
    rw [← hd] at hraw ⊢
    refine ⟨rfl, Tx.Screen.blank ⟨le_rfl, rfl, rfl, rfl, hstream, hfd⟩ (.inl hnil) hraw ⟨rfl, rfl⟩
      rfl, ?_⟩
    rw [hnil, List.filter_nil, List.append_nil]
    exact hframed

lemma run_extends (env : Env) {c : Client D} {es : List Event}
    (hes : ∀ ev ∈ es, ev.isModeChange = false) : c.tx.Extends (run (step env) c es).tx := by
  have hadm : Along (({} : Rules).Admits env) (step env) c es :=
    (along_of_forall hes).mono fun _ _ h => Rules.admits_any h
  exact (run_txInvariant (P := fun _ t => c.tx.Extends t)
    (fun hstep ht => ht.trans (Tx.extends_step hstep)) (.refl c.tx) hadm).2

/-- With nothing in flight and nothing queued, the framed messages are the wire. -/
lemma Tx.Framed.wire_eq {t : Tx} {kept : List Sent} (hf : t.Framed kept)
    (hact : t.outActive = false) (hq : t.outq = []) : t.wire = kept.flatMap Sent.bytes := by
  obtain ⟨done, hm, hwire⟩ := hf.outbox.split
  have hdone : kept = done := by simpa [Tx.outbox, hact, hq] using hm
  simpa [Tx.outbox, Outbox.started, hact, hq, hdone] using hwire

/-- **The first picture.**  A client is given a mode, gets one report that covers the frame and
no other, and everything is sent in RAW mode.  Then, whatever its panel showed before, it shows
the conversion of the frame exactly when the pixels the report did not mark were black on it. -/
theorem first_paint_iff (env : Env) (hz : env.lz4.Documented) {c₀ : Client D}
    (hfd : c₀.tx.fd = true) {w h : ℕ} (hw : 0 < w) (hh : 0 < h)
    (hfit : Fits w h c₀.neg.pixfmt.bytespp) (grab₀ : Frame) (extra : UInt8) (token : UInt16)
    {old : List Sent} (hold : c₀.tx.wire = old.flatMap Sent.bytes) (es₁ es₂ : List Event)
    (hes₁ : ∀ ev ∈ es₁, ev.isQuiet = true) (hes₂ : ∀ ev ∈ es₂, ev.isQuiet = true) (g : Frame)
    {rects : List Rect}
    (hcover : ∀ x y, (Rect.full w h).Mem x y → ∃ r ∈ rects, r.Mem x y) (img : Image)
    (hmode : (step env c₀ (.modeChanged w h grab₀ extra token)).tx.xmitMode = .raw) :
    let c := run (step env) c₀
      (.modeChanged w h grab₀ extra token :: (es₁ ++ .damage g rects :: es₂))
    let new := (c.tx.log.drop c₀.tx.log.length).filter Sent.isMsg
    let fmt := c₀.neg.pixfmt
    (∀ s, Sent.opened s ∉ c.tx.log.drop c₀.tx.log.length) → c.tx.dirty = [] →
      c.tx.dirtyAll = false → c.tx.outActive = false → c.tx.outq = [] →
      c.tx.wire = (old ++ new).flatMap Sent.bytes ∧
      ((∀ px py : ℕ, px < w → py < h → new.foldl (Sent.apply env.lz4 fmt.bytespp) img px py =
          convertPixel env.dither fmt px py (c.tx.grabbuf px py)) ↔
        ∀ px py : ℕ, px < w → py < h → ¬Marked w h g rects px py →
          img px py = convertPixel env.dither fmt px py 0) := by
  intro c new fmt hraw hdirty hall hact hq
  obtain ⟨c₁, hc₁⟩ : ∃ c₁, step env c₀ (.modeChanged w h grab₀ extra token) = c₁ := ⟨_, rfl⟩
  rw [hc₁] at hmode
  obtain ⟨hneg₁, hblank, hframed⟩ := step_modeChanged img hfd hw hh hold hc₁ hmode
  have hrun : run (step env) c₁ (es₁ ++ .damage g rects :: es₂) = c := by
    rw [← hc₁]
    rfl
  have hrun' : run (step env) (step env (run (step env) c₁ es₁) (.damage g rects)) es₂ = c := by
    rw [← hrun, run_append, run_cons]
  constructor
  · -- the wire: what was sent since the mode change follows what was sent before
    have hquiet : ∀ ev ∈ es₁ ++ .damage g rects :: es₂, ev.isModeChange = false := by
      have hq : ∀ ev : Event, ev.isQuiet = true → ev.isModeChange = false := by
        rintro (_ | _) h <;> first | rfl | cases h
      intro ev hev
      rcases List.mem_append.mp hev with hev | hev
      · exact hq ev (hes₁ ev hev)
      · rcases List.mem_cons.mp hev with rfl | hev
        · rfl
        · exact hq ev (hes₂ ev hev)
    obtain ⟨more, hlog, hkeep⟩ := run_extends env (c := c₁) hquiet
    rw [hrun] at hlog hkeep
    have hnew : new = (c₁.tx.since c₀.tx.log.length).filter Sent.isMsg ++
        more.filter Sent.isMsg := by
      rw [← List.filter_append, ← Tx.since_append hblank.1.logged hlog]
      rfl
    rw [hnew, ← List.append_assoc]
    exact (hkeep _ hframed).wire_eq hact hq
  · -- the picture
    obtain ⟨hneg₂, hblank₂⟩ := run_txInvariant (R := Tx.quietRules)
      (P := fun neg t => t.Blank c₀.tx.log.length w h env img neg) (c := c₁)
      Tx.Blank.step (hneg₁ ▸ hblank) (along_quiet hes₁)
    obtain ⟨hneg₃, hpaint⟩ := step_report hz (by rw [hneg₂, hneg₁]; exact hfit)
      (hneg₂.symm ▸ hblank₂) g rects
    rw [hneg₂, hneg₁] at hneg₃ hpaint
    obtain ⟨-, hend⟩ := run_txInvariant (R := Tx.quietRules)
      (P := fun neg t => Fits w h neg.pixfmt.bytespp →
        t.Painted c₀.tx.log.length w h env img g (Marked w h g rects) neg)
      (c := step env (run (step env) c₁ es₁) (.damage g rects))
      (fun hstep ht hf => (ht hf).step hz hf hstep) (fun _ => hneg₃.symm ▸ hpaint)
      (along_quiet hes₂)
    rw [hrun', hneg₃] at hend
    obtain ⟨-, hp⟩ := hend hfit
    have hp := hp hraw
    have hpic : new.foldl (Sent.apply env.lz4 fmt.bytespp) img =
        c.tx.pictureSince c₀.tx.log.length env.lz4 fmt.bytespp img :=
      Tx.foldl_apply_msgs env.lz4 fmt.bytespp (c.tx.since c₀.tx.log.length) img
    have hnone : ∀ x y, ¬c.tx.InRegion x y := by
      intro x y hin
      simp [Tx.InRegion, hdirty, hall] at hin
    rw [hpic, hp.grab]
    constructor
    · intro hshow px py hx hy hm
      have hmem : (Rect.full w h).Mem px py := Rect.mem_full.mpr (by omega)
      have hzero := eq_zero_of_not_marked hmem (hcover px py hmem) hm
      rw [← (hp.left px py hm).2, ← hzero]
      exact hshow px py hx hy
    · intro hblack px py hx hy
      by_cases hm : Marked w h g rects px py
      · exact (hp.shown px py hm).resolve_left (hnone px py)
      · have hmem : (Rect.full w h).Mem px py := Rect.mem_full.mpr (by omega)
        rw [(hp.left px py hm).2, eq_zero_of_not_marked hmem (hcover px py hmem) hm]
        exact hblack px py hx hy hm

end Runs

/-! ## A panel that was not black -/

/-- A client of two by two pixels. -/
def Negotiated.square : Negotiated := { Negotiated.tiny with yres := 2 }

/-- A white desktop under a black bar. -/
def barred : Frame := fun _ y => if y = 0 then 0 else 0xFFFFFF

/-- The run of a first picture: the mode, the hello, the report, the rectangle. -/
def firstPicture : List Event :=
  [.modeChanged 2 2 (fun _ _ => 0) 0 0, .outReady false, .damage barred [⟨0, 0, 2, 2⟩],
    .outReady false, .outReady false]

/-- On a black panel the client shows the desktop. -/
theorem first_paint_iff_black :
    let c := run (step Env.willing) (Client.fresh .square : Client ℚ) firstPicture
    ∀ px py : ℕ, px < 2 → py < 2 →
      (c.tx.log.filter Sent.isMsg).foldl (Sent.apply Env.willing.lz4 2)
          (fun px py => convertPixel true .rgb565 px py 0) px py =
        convertPixel true .rgb565 px py (c.tx.grabbuf px py) := by
  have hfd : (Client.fresh .square : Client ℚ).tx.fd = true := rfl
  have hwire : (Client.fresh .square : Client ℚ).tx.wire = ([] : List Sent).flatMap Sent.bytes :=
    rfl
  have hcover : ∀ x y, (Rect.full 2 2).Mem x y → ∃ r ∈ [(⟨0, 0, 2, 2⟩ : Rect)], r.Mem x y :=
    fun x y hm => ⟨_, List.mem_singleton.mpr rfl, hm⟩
  have h := first_paint_iff Env.willing Lz4.literal_documented hfd (w := 2) (h := 2) (by decide)
    (by decide) ⟨by decide, by decide, by decide⟩ (fun _ _ => 0) 0 0 hwire [.outReady false]
    [.outReady false, .outReady false] (by decide) (by decide) barred hcover
    (fun px py => convertPixel true .rgb565 px py 0) (by decide +kernel)
  have hlog : (run (step Env.willing) (Client.fresh .square : Client ℚ) firstPicture).tx.log.all
      Sent.isMsg = true := by decide +kernel
  refine (h (fun s hs => ?_) (by decide +kernel) (by decide +kernel) (by decide +kernel)
    (by decide +kernel)).2.mpr (fun _ _ _ _ _ => rfl)
  exact absurd (List.all_eq_true.mp hlog _ hs) (by simp [Sent.isMsg])

/-- **A white panel keeps its first row.**  The bar of the desktop is black, so its row is
trimmed away and the panel stays white there. -/
theorem white_panel_keeps_first_row :
    let c := run (step Env.willing) (Client.fresh .square : Client ℚ) firstPicture
    let white : Image := fun px py => convertPixel true .rgb565 px py 0xFFFFFF
    c.tx.log.all Sent.isMsg = true ∧ c.tx.xmitMode = .raw ∧ c.tx.dirty = [] ∧
      c.tx.dirtyAll = false ∧ c.tx.outActive = false ∧ c.tx.outq = [] ∧
      c.tx.wire = (c.tx.log.filter Sent.isMsg).flatMap Sent.bytes ∧
      (c.tx.log.filter Sent.isMsg).foldl (Sent.apply Env.willing.lz4 2) white 0 0 ≠
        convertPixel true .rgb565 0 0 (c.tx.grabbuf 0 0) := by
  decide +kernel

end Sremfb
