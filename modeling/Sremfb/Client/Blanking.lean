import Sremfb.Client.PageFlip

/-!
# What is on the panel after a BLANK (`set_blank`, `drm_blank`, `fb_blank`)

BLANK turns the panel off.  Where a backend cannot do that it paints the panel black instead, and
nothing brings the picture back: UNBLANK writes no pixel, and the server (`on_dpms`) only forwards
the message, believing that the client still shows what it was sent.  The KVM backend repaints its
clients when the signal returns; the EVDI one does not.

`Screen` is the panel as a history of messages: the composition of the rectangles, and the pixels
painted black since each was last covered.  `screen_run` says that the client's panel is exactly
that, and `unblanked_iff` what follows for the claim that a blanked panel keeps its picture.
-/

namespace Sremfb

open Lib

namespace Output

/-- `blank` has no control over the panel and paints it black. -/
def paints (disp : Display) : Output → Bool
  | .fb _ => !disp.fbBlank
  | .drm d => !d.dpmsProp

@[simp] lemma paints_beginBatch (disp : Display) (full : Bool) (o : Output) :
    (o.beginBatch full).paints disp = o.paints disp := by
  cases o <;> rfl

@[simp] lemma paints_patch (disp : Display) (ws : List (ℕ × List UInt8)) (o : Output) :
    (o.patch ws).paints disp = o.paints disp := by
  cases o <;> rfl

@[simp] lemma paints_present (disp : Display) (r : Flip) (o : Output) :
    (o.present r).paints disp = o.paints disp := by
  cases o with
  | fb mem => rfl
  | drm d =>
      obtain ⟨d', hd', -, hprop⟩ := present_drm d r
      rw [hd']
      simp only [paints, hprop]

@[simp] lemma paints_blank (disp disp' : Display) (on : Bool) (o : Output) :
    (o.blank disp' on).paints disp = o.paints disp := by
  cases o with
  | fb mem =>
      simp only [blank]
      split_ifs
      · rfl
      · rfl
      · rfl
  | drm d =>
      simp only [blank]
      split_ifs
      · rfl
      · rfl
      · rfl

/-- Either the picture stays under a BLANK, or every byte of it is zero. -/
lemma visible_blank (disp : Display) (o : Output) :
    (o.blank disp true).visible = if o.paints disp then fun _ => 0 else o.visible := by
  cases o with
  | fb mem => cases h : disp.fbBlank <;> simp [blank, paints, visible, h]
  | drm d => cases h : d.dpmsProp <;> simp [blank, paints, visible, h]

end Output

namespace SbcStream

variable {k : SbcStream}

/-- A black pixel: its bytes are zero. -/
def blackPixel (k : SbcStream) : List UInt8 := List.replicate k.pixfmt.bytespp 0

/-- A BLANK at this point paints the panel black. -/
def paints (k : SbcStream) (disp : Display) (s : SbcState) : Bool :=
  !k.testMode && s.out.paints disp

lemma image_setBlank (disp : Display) (s : SbcState) (x y : ℕ) :
    k.image (s.setBlank k.toSbc disp true) x y =
      if s.blanked = false ∧ k.paints disp s = true then k.blackPixel else k.image s x y := by
  unfold SbcState.setBlank paints image
  cases hb : s.blanked with
  | true => simp
  | false =>
      cases ht : k.testMode with
      | true => simp
      | false =>
          simp only [Bool.true_eq_false, Bool.false_eq_true, if_false, Output.visible_blank]
          cases hp : s.out.paints disp with
          | false => simp
          | true => simp [pixels, ht, blackPixel, Sbc.pixfmt, cell, List.map_const']

lemma paints_setBlank (disp disp' : Display) (on : Bool) (s : SbcState) :
    k.paints disp (s.setBlank k.toSbc disp' on) = k.paints disp s := by
  unfold SbcState.setBlank paints
  split_ifs
  · rfl
  · rfl
  · simp

@[simp] lemma blanked_setBlank (disp : Display) (on : Bool) (s : SbcState) :
    (s.setBlank k.toSbc disp on).blanked = on := by
  unfold SbcState.setBlank
  split_ifs with h
  · exact h.symm
  · rfl
  · rfl

/-- A rectangle ends with the panel on, and the panel stays what it was. -/
lemma frameRect_blanked {z : Lz4} {o : SbcWorld} {hdr : FrameHdr} {s : SbcState}
    {inp : List UInt8} {r : SbcState × List UInt8} (h : k.frameRect z o hdr s inp = .ok r) :
    r.1.blanked = false ∧ ∀ disp, k.paints disp r.1 = k.paints disp s := by
  unfold frameRect at h
  dsimp only at h
  split at h
  · cases h
  split at h
  · cases h
  rename_i t rest hpix
  obtain rfl := Except.ok.inj h
  refine ⟨blanked_setBlank .., fun disp => ?_⟩
  dsimp only
  rw [paints_setBlank]
  cases ht : k.testMode with
  | true => simp [paints, ht]
  | false =>
      have hdrawn : t.out = _ := congrArg SbcState.out (framePixels_state ht hpix)
      simp [paints, ht, SbcState.outPresent, hdrawn, blitRows_eq, SbcState.outBegin]

lemma frameBody_blanked {z : Lz4} {o : SbcWorld} {hdr : FrameHdr} {s : SbcState}
    {inp : List UInt8} {r : SbcState × List UInt8}
    (henc : hdr.encoding = Encoding.raw.code ∨ hdr.encoding = Encoding.lz4.code)
    (h : k.frameBody z o hdr s inp = .ok r) :
    r.1.blanked = false ∧ ∀ disp, k.paints disp r.1 = k.paints disp s := by
  have hrect : k.frameRect z o hdr s inp = .ok r := by
    unfold frameBody at h
    split at h
    · cases h
    · rcases henc with henc | henc
      · simpa [henc, Encoding.code] using h
      · simpa [henc, Encoding.code] using h
  exact frameRect_blanked hrect

/-- What the server sends, one message in one round of the loop; the display answers. -/
def receive (k : SbcStream) (env : Env) (neg : Negotiated) (s : SbcState)
    (e : Message × Display) : SbcState :=
  match k.frameMsg env.lz4 { display := e.2 } s (e.1.bytes env neg k.streamW k.streamH) with
  | .ok (s, _) => s
  | .error s => s

end SbcStream

lemma rectMessage_encoding (env : Env) (neg : Negotiated) (f : Frame) (r : Rect) :
    (rectMessage env neg f r).1.encoding = Encoding.raw.code ∨
      (rectMessage env neg f r).1.encoding = Encoding.lz4.code := by
  unfold rectMessage rectPayload
  dsimp only
  split_ifs
  · split
    · split_ifs
      · exact .inr rfl
      · exact .inl rfl
    · exact .inl rfl
  · exact .inl rfl

/-! ## The panel as a history -/

/-- A rectangle, BLANK or UNBLANK. -/
def Message.IsPanel : Message → Prop
  | .rect _ _ | .blank | .unblank => True
  | _ => False

/-- What the messages so far make of a panel. -/
structure Screen where
  /-- The composition of the rectangles. -/
  picture : Image
  blanked : Bool
  /-- Painted black by a BLANK and not covered since. -/
  black : ℕ → ℕ → Prop

/-- One more message; `paints` says what a BLANK does. -/
def Screen.message (env : Env) (fmt : PixFmt) (paints : Bool) (c : Screen) : Message → Screen
  | .rect f r =>
      { picture := c.picture.paint env.dither fmt f r
        blanked := false
        black := fun x y => c.black x y ∧ ¬r.Mem x y }
  | .blank =>
      if c.blanked then c
      else { c with blanked := true, black := fun x y => paints = true ∨ c.black x y }
  | .unblank => { c with blanked := false }
  | .ping _ | .au _ _ | .eos => c

/-- The client's panel is the one of this history, on a backend that paints when `paints` says
so. -/
structure SbcStream.Screened (k : SbcStream) (paints : Display → Bool) (s : SbcState)
    (c : Screen) : Prop where
  blanked : s.blanked = c.blanked
  paints : ∀ disp, k.paints disp s = paints disp
  black : ∀ x y, k.Keeps x y → c.black x y → k.image s x y = k.blackPixel
  shown : ∀ x y, k.Keeps x y → ¬c.black x y → k.image s x y = c.picture x y

section Run

variable {env : Env} {sh : ServerHello} {k : Sbc} {k' : SbcStream} {broken : Bool}

/-- **One message.** -/
lemma SbcStream.Screened.receive {p : Display → Bool} {s : SbcState} {c : Screen}
    (hc : k'.Screened p s c) (hz : env.lz4.Documented) (hk : k.helloExchange sh = some k')
    (hsize : sh.width.toNat * sh.height.toNat * k.pixfmt.bytespp ≤ 0x7E000000)
    {e : Message × Display}
    (hm : e.1.Built (.ofHello (k.hello broken)) sh.width.toNat sh.height.toNat)
    (hpanel : e.1.IsPanel) (hflip : e.2.flip ≠ .refused) :
    k'.Screened p (k'.receive env (.ofHello (k.hello broken)) s e)
      (c.message env k.pixfmt (p e.2) e.1) := by
  obtain ⟨rfl, hw, hh⟩ := Sbc.helloExchange_spec hk
  obtain ⟨m, disp⟩ := e
  unfold SbcStream.receive
  dsimp only at hm hpanel hflip ⊢
  cases m with
  | rect f r =>
      have ho : SbcWorld.Works { display := disp } :=
        ⟨rfl, rfl, rfl, fun _ _ _ => rfl, rfl, hflip⟩
      obtain ⟨s', hs', himg⟩ := Sbc.accepts hz hk hsize hm trivial ho s []
      rw [List.append_nil] at hs'
      rw [hw, hh, hs']
      have hfacts := hs'
      rw [Message.bytes, SbcStream.frameMsg_bytes] at hfacts
      obtain ⟨hon, hpaints⟩ := SbcStream.frameBody_blanked (rectMessage_encoding ..) hfacts
      refine ⟨hon, fun disp => (hpaints disp).trans (hc.paints disp), ?_, ?_⟩
      · rintro x y hkeep ⟨hblack, hout⟩
        rw [himg f r rfl x y hkeep, Image.paint, if_neg hout, hc.black x y hkeep hblack]
      · intro x y hkeep hshown
        rw [himg f r rfl x y hkeep]
        simp only [Screen.message, Image.paint]
        split_ifs with hin
        · rfl
        · exact hc.shown x y hkeep fun hblack => hshown ⟨hblack, hin⟩
  | blank =>
      rw [Message.bytes, ctrlMsg, ← List.append_nil (FrameHdr.bytes _), SbcStream.frameMsg_bytes]
      have hstep : k'.frameBody env.lz4 { display := disp }
          { encoding := Encoding.blank.code } s [] = .ok (s.setBlank k'.toSbc disp true, []) := rfl
      rw [hstep]
      have hb := hc.blanked
      unfold Screen.message
      cases hon : c.blanked with
      | true =>
          have hsame : s.setBlank k'.toSbc disp true = s := by
            rw [SbcState.setBlank, if_pos (by rw [hb, hon])]
          rw [hsame]
          exact hc
      | false =>
          rw [hon] at hb
          refine ⟨SbcStream.blanked_setBlank .., fun disp => ?_, ?_, ?_⟩
          · exact (SbcStream.paints_setBlank ..).trans (hc.paints disp)
          · intro x y hkeep hblack
            dsimp only
            rw [SbcStream.image_setBlank, hc.paints]
            split_ifs with hpaint
            · rfl
            · exact hc.black x y hkeep (hblack.resolve_left fun h => hpaint ⟨hb, h⟩)
          · intro x y hkeep hshown
            obtain ⟨hpaint, hblack⟩ := not_or.mp hshown
            dsimp only
            rw [SbcStream.image_setBlank, hc.paints, if_neg fun h => hpaint h.2]
            exact hc.shown x y hkeep hblack
  | unblank =>
      rw [Message.bytes, ctrlMsg, ← List.append_nil (FrameHdr.bytes _), SbcStream.frameMsg_bytes]
      have hstep : k'.frameBody env.lz4 { display := disp }
          { encoding := Encoding.unblank.code } s [] = .ok (s.setBlank k'.toSbc disp false, []) := rfl
      rw [hstep]
      refine ⟨SbcStream.blanked_setBlank .., fun disp => ?_, ?_, ?_⟩
      · exact (SbcStream.paints_setBlank ..).trans (hc.paints disp)
      · intro x y hkeep hblack
        dsimp only
        rw [SbcStream.image_unblank]
        exact hc.black x y hkeep hblack
      · intro x y hkeep hshown
        dsimp only
        rw [SbcStream.image_unblank]
        exact hc.shown x y hkeep hshown
  | ping t => exact hpanel.elim
  | au nal idr => exact hpanel.elim
  | eos => exact hpanel.elim

/-- The history of a run, from what is on the panel at its start. -/
def SbcStream.screen (k' : SbcStream) (env : Env) (s : SbcState)
    (es : List (Message × Display)) : Screen :=
  run (fun c e => c.message env k'.pixfmt (k'.paints e.2 s) e.1)
    { picture := k'.image s, blanked := s.blanked, black := fun _ _ => False } es

/-- The server built the messages for this panel, and the driver shows what it is given. -/
def PanelRun (k : Sbc) (broken : Bool) (sh : ServerHello) (es : List (Message × Display)) :
    Prop :=
  ∀ e ∈ es, e.1.Built (.ofHello (k.hello broken)) sh.width.toNat sh.height.toNat ∧
    e.1.IsPanel ∧ e.2.flip ≠ .refused

/-- **The panel is its history.** -/
theorem screened_run (hz : env.lz4.Documented) (hk : k.helloExchange sh = some k')
    (hsize : sh.width.toNat * sh.height.toNat * k.pixfmt.bytespp ≤ 0x7E000000) (s : SbcState)
    {es : List (Message × Display)} (hes : PanelRun k broken sh es) :
    k'.Screened (fun disp => k'.paints disp s)
      (run (k'.receive env (.ofHello (k.hello broken))) s es) (k'.screen env s es) := by
  have hfmt : k'.pixfmt = k.pixfmt := by
    obtain ⟨rfl, -, -⟩ := Sbc.helloExchange_spec hk
    rfl
  refine run_related (fun s c e he hc => ?_)
    ⟨rfl, fun _ => rfl, fun _ _ _ h => h.elim, fun _ _ _ _ => rfl⟩ hes
  obtain ⟨hm, hpanel, hflip⟩ := he
  rw [hfmt]
  exact hc.receive hz hk hsize hm hpanel hflip

/-- On a panel that can be powered down nothing is painted over. -/
lemma SbcStream.not_black_of_not_paints {s : SbcState} {es : List (Message × Display)}
    (h : ∀ e ∈ es, k'.paints e.2 s = false) (x y : ℕ) : ¬(k'.screen env s es).black x y := by
  refine run_invariant (P := fun c : Screen => ¬c.black x y) (fun c e he hc => ?_) not_false
    (along_of_forall h)
  obtain ⟨m, o⟩ := e
  cases m with
  | rect f r => exact fun hb => hc hb.1
  | blank =>
      simp only [Screen.message]
      split_ifs
      · exact hc
      · rintro (hp | hb)
        · rw [he] at hp
          cases hp
        · exact hc hb
  | unblank | ping t | au nal idr | eos => exact hc

/-- **What a blanked panel keeps.**  Whenever the panel is on it shows the composition of all
rectangles so far, if and only if whatever a BLANK painted black, and no rectangle has covered
since, is black in the composition too. -/
theorem unblanked_iff (env : Env) (hz : env.lz4.Documented) (sh : ServerHello) (k : Sbc)
    (broken : Bool) (k' : SbcStream) (hk : k.helloExchange sh = some k')
    (hsize : sh.width.toNat * sh.height.toNat * k.pixfmt.bytespp ≤ 0x7E000000) (s : SbcState)
    (es : List (Message × Display)) (hes : PanelRun k broken sh es) :
    (∀ n, (run (k'.receive env (.ofHello (k.hello broken))) s (es.take n)).blanked = false →
        Image.AgreeOn k'.Keeps
          (k'.image (run (k'.receive env (.ofHello (k.hello broken))) s (es.take n)))
          (k'.screen env s (es.take n)).picture) ↔
      ∀ n, (k'.screen env s (es.take n)).blanked = false → ∀ x y, k'.Keeps x y →
        (k'.screen env s (es.take n)).black x y →
          (k'.screen env s (es.take n)).picture x y = k'.blackPixel := by
  refine forall_congr' fun n => ?_
  have htake : PanelRun k broken sh (es.take n) := fun e he => hes e (List.mem_of_mem_take he)
  have hc := screened_run hz hk hsize s htake
  rw [hc.blanked]
  refine forall_congr' fun _ => ?_
  constructor
  · intro h x y hkeep hblack
    rw [← h x y hkeep, hc.black x y hkeep hblack]
  · intro h x y hkeep
    by_cases hblack : (k'.screen env s (es.take n)).black x y
    · rw [hc.black x y hkeep hblack, h x y hkeep hblack]
    · exact hc.shown x y hkeep hblack

/-- A blue frame, then the panel goes off and on again. -/
def PanelRun.blink (disp : Display) : List (Message × Display) :=
  [(.rect (fun _ _ => 255) ⟨0, 0, 2, 1⟩, {}), (.blank, disp), (.unblank, {})]

/-- On a framebuffer whose driver cannot power down the blue frame does not come back. -/
theorem black_after_unblank :
    ¬∀ n, (run (SbcStream.tiny.receive Env.willing (.ofHello (Sbc.tiny.hello false)))
          { out := .fb fun _ => 0 } ((PanelRun.blink { fbBlank := false }).take n)).blanked =
        false →
      Image.AgreeOn SbcStream.tiny.Keeps
        (SbcStream.tiny.image (run (SbcStream.tiny.receive Env.willing
          (.ofHello (Sbc.tiny.hello false))) { out := .fb fun _ => 0 }
            ((PanelRun.blink { fbBlank := false }).take n)))
        (SbcStream.tiny.screen Env.willing { out := .fb fun _ => 0 }
          ((PanelRun.blink { fbBlank := false }).take n)).picture := by
  intro h
  have hkeeps : SbcStream.tiny.Keeps 0 0 :=
    ⟨by decide, by decide, .inr (by simp [SbcStream.OnPanel, SbcStream.tiny, Sbc.tiny])⟩
  exact absurd (h 3 (by decide +kernel) 0 0 hkeeps) (by decide +kernel)

/-- On a panel that can be powered down it does. -/
theorem unblanked_blue :
    SbcStream.tiny.image (run (SbcStream.tiny.receive Env.willing
      (.ofHello (Sbc.tiny.hello false))) SbcStream.blackDrm (PanelRun.blink {})) 1 0 =
        [255, 0, 0, 0] := by
  have hes : PanelRun Sbc.tiny false { width := 2, height := 1, pixfmt := 0, flags := 0 }
      (PanelRun.blink {}) := by
    unfold PanelRun PanelRun.blink
    simp only [List.forall_mem_cons]
    have hin : Rect.Inside ⟨0, 0, 2, 1⟩ 2 1 := by decide
    exact ⟨⟨hin, trivial, by decide⟩, ⟨trivial, trivial, by decide⟩, ⟨trivial, trivial, by decide⟩,
      fun _ h => absurd h List.not_mem_nil⟩
  have hkeeps : SbcStream.tiny.Keeps 1 0 :=
    ⟨by decide, by decide, .inr (by simp [SbcStream.OnPanel, SbcStream.tiny, Sbc.tiny])⟩
  have hkept := (unblanked_iff Env.willing Lz4.literal_documented
    { width := 2, height := 1, pixfmt := 0, flags := 0 } Sbc.tiny false SbcStream.tiny rfl
    (by decide) SbcStream.blackDrm (PanelRun.blink {}) hes).mpr
    (fun n _ x y _ hblack => absurd hblack
      (SbcStream.not_black_of_not_paints (fun _ _ => rfl) x y))
    3 (by decide +kernel) 1 0 hkeeps
  exact hkept.trans (by decide +kernel)

end Run

end Sremfb
