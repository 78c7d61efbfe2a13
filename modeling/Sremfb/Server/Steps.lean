import Sremfb.Server.Events

/-!
# What a callback can do

The callbacks of the event loop are long and call each other in both directions, so invariants
are not proved against their text.  This file says once what they are made of.

`TxAct` lists the actions on the transmit state that keep the mode: queueing a message, taking
damage, building a frame when nothing is in flight and the queue is empty, sending a piece of a
frame or of the queue's head, retiring either.  `TxStep` adds the mode switches, of which the
one after an encoder failure is a single action with the failed build.  This is an abstract
transmitter: it leaves open when each action is taken.  `Micro` is the same for a whole client,
with an evaluation of the controller as one action.

`step_chain` is the connection to the code: every callback but a compositor mode change is a
chain of `Micro` actions, and `Micro.txChain` that each of those is, on the transmit side, a
chain of `TxStep`.  An invariant that every action keeps is therefore kept by every run
(`run_txInvariant`).

`Rules` restricts the outside where a result needs it to behave: which control messages other
parts of the server queue, what the source may report, whether the encoder may fail or return
nothing, and whether decisions are taken outside the controller.
-/

namespace Sremfb

open Lib Relation

variable {D : Type}

/-! ## Builds, on the transmit side -/

namespace Tx

/-- The transmit side of `build_raw_rect`. -/
def builtRect (env : Env) (neg : Negotiated) (t : Tx) (r : Rect) : Tx :=
  let m := rectMessage env neg t.grabbuf r
  { t.shadowUpdate r with sendbuf := m.1.bytes ++ m.2 }.frameStart
    (frameHdrSize + m.2.length) 0 (.rect m.1 m.2)

/-- The transmit side of an encode that gave an access unit. -/
def builtAu (t : Tx) (nal : List UInt8) (idr : Bool) : Tx :=
  let t' := t.shadowUpdate (Rect.full t.width t.height)
  { t' with
    forceIdr := false
    encbuf := nal
    sendbuf := (auHeader t nal idr).bytes }.frameStart frameHdrSize nal.length
      (.au (auHeader t nal idr) nal t.forceIdr)

/-- The transmit side of an encode that gave nothing. -/
def builtNothing (t : Tx) : Tx :=
  { t.shadowUpdate (Rect.full t.width t.height) with forceIdr := false, encbuf := [] }

/-- The transmit side of an encode that failed: back to RAW. -/
def encodeFailed (t : Tx) : Tx :=
  { t.builtNothing with h264Failed := true }.leaveH264

@[simp] lemma builtRect_log (env : Env) (neg : Negotiated) (t : Tx) (r : Rect) :
    (t.builtRect env neg r).log = t.log ++
      [.rect (rectMessage env neg t.grabbuf r).1 (rectMessage env neg t.grabbuf r).2] := by
  obtain ⟨f, hf⟩ := t.shadowUpdate_eq r
  simp [builtRect, frameStart, hf]

@[simp] lemma builtAu_log (t : Tx) (nal : List UInt8) (idr : Bool) :
    (t.builtAu nal idr).log = t.log ++ [.au (auHeader t nal idr) nal t.forceIdr] := by
  obtain ⟨f, hf⟩ := t.shadowUpdate_eq (Rect.full t.width t.height)
  simp [builtAu, frameStart, hf]

lemma builtNothing_eq (t : Tx) :
    ∃ f, t.builtNothing = { t with shadowbuf := f, forceIdr := false, encbuf := [] } := by
  obtain ⟨f, hf⟩ := t.shadowUpdate_eq (Rect.full t.width t.height)
  exact ⟨f, by rw [builtNothing, hf]⟩

@[simp] lemma builtNothing_log (t : Tx) : t.builtNothing.log = t.log := by
  obtain ⟨f, hf⟩ := t.builtNothing_eq
  rw [hf]

end Tx

/-! ## The abstract transmitter -/

/-- What the outside is allowed to do. -/
structure Rules where
  ctrl : List UInt8 → Prop := fun _ => True
  damage : Tx → Frame → List Rect → Prop := fun _ _ _ => True
  repaint : Prop := True
  encoderEmpty : Prop := True
  encoderFails : Prop := True
  decisions : Prop := True

/-- The transmitter may start a frame: nothing in flight, nothing queued. -/
structure Tx.Ready (t : Tx) : Prop where
  idle : t.outActive = false
  drained : t.outq = []
  streaming : t.state = .streaming
  bufs : t.bufs = true

/-- The actions on the transmit state that keep the mode. -/
inductive TxAct (env : Env) (neg : Negotiated) (R : Rules) : Tx → Tx → Prop
  | ctrl {t} (m : List UInt8) (h : R.ctrl m) : TxAct env neg R t (t.xmitCtrl m)
  /-- Bookkeeping: watches, the encoder handle, counters. -/
  | aux {t} (w r f e : Bool) (n : ℕ) : TxAct env neg R t
      { t with outWatch := w, outRetry := r, h264Failed := f, enc := e, wireTotal := n }
  | lose {t} : TxAct env neg R t t.scheduleClientLost
  | damage {t} (grab : Frame) (rects : List Rect) (h : R.damage t grab rects) :
      TxAct env neg R t ({ t with grabbuf := grab }.damageRects neg.pixfmt.bytespp rects).1
  | repaint {t} (grab : Frame) (h : R.repaint) : TxAct env neg R t
      { t with grabbuf := grab, dirtyAll := true }
  | snapshot {t} (hr : t.Ready) (hm : t.xmitMode = .raw) (hd : t.dirtyAll = true) :
      TxAct env neg R t
        ({ t with dirtyAll := false, dirty := [] }.builtRect env neg
          (Rect.full t.width t.height))
  | rect {t} (r : Rect) (ds : List Rect) (hr : t.Ready) (hm : t.xmitMode = .raw)
      (ha : t.dirtyAll = false) (hd : t.dirty = r :: ds) :
      TxAct env neg R t ({ t with dirty := ds }.builtRect env neg r)
  | encodeAu {t} (nal : List UInt8) (idr : Bool) (hn : nal ≠ []) (hr : t.Ready)
      (hm : t.xmitMode = .h264) :
      TxAct env neg R t ({ t with dirtyAll := false, dirty := [] }.builtAu nal idr)
  | encodeNothing {t} (h : R.encoderEmpty) (hr : t.Ready) (hm : t.xmitMode = .h264) :
      TxAct env neg R t { t with dirtyAll := false, dirty := [] }.builtNothing
  | sendFrame {t} (n : ℕ) (ha : t.outActive = true) (ho : t.outOff < t.segLen0 + t.segLen1)
      (hn : n ≤ t.segRest.length) : TxAct env neg R t
      { t with wire := t.wire ++ t.segRest.take n, outOff := t.outOff + n }
  | frameDone {t} (ha : t.outActive = true) (ho : t.segLen0 + t.segLen1 ≤ t.outOff) :
      TxAct env neg R t { t with outActive := false, outOff := 0 }
  | sendHead {t} (b : List UInt8) (q : List (List UInt8)) (n : ℕ) (ha : t.outActive = false)
      (hq : t.outq = b :: q) (hn : n ≤ (b.drop t.outqOff).length) : TxAct env neg R t
      { t with wire := t.wire ++ (b.drop t.outqOff).take n, outqOff := t.outqOff + n }
  | popHead {t} (b : List UInt8) (q : List (List UInt8)) (ha : t.outActive = false)
      (hq : t.outq = b :: q) (ho : b.length ≤ t.outqOff) : TxAct env neg R t
      { t with outq := q, outqOff := 0 }

/-- The actions of the transmitter, mode switches included. -/
inductive TxStep (env : Env) (neg : Negotiated) (R : Rules) : Tx → Tx → Prop
  | act {t t'} (h : TxAct env neg R t t') : TxStep env neg R t t'
  | enter {t} (now : ℤ) (hs : t.state = .streaming) (hm : t.xmitMode = .raw) :
      TxStep env neg R t (t.enterH264 now)
  | leave {t} (hs : t.state = .streaming) (hm : t.xmitMode = .h264) :
      TxStep env neg R t t.leaveH264
  | encodeFail {t} (h : R.encoderFails) (hr : t.Ready) (hm : t.xmitMode = .h264) :
      TxStep env neg R t { t with dirtyAll := false, dirty := [] }.encodeFailed

/-- What no action changes: the geometry, the buffers, the state of the connection. -/
structure Tx.SameStream (t t' : Tx) : Prop where
  width : t'.width = t.width
  height : t'.height = t.height
  bufs : t'.bufs = t.bufs
  state : t'.state = t.state
  fd : t'.fd = t.fd

def Tx.stream (t : Tx) := (t.width, t.height, t.bufs, t.state, t.fd)

lemma Tx.sameStream_of_eq {t t' : Tx} (h : t'.stream = t.stream) : t.SameStream t' := by
  simp only [Tx.stream, Prod.mk.injEq] at h
  obtain ⟨hw, hh, hb, hs, hf⟩ := h
  exact ⟨hw, hh, hb, hs, hf⟩

lemma Tx.sameStream_leaveH264 (t : Tx) : t.SameStream t.leaveH264 := by
  obtain ⟨-, h⟩ | ⟨-, -, w, h⟩ := t.leaveH264_cases
  · rw [h]
    exact Tx.sameStream_of_eq rfl
  · rw [h]
    exact Tx.sameStream_of_eq rfl

lemma Tx.sameStream_xmitCtrl (t : Tx) (m : List UInt8) : t.SameStream (t.xmitCtrl m) := by
  obtain ⟨-, h⟩ | ⟨-, -, w, h⟩ := t.xmitCtrl_cases m
  · rw [h]
    exact Tx.sameStream_of_eq rfl
  · rw [h]
    exact Tx.sameStream_of_eq rfl

lemma Tx.sameStream_sendCtrl (t : Tx) (e : Encoding) : t.SameStream (t.sendCtrl e) := by
  unfold Tx.sendCtrl
  split
  · exact Tx.sameStream_of_eq rfl
  · exact t.sameStream_xmitCtrl _

lemma Tx.SameStream.shadowUpdate (t : Tx) (r : Rect) : t.SameStream (t.shadowUpdate r) := by
  obtain ⟨f, h⟩ := t.shadowUpdate_eq r
  rw [h]
  exact Tx.sameStream_of_eq rfl

lemma Tx.SameStream.trans {t t' t'' : Tx} (h : t.SameStream t') (h' : t'.SameStream t'') :
    t.SameStream t'' :=
  ⟨h'.width.trans h.width, h'.height.trans h.height, h'.bufs.trans h.bufs,
    h'.state.trans h.state, h'.fd.trans h.fd⟩

lemma TxAct.sameStream {env : Env} {neg : Negotiated} {R : Rules} {t t' : Tx}
    (h : TxAct env neg R t t') : t.SameStream t' := by
  cases h with
  | ctrl m => exact t.sameStream_xmitCtrl m
  | damage grab rects =>
      obtain ⟨ds, a, h⟩ := Tx.damageRects_eq neg.pixfmt.bytespp { t with grabbuf := grab } rects
      rw [h]
      exact Tx.sameStream_of_eq rfl
  | snapshot | rect | encodeAu | encodeNothing =>
      obtain ⟨h1, h2, h3, h4, h5⟩ := Tx.SameStream.shadowUpdate _ _
      exact ⟨h1, h2, h3, h4, h5⟩
  | aux | lose | repaint | sendFrame | frameDone | sendHead | popHead =>
      exact Tx.sameStream_of_eq rfl

lemma TxAct.xmitMode {env : Env} {neg : Negotiated} {R : Rules} {t t' : Tx}
    (h : TxAct env neg R t t') : t'.xmitMode = t.xmitMode := by
  cases h with
  | ctrl m =>
      obtain ⟨-, h⟩ | ⟨-, -, w, h⟩ := t.xmitCtrl_cases m
      · rw [h]
      · rw [h]
  | damage grab rects =>
      obtain ⟨ds, a, h⟩ := Tx.damageRects_eq neg.pixfmt.bytespp { t with grabbuf := grab } rects
      rw [h]
  | snapshot | rect | encodeAu | encodeNothing =>
      exact Tx.shadowUpdate_xmitMode _ _
  | aux | lose | repaint | sendFrame | frameDone | sendHead | popHead => rfl

lemma TxStep.sameStream {env : Env} {neg : Negotiated} {R : Rules} {t t' : Tx}
    (h : TxStep env neg R t t') : t.SameStream t' := by
  cases h with
  | act h => exact h.sameStream
  | enter =>
      rw [Tx.enterH264_eq]
      exact Tx.sameStream_of_eq rfl
  | leave => exact t.sameStream_leaveH264
  | encodeFail =>
      refine .trans ?_ (Tx.sameStream_leaveH264 _)
      obtain ⟨h1, h2, h3, h4, h5⟩ := Tx.SameStream.shadowUpdate
        { t with dirtyAll := false, dirty := [] } (Rect.full t.width t.height)
      exact ⟨h1, h2, h3, h4, h5⟩

lemma Tx.Switched.sameStream {t t' : Tx} (h : t.Switched t') : t.SameStream t' := by
  cases h with
  | same | failed => exact Tx.sameStream_of_eq rfl
  | leave => exact t.sameStream_leaveH264
  | enter hs hm now =>
      rw [Tx.enterH264_eq]
      exact Tx.sameStream_of_eq rfl

/-- The entries an action puts into the log: at most one, a control message of the rules or the
EOS, a switch, the rectangle taken from the region, or an access unit of the whole frame. -/
inductive Tx.Logs (env : Env) (neg : Negotiated) (R : Rules) (t : Tx) : List Sent → Prop
  | nothing : Logs env neg R t []
  | ctrl (m : List UInt8) (h : R.ctrl m ∨ m = eosMsg ∧ t.xmitMode = .h264) :
      Logs env neg R t [.ctrl m]
  | opened (now : ℤ) : Logs env neg R t [.opened now]
  | rect (r : Rect) (h : r = Rect.full t.width t.height ∨ r ∈ t.dirty) : Logs env neg R t
      [.rect (rectMessage env neg t.grabbuf r).1 (rectMessage env neg t.grabbuf r).2]
  | au (nal : List UInt8) (idr : Bool) (hn : nal ≠ []) (hm : t.xmitMode = .h264) :
      Logs env neg R t [.au (auHeader t nal idr) nal t.forceIdr]

lemma Tx.leaveH264_log (t : Tx) :
    t.leaveH264.log = t.log ∨ t.leaveH264.log = t.log ++ [.ctrl eosMsg] := by
  obtain ⟨-, h⟩ | ⟨-, -, w, h⟩ := t.leaveH264_cases
  · exact .inl (by rw [h])
  · exact .inr (by rw [h])

lemma TxStep.logs {env : Env} {neg : Negotiated} {R : Rules} {t t' : Tx}
    (h : TxStep env neg R t t') : ∃ new, t'.log = t.log ++ new ∧ t.Logs env neg R new := by
  have hnone : t'.log = t.log → ∃ new, t'.log = t.log ++ new ∧ t.Logs env neg R new :=
    fun hl => ⟨[], by simp [hl], .nothing⟩
  cases h with
  | leave hs hm =>
      rcases t.leaveH264_log with h | h
      · exact hnone h
      · exact ⟨_, h, .ctrl _ (.inr ⟨rfl, hm⟩)⟩
  | encodeFail _ hr hm =>
      rcases Tx.leaveH264_log _ with h | h
      · exact hnone (h.trans (by simp))
      · exact ⟨_, h.trans (by simp), .ctrl _ (.inr ⟨rfl, hm⟩)⟩
  | enter now => exact ⟨_, by rw [Tx.enterH264_eq], .opened now⟩
  | act h =>
      cases h with
      | ctrl m hm =>
          obtain ⟨-, h⟩ | ⟨-, -, w, h⟩ := t.xmitCtrl_cases m
          · exact hnone (by rw [h])
          · exact ⟨_, by rw [h], .ctrl m (.inl hm)⟩
      | damage grab rects =>
          obtain ⟨ds, a, h⟩ := Tx.damageRects_eq neg.pixfmt.bytespp { t with grabbuf := grab } rects
          exact hnone (by rw [h])
      | snapshot => exact ⟨_, Tx.builtRect_log .., .rect _ (.inl rfl)⟩
      | rect r ds hr hm ha hd => exact ⟨_, Tx.builtRect_log .., .rect r (.inr (by simp [hd]))⟩
      | encodeAu nal idr hn hr hm => exact ⟨_, Tx.builtAu_log .., .au nal idr hn hm⟩
      | encodeNothing => exact hnone (Tx.builtNothing_log _)
      | aux | lose | repaint | sendFrame | frameDone | sendHead | popHead => exact hnone rfl

/-! ## Actions of a client -/

/-- The part of the controller its state machine runs on. -/
def Ctl.core (k : Ctl D) : CtlState × ℤ × ℤ := (k.state, k.sinceUs, k.calmUs)

/-- The actions a callback is made of. -/
inductive Micro [CDouble D] (env : Env) (R : Rules) : Client D → Client D → Prop
  | act {c t} (h : TxAct env c.neg R c.tx t) : Micro env R c { c with tx := t }
  /-- The clock is read, or estimates and timers are updated. -/
  | measure {c} (k : Ctl D) (n : ℕ) (hk : k.core = c.ctl.core) (hn : c.tick ≤ n) :
      Micro env R c { c with ctl := k, tick := n }
  | evaluate {c} : Micro env R c (ctlEvaluate env c)
  | decision {c} (m : XmitMode) (h : R.decisions) : Micro env R c (xmitSetMode env c m)
  | encodeFail {c} (n : ℕ) (h : R.encoderFails) (hr : c.tx.Ready)
      (hm : c.tx.xmitMode = .h264) (hn : c.tick ≤ n) : Micro env R c
      { c with tx := { c.tx with dirtyAll := false, dirty := [] }.encodeFailed, tick := n }

/-! ## The controller's entries as actions -/

section Entries

variable {env : Env} {R : Rules} {c c' d : Client D}

/-- Only the clock was read, or estimates and timers were updated. -/
def Measured (c c' : Client D) : Prop :=
  ∃ k n, c' = { c with ctl := k, tick := n } ∧ k.core = c.ctl.core ∧ c.tick ≤ n

lemma Measured.refl (c : Client D) : Measured c c := ⟨c.ctl, c.tick, rfl, rfl, le_rfl⟩

lemma Measured.trans (h : Measured c c') (h' : Measured c' d) : Measured c d := by
  obtain ⟨k, n, rfl, hk, hn⟩ := h
  obtain ⟨k', n', rfl, hk', hn'⟩ := h'
  exact ⟨k', n', rfl, hk'.trans hk, hn.trans hn'⟩

lemma Measured.ticked (h : Measured c c') : Measured c c'.ticked := by
  refine h.trans ⟨c'.ctl, c'.tick + 1, rfl, rfl, by omega⟩

lemma Measured.ctl (h : Measured c c') {k : Ctl D} (hk : k.core = c'.ctl.core) :
    Measured c { c' with ctl := k } := by
  exact h.trans ⟨k, c'.tick, rfl, hk, le_rfl⟩

lemma Measured.ite {p : Prop} [Decidable p] (h : Measured c c') (h' : Measured c d) :
    Measured c (if p then c' else d) := by
  split
  · exact h
  · exact h'

lemma encSetBitrate_measured (env : Env) (c : Client D) (kbps : ℤ) :
    Measured c (encSetBitrate env c kbps) :=
  .ite (.refl c) (.ite (.ctl (.ticked (.refl c)) rfl) (.ticked (.refl c)))

variable [CDouble D]

/-- What the controller's entries are made of: readings of the clock with updates of the
estimates, and evaluations. -/
inductive CtlMove (env : Env) : Client D → Client D → Prop
  | measure {a b : Client D} (h : Measured a b) : CtlMove env a b
  | evaluate {a : Client D} : CtlMove env a (ctlEvaluate env a)

lemma CtlMove.micro (h : CtlMove env c d) : Micro env R c d := by
  cases h with
  | measure h =>
      obtain ⟨k, n, rfl, hk, hn⟩ := h
      exact .measure k n hk hn
  | evaluate => exact .evaluate

lemma CtlMove.chain (h : ReflTransGen (CtlMove env) c d) : ReflTransGen (Micro env R) c d :=
  h.lift id fun _ _ => CtlMove.micro

/-- What every mode switch keeps, the controller's entries keep. -/
lemma CtlMove.tx_invariant {P : Tx → Prop} (hP : ∀ {t t'}, Tx.Switched t t' → P t → P t')
    (h : ReflTransGen (CtlMove env) c d) (hc : P c.tx) : P d.tx := by
  refine chain_invariant (P := fun d : Client D => P d.tx) ?_ h hc
  intro a b hab ha
  cases hab with
  | measure hm =>
      obtain ⟨k, n, rfl, -, -⟩ := hm
      exact ha
  | evaluate => exact hP (ctlEvaluate_switched env a).1 ha

lemma ctlAimd_measured (env : Env) (c : Client D) : Measured c (ctlAimd env c) := by
  refine .ite (.refl c) (.ite (encSetBitrate_measured ..) (.ite ?_ (.refl c)))
  have ht := (Measured.refl c).ticked
  exact .ite (ht.trans (encSetBitrate_measured ..)) ht

lemma ctlWindows_measured (c : Client D) (now : ℤ) : Measured c (ctlWindows c now) := by
  have hr : Measured c c := .refl c
  refine .ite (.ctl hr ?_) (.ite hr (.ctl (.ite (.ctl (.ite (.ctl (.ctl hr ?_) ?_) (.ctl hr ?_))
    ?_) (.ite (.ctl (.ctl hr ?_) ?_) (.ctl hr ?_))) ?_))
  all_goals rfl

lemma ctlSkipEncode_measured (env : Env) (c : Client D) :
    Measured c (ctlSkipEncode env c).1 := by
  unfold ctlSkipEncode
  split
  · exact .refl c
  · exact (Measured.refl c).ticked

lemma ctlOnDamage_moves (env : Env) (c : Client D) (n : ℕ) :
    ReflTransGen (CtlMove env) c (ctlOnDamage env c n) := by
  refine ReflTransGen.tail (.single (.measure ?_)) .evaluate
  refine .trans (.ctl (.ite (.ctl (.ticked (.refl c)) ?_) (.ticked (.refl c))) ?_)
    (ctlWindows_measured _ _)
  · rfl
  · rfl

/-- A damage report that adds nothing ends there; any other goes to the controller and ends in
a kick. -/
lemma xmitDamage_moves (env : Env) (c : Client D) (rects : List Rect) :
    (c.tx.damageRects c.neg.pixfmt.bytespp rects).2 = 0 ∧ xmitDamage env c rects =
        { c with tx := (c.tx.damageRects c.neg.pixfmt.bytespp rects).1 } ∨
      ∃ d, ReflTransGen (CtlMove env)
          { c with tx := (c.tx.damageRects c.neg.pixfmt.bytespp rects).1 } d ∧
        xmitDamage env c rects = { d with tx := d.tx.xmitKick } := by
  unfold xmitDamage
  dsimp only
  by_cases hraw : (c.tx.damageRects c.neg.pixfmt.bytespp rects).2 = 0
  · exact .inl ⟨hraw, if_pos hraw⟩
  · rw [if_neg hraw]
    right
    split
    · exact ⟨_, ctlOnDamage_moves env _ _, rfl⟩
    · exact ⟨_, .refl, rfl⟩

lemma ctlOnDeliver_moves (env : Env) (c : Client D) (n : ℕ) :
    ReflTransGen (CtlMove env) c (ctlOnDeliver env c n) := by
  refine ReflTransGen.tail (.single (.measure ?_)) .evaluate
  refine .trans (.ctl (.ite (.ctl (.ticked (.refl c)) ?_) (.ticked (.refl c))) ?_)
    (ctlWindows_measured _ _)
  · rfl
  · rfl

lemma ctlOnPong_moves (env : Env) (c : Client D) (t : UInt64) :
    ReflTransGen (CtlMove env) c (ctlOnPong env c t) := by
  have ht := (Measured.refl c).ticked
  unfold ctlOnPong
  dsimp only
  split
  · exact .single (.measure ht)
  · split
    · refine ReflTransGen.tail (.single (.measure (.ctl ht ?_))) .evaluate
      rfl
    · refine ReflTransGen.tail (.single (.measure (.trans (.ctl ht ?_) (ctlAimd_measured _ _))))
        .evaluate
      rfl

/-- A tick of the ping timer measures, evaluates when the link is idle, and then gives the
client up, sends a PING or does nothing. -/
lemma pingTick_moves (env : Env) (c : Client D) :
    ∃ d, ReflTransGen (CtlMove env) c d ∧ (pingTick env c = d ∨
      pingTick env c = { d with tx := d.tx.scheduleClientLost } ∨
      pingTick env c = sendPing env d) := by
  have ht : ReflTransGen (CtlMove env) c c.ticked := .single (.measure (Measured.refl c).ticked)
  unfold pingTick
  dsimp only
  split
  · exact ⟨_, ht, .inl rfl⟩
  split
  · exact ⟨_, ht, .inr (.inl rfl)⟩
  split
  · have he : ReflTransGen (CtlMove env) c (ctlEvaluate env { c.ticked with
        ctl := { c.ticked.ctl with
          delayEwmaUs := ewma c.ticked.ctl.delayEwmaUs 0.0 0.1
          rawRateBps := ewma c.ticked.ctl.rawRateBps 0.0 0.1 } }) := by
      refine ReflTransGen.tail (.single (.measure (.ctl (Measured.refl c).ticked ?_))) .evaluate
      rfl
    split
    · exact ⟨_, he, .inl rfl⟩
    · exact ⟨_, he, .inr (.inr rfl)⟩
  split
  · exact ⟨_, ht, .inl rfl⟩
  · exact ⟨_, ht, .inr (.inr rfl)⟩

lemma sendPing_chain (hping : ∀ t, R.ctrl (pingMsg t)) (c : Client D) :
    ReflTransGen (Micro env R) c (sendPing env c) := by
  refine .head (CtlMove.micro (.measure (Measured.refl c).ticked)) ?_
  refine .head (.act (.ctrl _ (hping (env.clock c.tick)))) ?_
  exact .single (CtlMove.micro (.measure (.ctl (.refl _) rfl)))

lemma pingTick_chain (hping : ∀ t, R.ctrl (pingMsg t)) (c : Client D) :
    ReflTransGen (Micro env R) c (pingTick env c) := by
  obtain ⟨d, hd, h | h | h⟩ := pingTick_moves env c
  · rw [h]
    exact CtlMove.chain hd
  · rw [h]
    exact (CtlMove.chain hd).tail (.act .lose)
  · rw [h]
    exact (CtlMove.chain hd).trans (sendPing_chain hping d)

end Entries

/-! ## The drain as actions -/

section Drain

lemma netSendSome_cases (env : Env) (c : Client D) (buf : List UInt8) :
    netSendSome env c buf = (c.ticked, none) ∨
      ∃ n ≤ buf.length, netSendSome env c buf =
        ({ c with tx := { c.tx with wire := c.tx.wire ++ buf.take n }, tick := c.tick + 1 },
          some n) := by
  unfold netSendSome
  by_cases hk : env.sock c.tick < 0
  · exact .inl (by simp [hk])
  · right
    exact ⟨min (env.sock c.tick).toNat buf.length, min_le_right _ _, by simp [hk, Client.ticked]⟩

variable [CDouble D]

/-- The loop over the frame in flight only sends pieces of it; when it ends by itself and the
fuel was enough, all of it is out. -/
lemma finishFrame_spec (env : Env) (R : Rules) (k : ℕ) (c : Client D) (ha : c.tx.outActive = true) :
    ∃ w o n, (finishFrame env k c).1 =
        { c with tx := { c.tx with wire := w, outOff := o }, tick := n } ∧
      ReflTransGen (Micro env R) c (finishFrame env k c).1 ∧
      ((finishFrame env k c).2 = .done →
        c.tx.segLen0 + c.tx.segLen1 ≤ c.tx.outOff + k → c.tx.segLen0 + c.tx.segLen1 ≤ o) := by
  induction k generalizing c with
  | zero => exact ⟨c.tx.wire, c.tx.outOff, c.tick, rfl, .refl, fun _ h => h⟩
  | succ k ih =>
      rw [finishFrame]
      by_cases ho : c.tx.outOff < c.tx.segLen0 + c.tx.segLen1
      · rw [if_pos ho]
        have htick : ∀ t, ReflTransGen (Micro env R) { c with tx := t }
            { c with tx := t, tick := c.tick + 1 } := fun t =>
          .single (.measure c.ctl (c.tick + 1) rfl (Nat.le_succ _))
        rcases netSendSome_cases env c c.tx.segRest with hs | ⟨n, hn, hs⟩
        · rw [hs]
          exact ⟨c.tx.wire, c.tx.outOff, c.tick + 1, rfl, htick c.tx, fun h => by cases h⟩
        · rw [hs]
          have hsent : TxAct env c.neg R c.tx _ := .sendFrame n ha ho hn
          cases n with
          | zero =>
              refine ⟨_, c.tx.outOff, c.tick + 1, rfl, ?_, fun h => by cases h⟩
              exact .trans (.single (.act hsent)) (htick _)
          | succ n =>
              obtain ⟨w, o, m, he, hc, hd⟩ := ih
                { c with
                  tx := { c.tx with
                    wire := c.tx.wire ++ c.tx.segRest.take (n + 1)
                    outOff := c.tx.outOff + (n + 1) }
                  tick := c.tick + 1 } ha
              refine ⟨w, o, m, he, ?_, fun h hf => hd h ?_⟩
              · exact .trans (.single (.act hsent)) (.trans (htick _) hc)
              · change c.tx.segLen0 + c.tx.segLen1 ≤ c.tx.outOff + (n + 1) + k
                omega
      · rw [if_neg ho]
        exact ⟨c.tx.wire, c.tx.outOff, c.tick, rfl, .refl, fun _ _ => not_lt.mp ho⟩

/-- The loop over the queue only sends pieces of its head and retires it; when it ends by
itself, the queue is empty. -/
lemma drainQueue_spec (env : Env) (R : Rules) (q : List (List UInt8)) (c : Client D)
    (hq : c.tx.outq = q) (ha : c.tx.outActive = false) :
    ∃ w q' o n, (drainQueue env q c).1 =
        { c with tx := { c.tx with wire := w, outq := q', outqOff := o }, tick := n } ∧
      ReflTransGen (Micro env R) c (drainQueue env q c).1 ∧
      ((drainQueue env q c).2 = .done → q' = []) := by
  induction q generalizing c with
  | nil => exact ⟨c.tx.wire, c.tx.outq, c.tx.outqOff, c.tick, rfl, .refl, fun _ => hq⟩
  | cons b q ih =>
      rw [drainQueue]
      have htick : ∀ t, ReflTransGen (Micro env R) { c with tx := t }
          { c with tx := t, tick := c.tick + 1 } := fun t =>
        .single (.measure c.ctl (c.tick + 1) rfl (Nat.le_succ _))
      rcases netSendSome_cases env c (b.drop c.tx.outqOff) with hs | ⟨n, hn, hs⟩
      · rw [hs]
        exact ⟨c.tx.wire, c.tx.outq, c.tx.outqOff, c.tick + 1, rfl, htick c.tx,
          fun h => by cases h⟩
      · rw [hs]
        have hsent : TxAct env c.neg R c.tx _ := .sendHead b q n ha hq hn
        dsimp only
        split
        · refine ⟨_, c.tx.outq, _, c.tick + 1, rfl, ?_, fun h => by cases h⟩
          exact .trans (.single (.act hsent)) (htick _)
        · rename_i hl
          obtain ⟨w, q', o, m, he, hc, hd⟩ := ih
            { c with
              tx := { c.tx with
                wire := c.tx.wire ++ (b.drop c.tx.outqOff).take n
                outq := q
                outqOff := 0 }
              tick := c.tick + 1 } rfl ha
          refine ⟨w, q', o, m, he, ?_, hd⟩
          refine .trans (.single (.act hsent)) (.trans (htick _) ?_)
          exact .trans (.single (.act (.popHead b q ha hq (not_lt.mp hl)))) hc

/-- Step 1 of a pass: either the frame in flight is out, or the pass ends. -/
lemma drainFrame_spec (env : Env) (R : Rules) (c : Client D) :
    ∃ w o a n, (drainFrame env c).1 =
        { c with tx := { c.tx with wire := w, outOff := o, outActive := a }, tick := n } ∧
      ReflTransGen (Micro env R) c (drainFrame env c).1 ∧
      ((drainFrame env c).2 = .done → a = false) := by
  unfold drainFrame
  by_cases ha : c.tx.outActive = true
  · rw [if_pos ha]
    obtain ⟨w, o, n, he, hc, hd⟩ := finishFrame_spec env R
      (c.tx.segLen0 + c.tx.segLen1 - c.tx.outOff) c ha
    rcases hf : finishFrame env (c.tx.segLen0 + c.tx.segLen1 - c.tx.outOff) c with ⟨d, r⟩
    rw [hf] at he hc hd
    obtain rfl : d = _ := he
    cases r with
    | done =>
        refine ⟨w, 0, false, n, rfl, .tail hc (.act (.frameDone ha ?_)), fun _ => rfl⟩
        exact hd rfl (by omega)
    | again => exact ⟨w, o, c.tx.outActive, n, rfl, hc, fun h => by cases h⟩
    | fail => exact ⟨w, o, c.tx.outActive, n, rfl, hc, fun h => by cases h⟩
  · rw [if_neg ha]
    exact ⟨c.tx.wire, c.tx.outOff, c.tx.outActive, c.tick, rfl, .refl,
      fun _ => by simpa using ha⟩

end Drain

/-! ## The builds as actions -/

/-- The encoder call `build_next` makes from this state, if it makes one: the interaction that
answers it. -/
def buildCall [CDouble D] (env : Env) (c : Client D) : Option ℕ :=
  if c.tx.state = .streaming ∧ c.tx.bufs = true ∧ c.tx.xmitMode = .h264 ∧
      ¬(c.tx.dirtyAll = false ∧ c.tx.dirty = []) ∧ (ctlSkipEncode env c).2 = false
    then some (ctlSkipEncode env c).1.tick else none

/-- The encoder call an `on_out_ready` pass makes from this state, if it gets that far. -/
def encoderCall [CDouble D] (env : Env) (c : Client D) : Option ℕ :=
  match drainFrame env c with
  | (c, .done) =>
      match drainQueue env c.tx.outq c with
      | (c, .done) => buildCall env c
      | _ => none
  | _ => none

/-- The rectangle `build_next` takes in RAW mode, and the region it leaves. -/
def Tx.NextRect (t t' : Tx) (r : Rect) : Prop :=
  t.dirtyAll = true ∧ t' = { t with dirtyAll := false, dirty := [] } ∧
      r = Rect.full t.width t.height ∨
    t.dirtyAll = false ∧ ∃ ds, t.dirty = r :: ds ∧ t' = { t with dirty := ds }

section Build

variable [CDouble D] {env : Env} {R : Rules}

/-- A build of either kind ends with the report to the controller. -/
def Delivered (env : Env) (d d' : Client D) : Prop := d' = d ∨ ∃ n, d' = ctlOnDeliver env d n

lemma Delivered.chain {d d' : Client D} (h : Delivered env d d') :
    ReflTransGen (Micro env R) d d' := by
  obtain rfl | ⟨n, rfl⟩ := h
  · exact .refl
  · exact CtlMove.chain (ctlOnDeliver_moves env d n)

lemma frameStart_delivered (env : Env) (c : Client D) (n m : ℕ) (s : Sent) :
    Delivered env { c with tx := c.tx.frameStart n m s } (frameStart env c n m s) := by
  unfold frameStart
  dsimp only
  split
  · exact .inr ⟨n + m, rfl⟩
  · exact .inl rfl

lemma buildRawRect_delivered (env : Env) (c : Client D) (r : Rect) :
    Delivered env { c with tx := c.tx.builtRect env c.neg r } (buildRawRect env c r) :=
  frameStart_delivered env _ _ _ _

lemma buildH264Frame_cases (env : Env) (c : Client D) (hs : c.tx.state = .streaming)
    (hm : c.tx.xmitMode = .h264) :
    env.encode c.tick = none ∧ buildH264Frame env c =
      { c with tx := c.tx.encodeFailed, tick := c.tick + 1 } ∨
    ∃ k : Ctl D, k.core = c.ctl.core ∧
      ((∃ idr, env.encode c.tick = some ([], idr) ∧ buildH264Frame env c =
          { c with tx := c.tx.builtNothing, ctl := k, tick := c.tick + 2 }) ∨
        ∃ nal idr, nal ≠ [] ∧ Delivered env
          { c with tx := c.tx.builtAu nal idr, ctl := k, tick := c.tick + 2 }
          (buildH264Frame env c)) := by
  obtain ⟨f, hf⟩ := c.tx.shadowUpdate_eq (Rect.full c.tx.width c.tx.height)
  unfold buildH264Frame
  dsimp only
  cases he : env.encode c.tick with
  | none =>
      left
      refine ⟨rfl, ?_⟩
      simp [xmitSetMode, Client.ticked, hf, hs, hm, Tx.encodeFailed, Tx.builtNothing]
  | some out =>
      obtain ⟨nal, idr⟩ := out
      right
      refine ⟨{ c.ctl with lastEncUs := env.clock (c.tick + 1) }, rfl, ?_⟩
      dsimp only
      by_cases hn : nal = []
      · left
        subst hn
        refine ⟨idr, rfl, ?_⟩
        simp [Client.ticked, Tx.builtNothing]
      · right
        refine ⟨nal, idr, hn, ?_⟩
        rw [if_neg (by simpa using hn)]
        have h := frameStart_delivered env
          { c with
            tx := { c.tx.shadowUpdate (Rect.full c.tx.width c.tx.height) with
              forceIdr := false
              encbuf := nal
              sendbuf := (auHeader c.tx nal idr).bytes }
            ctl := { c.ctl with lastEncUs := env.clock (c.tick + 1) }
            tick := c.tick + 2 } frameHdrSize nal.length
          (.au (auHeader c.tx nal idr) nal c.tx.forceIdr)
        simpa [Client.ticked, auHeader, hf, Tx.builtAu] using h

/-- What `build_next` can do: nothing, a rectangle, putting an encode off, an encode. -/
inductive Built (env : Env) (c : Client D) : Client D × Bool → Prop
  | nothing (h : c.tx.state = .streaming → c.tx.bufs = true →
      c.tx.dirtyAll = false ∧ c.tx.dirty = []) : Built env c (c, false)
  | rect (hs : c.tx.state = .streaming) (hb : c.tx.bufs = true) (hm : c.tx.xmitMode = .raw)
      (t : Tx) (r : Rect) (hr : c.tx.NextRect t r) (d : Client D)
      (hd : d = buildRawRect env { c with tx := t } r) : Built env c (d, d.tx.outActive)
  | skip (d : Client D) (hd : Measured c d) :
      Built env c ({ d with tx := { c.tx with outRetry := true } }, false)
  | encode (hs : c.tx.state = .streaming) (hb : c.tx.bufs = true) (hm : c.tx.xmitMode = .h264)
      (d d' : Client D) (hd : Measured c d) (hc : buildCall env c = some d.tick)
      (hd' : d' = buildH264Frame env
        { d with tx := { c.tx with dirtyAll := false, dirty := [] } }) :
      Built env c (d', d'.tx.outActive)

lemma buildNext_built (env : Env) (c : Client D) : Built env c (buildNext env c) := by
  by_cases hg : c.tx.state ≠ .streaming ∨ c.tx.bufs = false
  · have hn : buildNext env c = (c, false) := by simp only [buildNext, if_pos hg]
    rw [hn]
    exact .nothing fun hs hb => by simp [hs, hb] at hg
  simp only [buildNext, if_neg hg]
  rw [not_or, not_not, Bool.not_eq_false] at hg
  obtain ⟨hs, hb⟩ := hg
  split <;> rename_i hm
  · by_cases hd : c.tx.dirtyAll = false ∧ c.tx.dirty = []
    · rw [if_pos hd]
      exact .nothing fun _ _ => hd
    rw [if_neg hd]
    have hk := ctlSkipEncode_measured env c
    have htx : (ctlSkipEncode env c).1.tx = c.tx := by
      obtain ⟨k, n, he, -⟩ := hk
      rw [he]
    rw [htx]
    by_cases hskip : (ctlSkipEncode env c).2 = true
    · rw [if_pos hskip]
      exact .skip _ hk
    · rw [if_neg hskip]
      exact .encode hs hb hm _ _ hk (if_pos ⟨hs, hb, hm, hd, by simpa using hskip⟩) rfl
  · by_cases ha : c.tx.dirtyAll = true
    · rw [if_pos ha]
      exact .rect hs hb hm _ _ (.inl ⟨ha, rfl, rfl⟩) _ rfl
    rw [if_neg ha]
    rw [Bool.not_eq_true] at ha
    split <;> rename_i hd
    · exact .nothing fun _ _ => ⟨ha, hd⟩
    · exact .rect hs hb hm _ _ (.inr ⟨ha, _, hd, rfl⟩) _ rfl

/-- The encoder's answers to a call are within the rules. -/
def Rules.Encoder (R : Rules) (env : Env) (call : Option ℕ) : Prop :=
  ∀ k, call = some k → (env.encode k = none → R.encoderFails) ∧
    (∀ idr, env.encode k = some ([], idr) → R.encoderEmpty)

lemma buildNext_chain {c : Client D} (ha : c.tx.outActive = false) (hq : c.tx.outq = [])
    (henc : R.Encoder env (buildCall env c)) :
    ReflTransGen (Micro env R) c (buildNext env c).1 := by
  have hb := buildNext_built env c
  generalize buildNext env c = b at hb
  cases hb with
  | nothing => exact .refl
  | rect hs hb hm t r hr d hd =>
      subst hd
      refine .trans ?_ (Delivered.chain (buildRawRect_delivered env _ r))
      have hready : c.tx.Ready := ⟨ha, hq, hs, hb⟩
      obtain ⟨hall, rfl, rfl⟩ | ⟨hall, ds, hds, rfl⟩ := hr
      · exact .single (.act (.snapshot hready hm hall))
      · exact .single (.act (.rect r ds hready hm hall hds))
  | skip d hd =>
      obtain ⟨k, n, rfl, hk, hn⟩ := hd
      refine .trans (.single (.measure k n hk hn)) (.single (.act ?_))
      exact .aux c.tx.outWatch true c.tx.h264Failed c.tx.enc c.tx.wireTotal
  | encode hs hb hm d d' hd hc hd' =>
      subst hd'
      obtain ⟨k, n, rfl, hk, hn⟩ := hd
      have hready : c.tx.Ready := ⟨ha, hq, hs, hb⟩
      obtain ⟨hfail, hempty⟩ := henc n hc
      refine .trans (.single (.measure k n hk hn)) ?_
      rcases buildH264Frame_cases env { c with
          tx := { c.tx with dirtyAll := false, dirty := [] }, ctl := k, tick := n } hs hm with
        ⟨he, hr⟩ | ⟨k', hk', ⟨idr, he, hr⟩ | ⟨nal, idr, hne, hr⟩⟩
      · rw [hr]
        exact .single (.encodeFail (n + 1) (hfail he) hready hm (Nat.le_succ n))
      · rw [hr]
        refine .trans (.single (.act (.encodeNothing (hempty idr he) hready hm))) ?_
        exact .single (.measure k' (n + 2) hk' (Nat.le_add_right n 2))
      · refine .trans ?_ hr.chain
        refine .trans (.single (.act (.encodeAu nal idr hne hready hm))) ?_
        exact .single (.measure k' (n + 2) hk' (Nat.le_add_right n 2))

/-! ## A pass of the drain -/

/-- The sending part of a pass: pieces of the frame in flight and of the queue went out. -/
structure Drained (env : Env) (c d : Client D) : Prop where
  frame : ∃ w o a q qo n, d = { c with
    tx := { c.tx with wire := w, outOff := o, outActive := a, outq := q, outqOff := qo }
    tick := n }
  chain : ∀ R, ReflTransGen (Micro env R) c d

lemma drainFrame_drained (env : Env) (c : Client D) : Drained env c (drainFrame env c).1 := by
  refine ⟨?_, fun R => ?_⟩
  · obtain ⟨w, o, a, n, he, -, -⟩ := drainFrame_spec env {} c
    exact ⟨w, o, a, c.tx.outq, c.tx.outqOff, n, he⟩
  · obtain ⟨_, _, _, _, -, hc, -⟩ := drainFrame_spec env R c
    exact hc

lemma Drained.queue {c d : Client D} (h : Drained env c d) (ha : d.tx.outActive = false) :
    Drained env c (drainQueue env d.tx.outq d).1 := by
  refine ⟨?_, fun R => ?_⟩
  · obtain ⟨w, q, o, n, he, -, -⟩ := drainQueue_spec env {} d.tx.outq d rfl ha
    obtain ⟨w', o', a', q', qo', n', rfl⟩ := h.frame
    exact ⟨w, o', a', q, o, n, he⟩
  · obtain ⟨_, _, _, _, -, hc, -⟩ := drainQueue_spec env R d.tx.outq d rfl ha
    exact (h.chain R).trans hc

/-- What an `on_out_ready` pass can do: fail, stop at a byte the socket does not take, or get
everything out and build the next frame. -/
inductive Pass (env : Env) (c : Client D) : Client D → Prop
  | fail (d : Client D) (h : Drained env c d) : Pass env c (xmitFail d)
  | block (d : Client D) (h : Drained env c d) : Pass env c d
  | build (d : Client D) (h : Drained env c d) (ha : d.tx.outActive = false)
      (hq : d.tx.outq = []) (he : encoderCall env c = buildCall env d) (b : Client D × Bool)
      (hb : b = buildNext env d) :
      Pass env c (if b.2 then b.1 else { b.1 with tx := { b.1.tx with outWatch := false } })

lemma onOutReady_pass (env : Env) (c : Client D) : Pass env c (onOutReady env false c) := by
  unfold onOutReady
  simp only [Bool.false_eq_true, if_false]
  obtain ⟨_, _, a, _, he, -, hdone⟩ := drainFrame_spec env {} c
  have hf := drainFrame_drained env c
  have hcall : encoderCall env c = encoderCall env c := rfl
  conv_rhs at hcall => unfold encoderCall
  rcases hd : drainFrame env c with ⟨d, r⟩
  rw [hd] at he hdone hf hcall
  cases r with
  | fail => exact .fail d hf
  | again => exact .block d hf
  | done =>
      have ha : d.tx.outActive = false := by rw [show d = _ from he]; exact hdone rfl
      obtain ⟨_, q, _, _, he', -, hdone'⟩ := drainQueue_spec env {} d.tx.outq d rfl ha
      have hf' := hf.queue ha
      dsimp only at hcall ⊢
      rcases hd' : drainQueue env d.tx.outq d with ⟨d', r'⟩
      rw [hd'] at he' hdone' hf' hcall
      cases r' with
      | fail => exact .fail d' hf'
      | again => exact .block d' hf'
      | done =>
          have ha' : d'.tx.outActive = false := by rw [show d' = _ from he']; exact ha
          have hq' : d'.tx.outq = [] := by rw [show d' = _ from he']; exact hdone' rfl
          have hp := Pass.build d' hf' ha' hq' hcall _ rfl
          dsimp only
          rcases hb : buildNext env d' with ⟨b, _ | _⟩
          · simpa [hb] using hp
          · simpa [hb] using hp

lemma xmitFail_chain (R : Rules) (c : Client D) : ReflTransGen (Micro env R) c (xmitFail c) := by
  refine .trans (.single (.act (.aux false c.tx.outRetry c.tx.h264Failed c.tx.enc
    c.tx.wireTotal))) ?_
  exact .single (.act .lose)

lemma onOutReady_chain {err : Bool} {c : Client D} (henc : R.Encoder env (encoderCall env c)) :
    ReflTransGen (Micro env R) c (onOutReady env err c) := by
  cases err with
  | true => exact xmitFail_chain R c
  | false =>
      have hp := onOutReady_pass env c
      generalize onOutReady env false c = d' at hp
      cases hp with
      | fail d h => exact (h.chain R).trans (xmitFail_chain R d)
      | block d h => exact h.chain R
      | build d h ha hq he b hb =>
          subst hb
          have hc := (h.chain R).trans (buildNext_chain ha hq (he ▸ henc))
          split
          · exact hc
          · exact hc.tail (.act (.aux false _ _ _ _))

end Build

/-! ## Callbacks as chains of actions -/

section Step

variable [CDouble D] {env : Env} {R : Rules}

/-- The rules allow this event in this state.  A compositor mode change is no chain of
actions. -/
def Rules.Admits (R : Rules) (env : Env) (c : Client D) : Event → Prop
  | .damage grab rects => R.damage c.tx grab rects
  | .outReady _ => R.Encoder env (encoderCall env c)
  | .pingTick => ∀ t, R.ctrl (pingMsg t)
  | .ctrl m => R.ctrl m
  | .dpms on => R.ctrl (ctrlMsg (if on then .unblank else .blank))
  | .setMode _ => R.decisions
  | .repaint _ => R.repaint ∧ R.ctrl (ctrlMsg .unblank)
  | .modeChanged .. => False
  | .retry | .pong _ | .lost => True

/-- Rules that restrict only the encoder and decisions from outside. -/
lemma Rules.admits_of {c : Client D} {ev : Event} {e f d : Prop}
    (hm : ev.isModeChange = false) (hd : ev.isDecision = true → d)
    (henc : ∀ err, ev = .outReady err → Rules.Encoder
      { encoderEmpty := e, encoderFails := f, decisions := d } env (encoderCall env c)) :
    Rules.Admits { encoderEmpty := e, encoderFails := f, decisions := d } env c ev := by
  cases ev with
  | modeChanged => cases hm
  | outReady err => exact henc err rfl
  | pingTick => exact fun t => trivial
  | setMode => exact hd rfl
  | repaint => exact ⟨trivial, trivial⟩
  | damage | retry | pong | ctrl | dpms | lost => exact trivial

/-- Without restrictions, every event but a compositor mode change is admitted. -/
lemma Rules.admits_any {c : Client D} {ev : Event} (h : ev.isModeChange = false) :
    ({} : Rules).Admits env c ev :=
  Rules.admits_of h (fun _ => trivial) fun _ _ _ _ => ⟨fun _ => trivial, fun _ _ => trivial⟩

lemma xmitKick_act (c : Client D) : Micro env R c { c with tx := c.tx.xmitKick } := by
  obtain ⟨w, hw⟩ := c.tx.xmitKick_eq
  rw [hw]
  exact .act (.aux w c.tx.outRetry c.tx.h264Failed c.tx.enc c.tx.wireTotal)

/-- The queue does not look at the pixels. -/
lemma Tx.sendCtrl_grabbuf (t : Tx) (grab : Frame) (e : Encoding) :
    { t with grabbuf := grab }.sendCtrl e = { t.sendCtrl e with grabbuf := grab } := by
  unfold sendCtrl xmitCtrl xmitKick pending
  dsimp only
  split_ifs <;> rfl

lemma repaintClient_eq (t : Tx) (grab : Frame) : repaintClient t grab =
    { t.sendCtrl .unblank with grabbuf := grab, dirtyAll := true }.xmitKick := by
  rw [repaintClient, Tx.sendCtrl_grabbuf]

lemma sendCtrl_chain {e : Encoding} (h : R.ctrl (ctrlMsg e)) (c : Client D) :
    ReflTransGen (Micro env R) c { c with tx := c.tx.sendCtrl e } := by
  unfold Tx.sendCtrl
  split
  · exact .refl
  · exact .single (.act (.ctrl _ h))

lemma xmitDamage_chain (c : Client D) (grab : Frame) (rects : List Rect)
    (h : R.damage c.tx grab rects) : ReflTransGen (Micro env R) c
      (xmitDamage env { c with tx := { c.tx with grabbuf := grab } } rects) := by
  have hd : ReflTransGen (Micro env R) c { c with
      tx := ({ c.tx with grabbuf := grab }.damageRects c.neg.pixfmt.bytespp rects).1 } :=
    .single (.act (.damage grab rects h))
  obtain ⟨-, h⟩ | ⟨d, hm, h⟩ := xmitDamage_moves env
    { c with tx := { c.tx with grabbuf := grab } } rects
  · rw [h]
    exact hd
  · rw [h]
    exact (hd.trans (CtlMove.chain hm)).tail (xmitKick_act d)

/-- **Callbacks are chains of actions.** -/
lemma step_chain {c : Client D} {ev : Event} (h : R.Admits env c ev) :
    ReflTransGen (Micro env R) c (step env c ev) := by
  unfold step
  cases ev with
  | damage grab rects =>
      dsimp only
      split
      · exact xmitDamage_chain c grab rects h
      · exact .refl
  | outReady err =>
      dsimp only
      split
      · exact onOutReady_chain h
      · exact .refl
  | retry =>
      dsimp only
      split
      · refine .tail (.single (.act (.aux c.tx.outWatch false c.tx.h264Failed c.tx.enc
          c.tx.wireTotal))) ?_
        exact xmitKick_act _
      · exact .refl
  | pong t =>
      dsimp only
      split
      · exact CtlMove.chain (ctlOnPong_moves env c t)
      · exact .refl
  | pingTick =>
      dsimp only
      split
      · exact pingTick_chain h c
      · exact .refl
  | ctrl m => exact .single (.act (.ctrl m h))
  | dpms on => exact sendCtrl_chain h c
  | setMode m => exact .single (.decision m h)
  | repaint grab =>
      dsimp only
      split
      · rw [repaintClient_eq]
        exact ((sendCtrl_chain h.2 c).tail (.act (.repaint grab h.1))).tail (xmitKick_act _)
      · exact .refl
  | modeChanged => exact h.elim
  | lost => exact .single (.act .lose)

/-- What every action of a client keeps, a callback keeps. -/
lemma step_invariant {P : Client D → Prop} (hmicro : ∀ {a b}, Micro env R a b → P a → P b)
    {c : Client D} {ev : Event} (h : R.Admits env c ev) (hc : P c) : P (step env c ev) :=
  chain_invariant (r := Micro env R) hmicro (step_chain h) hc

end Step

/-! ## Actions on the transmit side -/

section Refine

variable {env : Env} {R : Rules}

/-- `c'` is the same connection, and its transmit side came from that of `c` by actions. -/
def TxChain (env : Env) (R : Rules) (c c' : Client D) : Prop :=
  c'.neg = c.neg ∧ ReflTransGen (TxStep env c.neg R) c.tx c'.tx

lemma TxChain.of_tx {c c' : Client D} (hn : c'.neg = c.neg) (ht : c'.tx = c.tx) :
    TxChain env R c c' := ⟨hn, by rw [ht]⟩

lemma TxChain.trans {c c' d : Client D} (h : TxChain env R c c') (h' : TxChain env R c' d) :
    TxChain env R c d := by
  obtain ⟨hn, ht⟩ := h
  obtain ⟨hn', ht'⟩ := h'
  exact ⟨hn'.trans hn, ht.trans (hn ▸ ht')⟩

lemma Tx.Switched.chain {neg : Negotiated} {t t' : Tx} (h : t.Switched t') :
    ReflTransGen (TxStep env neg R) t t' := by
  cases h with
  | same => exact .refl
  | leave hs hm => exact .single (.leave hs hm)
  | failed => exact .single (.act (.aux t.outWatch t.outRetry true t.enc t.wireTotal))
  | enter hs hm now =>
      refine .tail (.single (.act (.aux t.outWatch t.outRetry t.h264Failed true t.wireTotal))) ?_
      exact .enter now hs hm

variable [CDouble D]

lemma Micro.txChain {c c' : Client D} (h : Micro env R c c') : TxChain env R c c' := by
  cases h with
  | act h => exact ⟨rfl, .single (.act h)⟩
  | measure => exact .of_tx rfl rfl
  | evaluate =>
      obtain ⟨ht, hn⟩ := ctlEvaluate_switched env c
      exact ⟨hn, ht.chain⟩
  | decision m => exact ⟨by simp, (xmitSetMode_switched env c m).chain⟩
  | encodeFail n h hr hm => exact ⟨rfl, .single (.encodeFail h hr hm)⟩

lemma txChain_of_micro {c d : Client D} (h : ReflTransGen (Micro env R) c d) :
    TxChain env R c d := by
  induction h with
  | refl => exact .of_tx rfl rfl
  | tail _ hd ih => exact ih.trans hd.txChain

/-- **The transmitter refines the abstract one**: a callback is, on the transmit side, a chain
of its actions. -/
theorem step_txChain {c : Client D} {ev : Event} (h : R.Admits env c ev) :
    TxChain env R c (step env c ev) := txChain_of_micro (step_chain h)

lemma step_sameStream (env : Env) {c : Client D} {ev : Event} (h : ev.isModeChange = false) :
    c.tx.SameStream (step env c ev).tx := by
  have hadm : ({} : Rules).Admits env c ev := Rules.admits_any h
  obtain ⟨-, ht⟩ := step_txChain hadm
  exact chain_invariant (P := c.tx.SameStream) (fun hs hc => hc.trans hs.sameStream) ht
    ⟨rfl, rfl, rfl, rfl, rfl⟩

/-- An invariant that every action of the transmitter keeps holds along every run that the
rules admit. -/
theorem run_txInvariant {P : Negotiated → Tx → Prop}
    (hstep : ∀ {neg t t'}, TxStep env neg R t t' → P neg t → P neg t')
    {c : Client D} {es : List Event} (hc : P c.neg c.tx)
    (hes : Along (R.Admits env) (step env) c es) :
    (run (step env) c es).neg = c.neg ∧ P c.neg (run (step env) c es).tx := by
  refine run_invariant (P := fun d : Client D => d.neg = c.neg ∧ P c.neg d.tx)
    (fun d ev hev hd => ?_) ⟨rfl, hc⟩ hes
  obtain ⟨hn, ht⟩ := step_txChain hev
  exact ⟨hn.trans hd.1, chain_invariant (r := TxStep env c.neg R) hstep (hd.1 ▸ ht) hd.2⟩

end Refine

end Sremfb
