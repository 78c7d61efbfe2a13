import Sremfb.Server.Steps
import Sremfb.Lib.Outbox

/-!
# Framing and order on the wire

The transmitter is an outbox (`Lib.Outbox`): the frame in flight is its current message, the
control queue its queue, and the log the messages handed over.  What has to be checked is that
the two-segment frame cursor really walks over the bytes of the frame as it was built.  The
segments point into `sendbuf` and into the encoder's buffer, so this holds because neither is
written while a frame is in flight (`InFlight`).

`TxStep.framed` is the step lemma: an action appends some entries to the log and keeps the
framing of the messages so extended.  `wire_framed_in_order` is the result over whole runs.
-/

namespace Sremfb

open Lib Relation

variable {D : Type}

namespace Sent

/-- The entry is a frame: a rectangle or an access unit. -/
def isFrame : Sent → Bool
  | .rect .. | .au .. => true
  | _ => false

end Sent

namespace Tx

/-! ## The transmitter as an outbox -/

/-- The bytes the two segments point at. -/
def segs (t : Tx) : List UInt8 := t.sendbuf.take t.segLen0 ++ t.encbuf.take t.segLen1

/-- The frame built last. -/
def lastFrame (t : Tx) : Option Sent := (t.log.filter Sent.isFrame).getLast?

def outbox (t : Tx) : Outbox UInt8 Sent where
  wire := t.wire
  cur := if t.outActive then t.lastFrame else none
  off := t.outOff
  queue := t.outq.map Sent.ctrl
  qoff := t.outqOff

/-- While a frame is in flight the segments hold its bytes as it was built. -/
structure InFlight (t : Tx) (f : Sent) : Prop where
  last : t.lastFrame = some f
  segs : t.segs = f.bytes
  len0 : t.segLen0 ≤ t.sendbuf.length
  len1 : t.segLen1 ≤ t.encbuf.length

/-- The messages `kept` are framed on the wire. -/
structure Framed (kept : List Sent) (t : Tx) : Prop where
  flight : t.outActive = true → ∃ f, t.InFlight f
  outbox : Outbox.Framed Sent.bytes kept t.outbox

lemma InFlight.length_segs {t : Tx} {f : Sent} (h : t.InFlight f) :
    f.bytes.length = t.segLen0 + t.segLen1 := by
  rw [← h.segs, Tx.segs, List.length_append, List.length_take, List.length_take,
    min_eq_left h.len0, min_eq_left h.len1]

/-- The cursor walks over the bytes of the frame. -/
lemma InFlight.take_segRest {t : Tx} {f : Sent} (h : t.InFlight f) {n : ℕ}
    (hn : n ≤ t.segRest.length) : t.segRest.take n = (f.bytes.drop t.outOff).take n := by
  have hl : (t.sendbuf.take t.segLen0).length = t.segLen0 := by
    rw [List.length_take, min_eq_left h.len0]
  rw [← h.segs, Tx.segs]
  unfold segRest at *
  by_cases ho : t.outOff < t.segLen0
  · rw [if_pos ho] at *
    rw [List.drop_append_of_le_length (by omega), List.take_append_of_le_length hn]
  · have hd : (t.sendbuf.take t.segLen0).drop t.outOff = [] :=
      List.drop_eq_nil_of_le (by omega)
    rw [if_neg ho, List.drop_append, hl, hd, List.nil_append]

/-! ## Actions keep the framing -/

section Actions

variable {env : Env} {neg : Negotiated} {R : Rules} {t t' : Tx} {kept : List Sent}

/-- What is on the wire, in flight and queued. -/
def link (t : Tx) :=
  (t.wire, t.outActive, t.outOff, t.outq, t.outqOff, t.sendbuf, t.encbuf, t.segLen0, t.segLen1)

/-- Changes outside the outbox keep the framing. -/
lemma Framed.congr (h : t.Framed kept) (hlink : t'.link = t.link)
    (hl : t'.lastFrame = t.lastFrame) : t'.Framed kept := by
  simp only [link, Prod.mk.injEq] at hlink
  obtain ⟨hw, ha, ho, hq, hqo, hs, he, h0, h1⟩ := hlink
  refine ⟨fun hact => ?_, ?_⟩
  · obtain ⟨f, hf⟩ := h.flight (ha ▸ hact)
    exact ⟨f, hl ▸ hf.last, by rw [← hf.segs, Tx.segs, Tx.segs, hs, he, h0, h1],
      by rw [h0, hs]; exact hf.len0, by rw [h1, he]; exact hf.len1⟩
  · have : t'.outbox = t.outbox := by simp [Tx.outbox, hw, ha, ho, hq, hqo, hl]
    exact this ▸ h.outbox

lemma Framed.ctrl (h : t.Framed kept) (m : List UInt8) (n : ℕ) (w : Bool) :
    Framed (kept ++ [.ctrl m]) { t with
      outq := t.outq ++ [m], wireTotal := n, log := t.log ++ [.ctrl m], outWatch := w } := by
  have hl : lastFrame { t with
      outq := t.outq ++ [m], wireTotal := n, log := t.log ++ [.ctrl m], outWatch := w } =
      t.lastFrame := by simp [lastFrame, Sent.isFrame]
  refine ⟨fun ha => ?_, ?_⟩
  · obtain ⟨f, hf⟩ := h.flight ha
    exact ⟨f, hl.trans hf.last, hf.segs, hf.len0, hf.len1⟩
  · have := h.outbox.push (.ctrl m)
    simpa [Tx.outbox, Outbox.push, hl] using this

/-- A frame is started from an empty outbox. -/
lemma Framed.frameStart (h : t.Framed kept) (hr : t.Ready) (t₀ : Tx) (hw : t₀.wire = t.wire)
    (hq : t₀.outq = t.outq) (hqo : t₀.outqOff = t.outqOff) (n m : ℕ) {f : Sent}
    (hf : f.isFrame = true) (hs : t₀.sendbuf.take n ++ t₀.encbuf.take m = f.bytes)
    (hn : n ≤ t₀.sendbuf.length) (hm : m ≤ t₀.encbuf.length) :
    Framed (kept ++ [f]) (t₀.frameStart n m f) := by
  have hl : (t₀.frameStart n m f).lastFrame = some f := by
    simp [lastFrame, Tx.frameStart, hf]
  refine ⟨fun _ => ⟨f, hl, hs, hn, hm⟩, ?_⟩
  have := h.outbox.start (by simp [Tx.outbox, hr.idle]) (by simp [Tx.outbox, hr.drained]) f
  have ho : (t₀.frameStart n m f).outbox = t.outbox.start f := by
    simp only [Tx.outbox, hl, Outbox.start]
    simp [Tx.frameStart, hw, hq, hqo]
  exact ho ▸ this

/-- An action that logs `new` keeps the framing of the messages so extended. -/
def Extends (t t' : Tx) : Prop :=
  ∃ new, t'.log = t.log ++ new ∧
    ∀ kept, t.Framed kept → t'.Framed (kept ++ new.filter Sent.isMsg)

lemma Extends.refl (t : Tx) : t.Extends t := ⟨[], by simp, fun kept h => by simpa using h⟩

lemma Extends.trans {t'' : Tx} (h : t.Extends t') (h' : t'.Extends t'') : t.Extends t'' := by
  obtain ⟨new, hlog, hf⟩ := h
  obtain ⟨new', hlog', hf'⟩ := h'
  refine ⟨new ++ new', by rw [hlog', hlog, List.append_assoc], fun kept hk => ?_⟩
  rw [List.filter_append, ← List.append_assoc]
  exact hf' _ (hf kept hk)

/-- An action that logs nothing. -/
lemma Extends.quiet (hlog : t'.log = t.log) (h : ∀ kept, t.Framed kept → t'.Framed kept) :
    t.Extends t' := ⟨[], by simp [hlog], fun kept hk => by simpa using h kept hk⟩

/-- The log and the frame in flight are as before, and nothing else of the outbox changed. -/
lemma Extends.aside (hlog : t'.log = t.log) (hlink : t'.link = t.link) : t.Extends t' :=
  .quiet hlog fun _ h => h.congr hlink (by rw [lastFrame, hlog, lastFrame])

lemma extends_xmitCtrl (t : Tx) (m : List UInt8) : t.Extends (t.xmitCtrl m) := by
  obtain ⟨-, h⟩ | ⟨-, -, w, h⟩ := t.xmitCtrl_cases m
  · rw [h]
    exact .refl t
  · rw [h]
    exact ⟨[.ctrl m], rfl, fun kept hk => hk.ctrl m _ w⟩

lemma extends_leaveH264 (t : Tx) : t.Extends t.leaveH264 := by
  obtain ⟨-, h⟩ | ⟨-, -, w, h⟩ := t.leaveH264_cases
  · rw [h]
    exact .aside rfl rfl
  · rw [h]
    refine ⟨[.ctrl eosMsg], rfl, fun kept hk => ?_⟩
    have hk' : Framed kept { t with xmitMode := .raw, dirty := [], dirtyAll := true } :=
      hk.congr rfl rfl
    exact hk'.ctrl eosMsg _ w

lemma extends_enterH264 (t : Tx) (now : ℤ) : t.Extends (t.enterH264 now) := by
  rw [enterH264_eq]
  refine ⟨[.opened now], rfl, fun kept hk => ?_⟩
  simp only [Sent.isMsg, List.filter_cons, List.filter_nil, Bool.false_eq_true, if_false,
    List.append_nil]
  exact hk.congr rfl (by simp [lastFrame, Sent.isFrame])

/-- A build writes `sendbuf` and the encoder's buffer, then starts the frame. -/
lemma extends_builtRect (hr : t.Ready) (ds : List Rect) (a : Bool) (r : Rect) :
    t.Extends ({ t with dirty := ds, dirtyAll := a }.builtRect env neg r) := by
  obtain ⟨f, hf⟩ := shadowUpdate_eq { t with dirty := ds, dirtyAll := a } r
  have hlen : ∀ hdr : FrameHdr, hdr.bytes.length = frameHdrSize := FrameHdr.length_bytes
  unfold builtRect
  rw [hf]
  dsimp only
  refine ⟨[_], rfl, fun kept hk => hk.frameStart hr _ ?_ ?_ ?_ _ _ ?_ ?_ ?_ ?_⟩
  · rfl
  · rfl
  · rfl
  · rfl
  · simp [Sent.bytes, List.take_of_length_le, hlen]
  · simp [hlen]
  · exact Nat.zero_le _

lemma extends_builtAu (hr : t.Ready) (nal : List UInt8) (idr : Bool) :
    t.Extends ({ t with dirtyAll := false, dirty := [] }.builtAu nal idr) := by
  have hlen : ∀ hdr : FrameHdr, hdr.bytes.length = frameHdrSize := FrameHdr.length_bytes
  obtain ⟨f, hf⟩ := shadowUpdate_eq { t with dirtyAll := false, dirty := [] }
    (Rect.full t.width t.height)
  unfold builtAu
  dsimp only
  rw [hf]
  refine ⟨[_], rfl, fun kept hk => hk.frameStart hr _ ?_ ?_ ?_ _ _ ?_ ?_ ?_ ?_⟩
  · rfl
  · rfl
  · rfl
  · rfl
  · simp [Sent.bytes, List.take_of_length_le, hlen]
  · simp [hlen]
  · exact le_rfl

/-- An encode that gives no frame writes the encoder's buffer, with nothing in flight. -/
lemma extends_builtNothing (hr : t.Ready) :
    t.Extends { t with dirtyAll := false, dirty := [] }.builtNothing := by
  obtain ⟨f, hf⟩ := shadowUpdate_eq { t with dirtyAll := false, dirty := [] }
    (Rect.full t.width t.height)
  unfold builtNothing
  dsimp only
  rw [hf]
  refine .quiet rfl fun kept hk => ⟨fun ha => ?_, hk.outbox⟩
  rw [show _ = t.outActive from rfl, hr.idle] at ha
  cases ha

lemma extends_act (h : TxAct env neg R t t') : t.Extends t' := by
  cases h with
  | ctrl m => exact t.extends_xmitCtrl m
  | aux => exact .aside rfl rfl
  | lose => exact .aside rfl rfl
  | damage grab rects =>
      obtain ⟨ds, a, h⟩ := damageRects_eq neg.pixfmt.bytespp { t with grabbuf := grab } rects
      rw [h]
      exact .aside rfl rfl
  | repaint => exact .aside rfl rfl
  | snapshot hr => exact extends_builtRect hr [] false _
  | rect r ds hr hm ha hd => exact extends_builtRect hr ds t.dirtyAll r
  | encodeAu nal idr hn hr => exact extends_builtAu hr nal idr
  | encodeNothing _ hr => exact extends_builtNothing hr
  | sendFrame n ha ho hn =>
      refine .quiet rfl fun kept hk => ?_
      obtain ⟨f, hf⟩ := hk.flight ha
      refine ⟨fun _ => ⟨f, hf.last, hf.segs, hf.len0, hf.len1⟩, ?_⟩
      have hc : t.outbox.cur = some f := by simp [Tx.outbox, ha, hf.last]
      have hlog : (t.log.filter Sent.isFrame).getLast? = some f := hf.last
      have := hk.outbox.sendCur hc n
      rw [hf.take_segRest hn]
      simpa [Tx.outbox, Outbox.sendCur, ha, lastFrame, hlog] using this
  | frameDone ha ho =>
      refine .quiet rfl fun kept hk => ⟨fun h => Bool.noConfusion h, ?_⟩
      obtain ⟨f, hf⟩ := hk.flight ha
      have hc : t.outbox.cur = some f := by simp [Tx.outbox, ha, hf.last]
      have := hk.outbox.finish hc (by rw [hf.length_segs]; exact ho)
      simpa [Tx.outbox, Outbox.finish] using this
  | sendHead b q n ha hq hn =>
      refine .quiet rfl fun kept hk => ⟨fun h => by simp [ha] at h, ?_⟩
      have := hk.outbox.sendHead (b := .ctrl b) (q := q.map .ctrl) (by simp [Tx.outbox, ha])
        (by simp [Tx.outbox, hq]) n
      simpa [Tx.outbox, Outbox.sendHead, ha, hq, Sent.bytes] using this
  | popHead b q ha hq ho =>
      refine .quiet rfl fun kept hk => ⟨fun h => by simp [ha] at h, ?_⟩
      have := hk.outbox.pop (b := .ctrl b) (q := q.map .ctrl) (by simp [Tx.outbox, ha])
        (by simp [Tx.outbox, hq]) (show (Sent.ctrl b).bytes.length ≤ t.outbox.qoff from ho)
      simpa [Tx.outbox, Outbox.pop, ha, hq] using this

/-- **Every action keeps the framing**, extended by the messages it logs. -/
lemma extends_step (h : TxStep env neg R t t') : t.Extends t' := by
  cases h with
  | act h => exact extends_act h
  | enter now => exact t.extends_enterH264 now
  | leave => exact t.extends_leaveH264
  | encodeFail _ hr =>
      refine (extends_builtNothing hr).trans (.trans ?_ (extends_leaveH264 _))
      exact .aside rfl rfl

lemma extends_chain (h : ReflTransGen (TxStep env neg R) t t') : t.Extends t' := by
  induction h with
  | refl => exact .refl t
  | tail _ hs ih => exact ih.trans (extends_step hs)

end Actions

/-- Nothing is out yet: everything handed over waits in the queue. -/
structure Unsent (t : Tx) : Prop where
  wire : t.wire = []
  idle : t.outActive = false
  head : t.outqOff = 0
  msgs : t.msgs = t.outq.map Sent.ctrl

lemma Unsent.framed {t : Tx} (h : t.Unsent) {kept : List Sent} (hk : t.msgs = kept) :
    t.Framed kept := by
  subst hk
  refine ⟨fun ha => by simp [h.idle] at ha, ⟨⟨[], ?_, ?_⟩, ?_, fun _ => h.head⟩⟩
  · simp [Tx.outbox, h.idle, h.msgs]
  · cases hq : t.outq <;> simp [Tx.outbox, Outbox.started, h.wire, h.idle, h.head, hq]
  · simp [Tx.outbox, h.idle]

lemma Extends.msgs {t t' : Tx} (h : t.Extends t') (hf : t.Framed t.msgs) :
    t'.Framed t'.msgs ∧ t.msgs <+: t'.msgs := by
  obtain ⟨new, hlog, hk⟩ := h
  have hm : t'.msgs = t.msgs ++ new.filter Sent.isMsg := by
    rw [Tx.msgs, hlog, List.filter_append, Tx.msgs]
  exact ⟨hm ▸ hk _ hf, hm ▸ List.prefix_append _ _⟩

end Tx

/-! ## Whole runs -/

section Runs

variable [CDouble D]

lemma run_framed (env : Env) {c : Client D} {es : List Event} (hc : c.tx.Framed c.tx.msgs)
    (hes : ∀ ev ∈ es, ev.isModeChange = false) :
    (run (step env) c es).tx.Framed (run (step env) c es).tx.msgs ∧
      c.tx.msgs <+: (run (step env) c es).tx.msgs := by
  have hstep : ∀ (d : Client D) ev, ev.isModeChange = false →
      d.tx.Framed d.tx.msgs ∧ c.tx.msgs <+: d.tx.msgs →
      (step env d ev).tx.Framed (step env d ev).tx.msgs ∧
        c.tx.msgs <+: (step env d ev).tx.msgs := by
    intro d ev hev hd
    obtain ⟨-, ht⟩ := step_txChain (Rules.admits_any (c := d) hev)
    obtain ⟨hf, hp⟩ := (Tx.extends_chain ht).msgs hd.1
    exact ⟨hf, hd.2.trans hp⟩
  exact run_invariant (P := fun d : Client D =>
    d.tx.Framed d.tx.msgs ∧ c.tx.msgs <+: d.tx.msgs) hstep ⟨hc, List.prefix_rfl⟩
    (along_of_forall hes)

/-- **Wire framing and order.**  In every run without a mode change, the messages handed over
so far — control messages as they were queued, frames as they were built, in that order — split
into those that are whole on the wire, the frame in flight, and the queue; and the wire is
those whole messages and a piece of the next one.  The frame in flight still has the bytes it
was built with.  What happens later only adds messages behind. -/
theorem wire_framed_in_order (env : Env) {c : Client D} (es es' : List Event) (h₀ : c.tx.Unsent)
    (hes : ∀ ev ∈ es ++ es', ev.isModeChange = false) :
    let t := (run (step env) c es).tx
    let t' := (run (step env) c (es ++ es')).tx
    (∃ done, t.msgs =
        done ++ ((if t.outActive then t.lastFrame else none).toList ++ t.outq.map Sent.ctrl) ∧
      t.wire = done.flatMap Sent.bytes ++
        (if t.outActive then t.segs.take t.outOff else (t.outq.headD []).take t.outqOff)) ∧
    (t.outActive = true → ∃ f, t.lastFrame = some f ∧ t.segs = f.bytes) ∧
    t.wire <+: t.msgs.flatMap Sent.bytes ∧ t.msgs <+: t'.msgs := by
  obtain ⟨hf, -⟩ := run_framed env (h₀.framed rfl)
    (fun ev hev => hes ev (List.mem_append_left es' hev))
  have hrun : run (step env) c (es ++ es') = run (step env) (run (step env) c es) es' :=
    List.foldl_append
  obtain ⟨-, hp⟩ := run_framed env hf
    (fun ev hev => hes ev (List.mem_append_right es hev))
  refine ⟨?_, fun ha => ?_, hf.outbox.wire_prefix, hrun ▸ hp⟩
  · obtain ⟨done, hm, hw⟩ := hf.outbox.split
    refine ⟨done, hm, hw.trans ?_⟩
    congr 1
    by_cases ha : (run (step env) c es).tx.outActive = true
    · obtain ⟨f, hf⟩ := hf.flight ha
      simp [Outbox.started, Tx.outbox, ha, hf.last, hf.segs]
    · cases hq : (run (step env) c es).tx.outq <;>
        simp [Outbox.started, Tx.outbox, ha, hq, Sent.bytes]
  · obtain ⟨f, hf⟩ := hf.flight ha
    exact ⟨f, hf.last, hf.segs⟩

end Runs

/-- A hello and a rectangle of two pixels, both out. -/
theorem wire_framed_in_order_tiny :
    let t := (run (step Env.willing) (Client.tiny Env.willing) [.outReady false,
      .damage (fun _ _ => 0xFFFFFF) [⟨0, 0, 2, 1⟩], .outReady false, .outReady false]).tx
    t.wire.length = 40 ∧ t.wire <+: t.msgs.flatMap Sent.bytes := by
  have h := wire_framed_in_order Env.willing (c := Client.tiny Env.willing) [.outReady false,
      .damage (fun _ _ => 0xFFFFFF) [⟨0, 0, 2, 1⟩], .outReady false, .outReady false] []
    ⟨rfl, rfl, rfl, rfl⟩ (by simp [Event.isModeChange])
  exact ⟨by decide +kernel, h.2.2.1⟩

end Sremfb
