import Sremfb.Server.Xmit
import Sremfb.Lib.Run

/-!
# Frame sources and the event loop

Everything that happens to a client happens in a callback of one single-threaded main loop.
`Event` lists them, with what the outside chooses in each; `step` dispatches to the function
the loop calls.  A timer or a watch that is not armed does not fire, so those events are
guarded by their source ids.

The two frame sources start a stream differently.  EVDI waits for the compositor: the first
`on_mode_changed` sends the hello and enters STREAMING, and every later one resets the transmit
queue and rebuilds the buffers without a new hello.  KVM streams from `kvm_acquire` on; its
`repaint_client` marks the whole frame dirty by hand.

A damage report comes with the frame as the source left it, since the source writes `grabbuf`
before it reports.  The bits that input and audio put into the server hello are parameters.
-/

namespace Sremfb

open Lib

variable {D : Type}

/-- The size both sources give `sendbuf`: the header and LZ4's bound for a full frame. -/
def sendbufSizeFor (rectbufSize : ℕ) : ℕ :=
  (frameHdrSize + (lz4CompressBound (intOfSize rectbufSize)).toNat) % 2 ^ 64

/-- `(size_t) width * height * bytespp`. -/
def rectbufSizeFor (width height bytespp : ℕ) : ℕ := width * height * bytespp % 2 ^ 64

namespace Tx

/-- `send_ctrl` of either source: a payload-less control message. -/
def sendCtrl (t : Tx) (e : Encoding) : Tx :=
  if t.fd = false ∨ t.state ≠ .streaming ∨ t.lost = true then t else t.xmitCtrl (ctrlMsg e)

/-- The buffers of a stream of the given size, with the content `grabbuf` starts with. -/
def withBuffers (t : Tx) (w h : ℕ) (fmt : PixFmt) (grab : Frame) : Tx :=
  { t with
    width := w
    height := h
    bufs := true
    grabbuf := grab
    shadowbuf := fun _ _ => 0
    rectbufSize := rectbufSizeFor w h fmt.bytespp
    sendbufSize := sendbufSizeFor (rectbufSizeFor w h fmt.bytespp) }

end Tx

/-- The hello flags both sources announce; `extra` are the bits of input and audio. -/
def srvFlags (env : Env) (c : Client D) (extra : UInt8) : UInt8 :=
  (if c.neg.feedback then srvFlagPing else 0) |||
    (if c.neg.feedback && c.neg.h264Cap && !c.tx.h264Failed && !env.noH264 then srvFlagH264
      else 0) ||| extra

/-- The end of `on_mode_changed` in MODE_WAIT, and of `kvm_acquire`: hello, STREAMING, start of
the controller. -/
def startStreaming [CDouble D] (env : Env) (c : Client D) (extra : UInt8) (token : UInt16) :
    Client D :=
  let t := c.tx.xmitHello c.neg.pixfmt (srvFlags env c extra) token
  ctlStart env { c with tx := { t with state := .streaming } }

lemma ctlStart_tx [CDouble D] (env : Env) (c : Client D) :
    (ctlStart env c).tx = { c.tx with xmitMode := .raw, wireTotal := 0 } := by
  simp [ctlStart]

lemma startStreaming_tx [CDouble D] (env : Env) (c : Client D) (extra : UInt8) (token : UInt16) :
    (startStreaming env c extra token).tx =
      { c.tx.xmitHello c.neg.pixfmt (srvFlags env c extra) token with
        state := .streaming, xmitMode := .raw, wireTotal := 0 } :=
  ctlStart_tx env _

/-- `on_mode_changed` of a usable mode.  `grab` is the uninitialised new `grabbuf`. -/
def onModeChanged [CDouble D] (env : Env) (c : Client D) (w h : ℤ) (grab : Frame)
    (extra : UInt8) (token : UInt16) : Client D :=
  if w ≤ 0 ∨ h ≤ 0 then c
  else
    let c := xmitReset c
    let c := if c.tx.enc = true ∧ (w ≠ c.tx.width ∨ h ≠ c.tx.height) then
      { c with tx := { c.tx with enc := false, xmitMode := .raw } } else c
    let c := { c with tx := c.tx.withBuffers w.toNat h.toNat c.neg.pixfmt grab }
    if c.tx.state = .modeWait ∧ c.tx.fd = true then startStreaming env c extra token else c

/-- The encoder survives the mode change: there is none, or the size is the old one. -/
def Tx.keepsEncoder (t : Tx) (w h : ℤ) : Bool :=
  !t.enc || (decide (w = t.width) && decide (h = t.height))

/-- The transmit side of a mode change: reset, encoder closed on a new size, new buffers. -/
def Tx.remade (t : Tx) (w h : ℤ) (fmt : PixFmt) (grab : Frame) : Tx :=
  Tx.withBuffers { t with
    outWatch := false
    outRetry := false
    outq := []
    outqOff := 0
    outActive := false
    outOff := 0
    dirty := []
    dirtyAll := false
    enc := t.enc && t.keepsEncoder w h
    xmitMode := if t.keepsEncoder w h then t.xmitMode else .raw } w.toNat h.toNat fmt grab

lemma onModeChanged_eq [CDouble D] (env : Env) (c : Client D) {w h : ℤ} (hw : 0 < w) (hh : 0 < h)
    (grab : Frame) (extra : UInt8) (token : UInt16) :
    onModeChanged env c w h grab extra token =
      if c.tx.state = .modeWait ∧ c.tx.fd = true then
        startStreaming env { c with
          tx := c.tx.remade w h c.neg.pixfmt grab
          ctl := { c.ctl with pingsOutstanding := 0 } } extra token
      else { c with
        tx := c.tx.remade w h c.neg.pixfmt grab
        ctl := { c.ctl with pingsOutstanding := 0 } } := by
  unfold onModeChanged
  rw [if_neg (by omega)]
  by_cases hk : c.tx.keepsEncoder w h = true
  · have hc : ¬((xmitReset c).tx.enc = true ∧
        (w ≠ (xmitReset c).tx.width ∨ h ≠ (xmitReset c).tx.height)) := by
      simp only [xmitReset, Tx.keepsEncoder] at *
      grind
    have hr : c.tx.remade w h c.neg.pixfmt grab =
        (xmitReset c).tx.withBuffers w.toNat h.toNat c.neg.pixfmt grab := by
      simp [Tx.remade, hk, xmitReset]
    dsimp only
    rw [if_neg hc, hr]
    rfl
  · have hc : (xmitReset c).tx.enc = true ∧
        (w ≠ (xmitReset c).tx.width ∨ h ≠ (xmitReset c).tx.height) := by
      simp only [xmitReset, Tx.keepsEncoder] at *
      grind
    have hr : c.tx.remade w h c.neg.pixfmt grab =
        Tx.withBuffers { (xmitReset c).tx with enc := false, xmitMode := .raw } w.toNat h.toNat
          c.neg.pixfmt grab := by
      simp [Tx.remade, hk, xmitReset]
    dsimp only
    rw [if_pos hc, hr]
    rfl

/-- `kvm_acquire` of a fresh client, up to its first picture; `w` and `h` are the geometry it
chose. -/
def kvmAcquire [CDouble D] (env : Env) (c : Client D) (w h : ℕ) (extra : UInt8)
    (token : UInt16) : Client D :=
  let c := { c with tx := c.tx.withBuffers w h c.neg.pixfmt (fun _ _ => 0) }
  startStreaming env c extra token

/-- `repaint_client` with a picture: the new `grabbuf`, UNBLANK, the whole frame dirty. -/
def repaintClient (t : Tx) (grab : Frame) : Tx :=
  let t := { t with grabbuf := grab }.sendCtrl .unblank
  { t with dirtyAll := true }.xmitKick

/-- A client as its frame source takes it on: EVDI waits for the compositor, KVM streams at
once. -/
inductive Accepted [CDouble D] (env : Env) (neg : Negotiated) : Client D → Prop
  | evdi : Accepted env neg (Client.fresh neg)
  | kvm (w h : ℕ) (extra : UInt8) (token : UInt16) :
      Accepted env neg (kvmAcquire env (Client.fresh neg) w h extra token)

/-! ## The event loop -/

/-- The callbacks of the main loop that reach a client. -/
inductive Event
  /-- The source wrote `grabbuf` and reports damage. -/
  | damage (grab : Frame) (rects : List Rect)
  /-- The write watch fired; `err` is the `G_IO_ERR | G_IO_HUP` condition. -/
  | outReady (err : Bool)
  | retry
  /-- A PONG from the client. -/
  | pong (tEcho : UInt64)
  | pingTick
  /-- A control message from elsewhere in the server. -/
  | ctrl (msg : List UInt8)
  /-- DPMS of the virtual monitor, or signal loss and return of the capture. -/
  | dpms (on : Bool)
  /-- A decision taken outside the modelled controller. -/
  | setMode (mode : XmitMode)
  /-- KVM: a full repaint. -/
  | repaint (grab : Frame)
  /-- EVDI: the compositor set a mode. -/
  | modeChanged (w h : ℤ) (grab : Frame) (extra : UInt8) (token : UInt16)
  /-- Some path scheduled the client for loss (upstream garbage, resize policy). -/
  | lost

/-- The compositor set a mode: the callback that calls `sremfb_xmit_reset`. -/
def Event.isModeChange : Event → Bool
  | .modeChanged .. => true
  | _ => false

/-- A decision from outside the controller, which the program itself never takes. -/
def Event.isDecision : Event → Bool
  | .setMode _ => true
  | _ => false

/-- One callback. -/
def step [CDouble D] (env : Env) (c : Client D) : Event → Client D
  | .damage grab rects =>
      -- both sources report damage of a streaming client only
      if c.tx.state = .streaming ∧ c.tx.fd = true then
        xmitDamage env { c with tx := { c.tx with grabbuf := grab } } rects
      else c
  | .outReady err => if c.tx.outWatch then onOutReady env err c else c
  | .retry => if c.tx.outRetry then { c with tx := retryCb c.tx } else c
  | .pong t => if c.neg.feedback then ctlOnPong env c t else c
  | .pingTick => if c.ctl.pingTimer then pingTick env c else c
  | .ctrl m => { c with tx := c.tx.xmitCtrl m }
  | .dpms on => { c with tx := c.tx.sendCtrl (if on then .unblank else .blank) }
  | .setMode m => xmitSetMode env c m
  | .repaint grab =>
      if c.tx.state = .streaming ∧ c.tx.bufs = true then
        { c with tx := repaintClient c.tx grab }
      else c
  | .modeChanged w h grab extra token => onModeChanged env c w h grab extra token
  | .lost => { c with tx := c.tx.scheduleClientLost }

/-! ## A concrete outside -/

/-- An outside in which everything works: a second passes per interaction, the socket takes
whatever it is given and the encoder returns an IDR of one byte. -/
def Env.willing : Env where
  clock k := (k + 1) * 1000000
  sock _ := 65536
  encOpen _ := true
  encode _ := some ([0], true)
  reconfig _ := true
  forceH264 := false
  noH264 := false
  dither := true
  lz4 := Lz4.literal

/-- The same with `SREMFB_FORCE_H264` set. -/
def Env.forced : Env := { Env.willing with forceH264 := true }

/-- Then with an encoder that opens and fails. -/
def Env.failing : Env := { Env.forced with encode := fun _ => none }

/-- The hello of a client of two pixels that can do everything. -/
def Negotiated.tiny : Negotiated where
  xres := 2
  yres := 1
  pixfmt := .rgb565
  lz4 := true
  feedback := true
  h264Cap := true

/-- That client, streaming. -/
def Client.tiny (env : Env) : Client ℚ := kvmAcquire env (Client.fresh .tiny) 2 1 0 0

end Sremfb
