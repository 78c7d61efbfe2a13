import Sremfb.Server.Convert
import Sremfb.Server.Lz4
import Sremfb.Lib.Rect

/-!
# The server's per-client state

`struct SremfbClient`, cut along the lines of who writes what.  `Tx` is the transmit side
(`xmit.c`): the frame buffers, the dirty region, the control queue, the frame in flight and the
mode.  `Ctl` is the pressure controller (`control.c`).  `Negotiated` is what the client hello
fixed for the whole connection.  A `Client` is the three together.

Three fields of the model have no counterpart in the struct.  `Tx.wire` is the socket's side:
every byte it has accepted.  `Tx.log` records, in the order things happened, each message handed
to the transmitter and each moment H.264 was switched on; nothing reads it, and it is what the
results about ordering are stated over.  `Client.tick` counts the interactions with the outside
world, and `Env` answers the `k`-th of them: what the clock reads, how much the socket takes,
what the encoder returns.  A theorem quantified over `Env` is thereby about every behaviour of
the outside.

The estimates of the controller are C doubles.  The development never computes with them, so
they live in an arbitrary type with the operations of the source and no laws (`CDouble`):
whatever holds here holds of IEEE arithmetic.  Statistics counters and log texts, which no
decision reads, are left out.
-/

namespace Sremfb

open Lib

/-! ## The outside world -/

/-- The environment: the answer to the `k`-th interaction, and the fixed settings. -/
structure Env where
  /-- `g_get_monotonic_time()`, in microseconds. -/
  clock : ℕ → ℤ
  /-- `send()`: negative for a fatal error, else the most bytes it takes (`0` is EAGAIN). -/
  sock : ℕ → ℤ
  /-- `sremfb_enc_open()` succeeds. -/
  encOpen : ℕ → Bool
  /-- `sremfb_enc_encode()`: `none` for a failure, else the access unit and whether it is an
  IDR; an empty access unit is the result `0`. -/
  encode : ℕ → Option (List UInt8 × Bool)
  /-- `x264_encoder_reconfig()` succeeds. -/
  reconfig : ℕ → Bool
  /-- `SREMFB_FORCE_H264` is set. -/
  forceH264 : Bool
  /-- `SREMFB_NO_H264` is set. -/
  noH264 : Bool
  /-- `SREMFB_NO_DITHER` is not set. -/
  dither : Bool
  lz4 : Lz4

/-- The operations of `double` the controller uses. -/
class CDouble (D : Type) extends Add D, Sub D, Mul D, Div D, BEq D, OfScientific D where
  ofInt : ℤ → D
  lt : D → D → Bool
  le : D → D → Bool
  /-- Conversion to an integer type, towards zero. -/
  trunc : D → ℤ

/-- Exact arithmetic, to evaluate concrete runs with. -/
instance : CDouble ℚ where
  ofInt n := n
  lt a b := decide (a < b)
  le a b := decide (a ≤ b)
  trunc q := q.num.tdiv q.den

/-! ## The state -/

/-- `SremfbClientState`. -/
inductive ClientState
  | modeWait
  | streaming
  deriving DecidableEq, Repr

/-- `SremfbXmitMode`. -/
inductive XmitMode
  | raw
  | h264
  deriving DecidableEq, Repr

/-- `SremfbCtlState`. -/
inductive CtlState
  | rawSteady
  | rawSuspect
  | h264Active
  | h264Cooldown
  deriving DecidableEq, Repr

/-- What the client hello fixes: its resolution, pixel format and feature bits. -/
structure Negotiated where
  xres : UInt16
  yres : UInt16
  pixfmt : PixFmt
  lz4 : Bool
  feedback : Bool
  h264Cap : Bool
  deriving DecidableEq, Repr

/-- An entry of the log: a message handed to the transmitter, or a switch to H.264. -/
inductive Sent
  /-- `xmit_mode` became H264, with the clock at that moment. -/
  | opened (t : ℤ)
  /-- A message put on the control queue. -/
  | ctrl (msg : List UInt8)
  /-- A RAW or LZ4 rectangle. -/
  | rect (hdr : FrameHdr) (payload : List UInt8)
  /-- An access unit, and whether the encoder was told to force an IDR. -/
  | au (hdr : FrameHdr) (payload : List UInt8) (forced : Bool)
  deriving DecidableEq

namespace Sent

def bytes : Sent → List UInt8
  | .opened _ => []
  | .ctrl m => m
  | .rect hdr p => hdr.bytes ++ p
  | .au hdr p _ => hdr.bytes ++ p

/-- The entry is a message, not a switch. -/
def isMsg : Sent → Bool
  | .opened _ => false
  | _ => true

end Sent

/-- The transmit side of `struct SremfbClient`. -/
structure Tx where
  state : ClientState := .modeWait
  /-- `fd >= 0`. -/
  fd : Bool := true
  /-- `lost_id != 0`: the client is scheduled for loss. -/
  lost : Bool := false
  width : ℕ := 0
  height : ℕ := 0
  /-- `grabbuf`, `shadowbuf`, `rectbuf` and `sendbuf` are allocated; both sources allocate and
  free the four together. -/
  bufs : Bool := false
  grabbuf : Frame := fun _ _ => 0
  shadowbuf : Frame := fun _ _ => 0
  rectbufSize : ℕ := 0
  sendbufSize : ℕ := 0
  /-- What was last written at the start of `sendbuf`. -/
  sendbuf : List UInt8 := []
  /-- The encoder's own output buffer. -/
  encbuf : List UInt8 := []
  outq : List (List UInt8) := []
  outqOff : ℕ := 0
  /-- `out_seg_len[2]`; segment 0 lies in `sendbuf`, segment 1 in the encoder's buffer. -/
  segLen0 : ℕ := 0
  segLen1 : ℕ := 0
  outOff : ℕ := 0
  outActive : Bool := false
  outWatch : Bool := false
  outRetry : Bool := false
  dirty : List Rect := []
  dirtyAll : Bool := false
  xmitMode : XmitMode := .raw
  /-- `enc != NULL`. -/
  enc : Bool := false
  h264Failed : Bool := false
  forceIdr : Bool := false
  wireTotal : ℕ := 0
  wire : List UInt8 := []
  log : List Sent := []

/-- The controller side of `struct SremfbClient`. -/
structure Ctl (D : Type) where
  state : CtlState := .rawSteady
  sinceUs : ℤ := 0
  calmUs : ℤ := 0
  exitUs : ℤ := 0
  probeBackoff : ℕ := 0
  pingTimer : Bool := false
  lastPingUs : ℤ := 0
  lastPongUs : ℤ := 0
  pingsOutstanding : ℕ := 0
  pingWireMark : ℕ := 0
  delayEwmaUs : D
  capacityBps : D
  lz4RatioEwma : D
  rawRateBps : D
  grabFps : D
  lastGrabUs : ℤ := 0
  lastDeliverUs : ℤ := 0
  damageContUs : ℤ := 0
  capWinStartUs : ℤ := 0
  capWinBytes : ℕ := 0
  rawWinBytes : ℕ := 0
  /-- The encoder's target bitrate. -/
  kbps : ℤ := 0
  lastEncUs : ℤ := 0

/-- `struct SremfbClient`. -/
structure Client (D : Type) where
  neg : Negotiated
  tx : Tx := {}
  ctl : Ctl D
  tick : ℕ := 0

variable {D : Type}

/-- A freshly accepted client: everything zero except what its hello said. -/
def Client.fresh [CDouble D] (neg : Negotiated) : Client D where
  neg := neg
  ctl := { delayEwmaUs := 0.0, capacityBps := 0.0, lz4RatioEwma := 0.0, rawRateBps := 0.0,
           grabFps := 0.0 }

/-- One interaction with the outside has taken place. -/
def Client.ticked (c : Client D) : Client D := { c with tick := c.tick + 1 }

@[simp] lemma Client.ticked_neg (c : Client D) : c.ticked.neg = c.neg := rfl

@[simp] lemma Client.ticked_tx (c : Client D) : c.ticked.tx = c.tx := rfl

@[simp] lemma Client.ticked_ctl (c : Client D) : c.ticked.ctl = c.ctl := rfl

@[simp] lemma Client.ticked_tick (c : Client D) : c.ticked.tick = c.tick + 1 := rfl

/-- The messages of the log, in the order they were handed over. -/
def Tx.msgs (t : Tx) : List Sent := t.log.filter Sent.isMsg

end Sremfb
