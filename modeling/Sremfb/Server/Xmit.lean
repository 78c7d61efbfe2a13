import Sremfb.Server.Control

/-!
# The transmit path (`xmit.c`, second part)

Damage accumulates as a dirty region — sixteen rectangles that collapse to a bounding box on
overflow — and the next frame message is built from the current `grabbuf` only when the socket
can take it.  A pass of the drain (`on_out_ready`) finishes the frame in flight, then the queued
control messages, then builds at most one frame.

The functions follow the source's order of effects.  `frame_start` reports the delivery to the
controller *after* the frame is in flight, so a mode switch made from inside it sees
`out_active`; `build_h264_frame` falls back to RAW from the middle of a build when the encoder
fails.

Loops are structural.  The drain of the frame in flight runs on a fuel of the bytes left, each
iteration sending at least one of them, and the queue's loop runs on the queue.
-/

namespace Sremfb

open Lib

variable {D : Type}

/-! ## The dirty region -/

namespace Tx

/-- `XMIT_DIRTY_MAX`. -/
def dirtyMax : ℕ := 16

/-- The loop of `dirty_add`: merges `r` into the first rectangle it touches. -/
def mergeTouching (r : Rect) : List Rect → Option (List Rect)
  | [] => none
  | d :: ds => if d.touches r then some (d.union r :: ds) else (mergeTouching r ds).map (d :: ·)

/-- `dirty_add`. -/
def dirtyAdd (t : Tx) (r : Rect) : Tx :=
  if t.dirtyAll then t
  else
    match mergeTouching r t.dirty with
    | some ds => { t with dirty := ds }
    | none =>
        if t.dirty.length < dirtyMax then { t with dirty := t.dirty ++ [r] }
        else
          -- overflow: everything collapses into one bounding box
          match t.dirty with
          | [] => t
          | d :: ds => { t with dirty := [(ds.foldl Rect.union d).union r] }

/-- The `memcmp` of `rect_trim`: row `y` of the rectangle is what the client last got. -/
def rowSame (t : Tx) (r : Rect) (y : ℤ) : Bool :=
  (List.range (r.x2 - r.x1).toNat).all fun i =>
    t.grabbuf (r.x1 + i) y == t.shadowbuf (r.x1 + i) y

/-- `rect_trim`; the result is non-empty exactly when the source returns `TRUE`. -/
def rectTrim (t : Tx) (r : Rect) : Rect :=
  if !t.bufs then r
  else
    let r := { r with y1 := trimTop (t.rowSame r) (r.y2 - r.y1).toNat r.y1 }
    { r with y2 := trimBottom (t.rowSame r) (r.y2 - r.y1).toNat r.y2 }

/-- The clamp at the head of `sremfb_xmit_damage`. -/
def clampRect (t : Tx) (r : Rect) : Rect where
  x1 := clamp r.x1 0 t.width
  y1 := clamp r.y1 0 t.height
  x2 := clamp r.x2 0 t.width
  y2 := clamp r.y2 0 t.height

/-- The body of the loop of `sremfb_xmit_damage`; the number is `raw`. -/
def damageRect (bytespp : ℕ) (a : Tx × ℕ) (r : Rect) : Tx × ℕ :=
  let (t, raw) := a
  let r := t.clampRect r
  if r.x2 ≤ r.x1 ∨ r.y2 ≤ r.y1 then (t, raw)
  else
    let r := t.rectTrim r
    if r.y2 ≤ r.y1 then (t, raw)
    else
      let raw := raw + (r.x2 - r.x1).toNat * (r.y2 - r.y1).toNat * bytespp
      if t.xmitMode = .h264 then ({ t with dirtyAll := true }, raw)
      else (t.dirtyAdd r, raw)

def damageRects (bytespp : ℕ) (t : Tx) (rects : List Rect) : Tx × ℕ :=
  rects.foldl (damageRect bytespp) (t, 0)

/-- Trimming keeps the columns and stays between the old rows. -/
lemma rectTrim_bounds (t : Tx) (r : Rect) :
    (t.rectTrim r).x1 = r.x1 ∧ (t.rectTrim r).x2 = r.x2 ∧ r.y1 ≤ (t.rectTrim r).y1 ∧
      (t.rectTrim r).y2 ≤ r.y2 := by
  unfold rectTrim
  split
  · exact ⟨rfl, rfl, le_rfl, le_rfl⟩
  · have h₁ := le_trimTop (t.rowSame r) (r.y2 - r.y1).toNat r.y1
    exact ⟨rfl, rfl, h₁.1, (trimBottom_le _ _ _).1⟩

/-- Damage only changes the dirty region. -/
lemma dirtyAdd_eq (t : Tx) (r : Rect) : ∃ ds, t.dirtyAdd r = { t with dirty := ds } := by
  unfold dirtyAdd
  split
  · exact ⟨t.dirty, rfl⟩
  split
  · exact ⟨_, rfl⟩
  split
  · exact ⟨_, rfl⟩
  split
  · exact ⟨t.dirty, rfl⟩
  · exact ⟨_, rfl⟩

lemma damageRect_eq (bpp : ℕ) (t : Tx) (raw : ℕ) (r : Rect) :
    ∃ ds a, (damageRect bpp (t, raw) r).1 = { t with dirty := ds, dirtyAll := a } := by
  unfold damageRect
  dsimp only
  split
  · exact ⟨t.dirty, t.dirtyAll, rfl⟩
  split
  · exact ⟨t.dirty, t.dirtyAll, rfl⟩
  split
  · exact ⟨t.dirty, true, rfl⟩
  · obtain ⟨ds, h⟩ := t.dirtyAdd_eq (t.rectTrim (t.clampRect r))
    exact ⟨ds, t.dirtyAll, h⟩

lemma foldl_damageRect_eq (bpp : ℕ) (rects : List Rect) (t : Tx) (raw : ℕ) :
    ∃ ds a, (rects.foldl (damageRect bpp) (t, raw)).1 =
      { t with dirty := ds, dirtyAll := a } := by
  induction rects generalizing t raw with
  | nil => exact ⟨t.dirty, t.dirtyAll, rfl⟩
  | cons r rects ih =>
      obtain ⟨ds, a, h⟩ := damageRect_eq bpp t raw r
      obtain ⟨ds', a', h'⟩ := ih (damageRect bpp (t, raw) r).1 (damageRect bpp (t, raw) r).2
      refine ⟨ds', a', ?_⟩
      rw [List.foldl_cons]
      exact h'.trans (by rw [h])

lemma damageRects_eq (bpp : ℕ) (t : Tx) (rects : List Rect) :
    ∃ ds a, (t.damageRects bpp rects).1 = { t with dirty := ds, dirtyAll := a } :=
  foldl_damageRect_eq bpp rects t 0

end Tx

/-- `sremfb_xmit_damage`. -/
def xmitDamage [CDouble D] (env : Env) (c : Client D) (rects : List Rect) : Client D :=
  let (t, raw) := c.tx.damageRects c.neg.pixfmt.bytespp rects
  let c := { c with tx := t }
  if raw = 0 then c
  else
    let c := if c.neg.feedback then ctlOnDamage env c raw else c
    { c with tx := c.tx.xmitKick }

/-! ## Frame builds -/

namespace Tx

/-- `shadow_update`. -/
def shadowUpdate (t : Tx) (r : Rect) : Tx :=
  if !t.bufs then t
  else { t with shadowbuf := fun x y => if r.Mem x y then t.grabbuf x y else t.shadowbuf x y }

lemma shadowUpdate_eq (t : Tx) (r : Rect) :
    ∃ f, t.shadowUpdate r = { t with shadowbuf := f } := by
  unfold shadowUpdate
  split
  · exact ⟨t.shadowbuf, rfl⟩
  · exact ⟨_, rfl⟩

lemma shadowUpdate_xmitMode (t : Tx) (r : Rect) : (t.shadowUpdate r).xmitMode = t.xmitMode := by
  obtain ⟨f, hf⟩ := t.shadowUpdate_eq r
  rw [hf]

/-- The assignments of `frame_start`.  `what` is the message for the log. -/
def frameStart (t : Tx) (len0 len1 : ℕ) (what : Sent) : Tx :=
  { t with
    segLen0 := len0
    segLen1 := len1
    outOff := 0
    outActive := true
    wireTotal := t.wireTotal + (len0 + len1)
    log := t.log ++ [what] }

end Tx

/-- `frame_start`: the assignments, then the report to the controller. -/
def frameStart [CDouble D] (env : Env) (c : Client D) (len0 len1 : ℕ) (what : Sent) :
    Client D :=
  let c := { c with tx := c.tx.frameStart len0 len1 what }
  if c.neg.feedback then ctlOnDeliver env c (len0 + len1) else c

/-- The converted pixels of a rectangle, as `build_raw_rect` leaves them in `rectbuf`. -/
def rectPixels (env : Env) (neg : Negotiated) (f : Frame) (r : Rect) : List UInt8 :=
  convertRows env.dither neg.pixfmt f r.x1.toNat r.y1.toNat (r.x2 - r.x1).toNat
    (r.y2 - r.y1).toNat

/-- The payload of a rectangle: its LZ4 block when the client takes LZ4 and the block is
smaller, else the pixels.  The sizes handed to LZ4 are `int`s. -/
def rectPayload (env : Env) (neg : Negotiated) (raw : List UInt8) : Encoding × List UInt8 :=
  let rawLen := raw.length
  if neg.lz4 then
    match env.lz4.compressFast raw (intOfSize rawLen) (lz4CompressBound (intOfSize rawLen)) with
    | some out => if 0 < out.length ∧ out.length < rawLen then (.lz4, out) else (.raw, raw)
    | none => (.raw, raw)
  else (.raw, raw)

/-- The message `build_raw_rect` puts into `sendbuf`. -/
def rectMessage (env : Env) (neg : Negotiated) (f : Frame) (r : Rect) : FrameHdr × List UInt8 :=
  let p := rectPayload env neg (rectPixels env neg f r)
  ({ encoding := p.1.code
     x := UInt16.ofNat r.x1.toNat
     y := UInt16.ofNat r.y1.toNat
     w := UInt16.ofNat (r.x2 - r.x1).toNat
     h := UInt16.ofNat (r.y2 - r.y1).toNat
     payloadLen := UInt32.ofNat p.2.length }, p.2)

/-- `build_raw_rect`. -/
def buildRawRect [CDouble D] (env : Env) (c : Client D) (r : Rect) : Client D :=
  let m := rectMessage env c.neg c.tx.grabbuf r
  let t := c.tx.shadowUpdate r
  let c := { c with tx := { t with sendbuf := m.1.bytes ++ m.2 } }
  frameStart env c (frameHdrSize + m.2.length) 0 (.rect m.1 m.2)

/-- The header `build_h264_frame` writes for an access unit. -/
def auHeader (t : Tx) (nal : List UInt8) (idr : Bool) : FrameHdr where
  encoding := Encoding.h264.code
  reserved0 := if idr then 1 else 0
  w := UInt16.ofNat t.width
  h := UInt16.ofNat t.height
  payloadLen := UInt32.ofNat nal.length

/-- `build_h264_frame`. -/
def buildH264Frame [CDouble D] (env : Env) (c : Client D) : Client D :=
  let t := c.tx.shadowUpdate (Rect.full c.tx.width c.tx.height)
  let forced := t.forceIdr
  let out := env.encode c.tick
  let c := Client.ticked { c with tx := { t with forceIdr := false } }
  match out with
  | none =>
      let c := { c with tx := { c.tx with encbuf := [], h264Failed := true } }
      xmitSetMode env c .raw
  | some (nal, idr) =>
      let c := { c with
        tx := { c.tx with encbuf := nal }
        ctl := { c.ctl with lastEncUs := env.clock c.tick } }.ticked
      if nal.length = 0 then c
      else
        let hdr := auHeader c.tx nal idr
        let c := { c with tx := { c.tx with sendbuf := hdr.bytes } }
        frameStart env c frameHdrSize nal.length (.au hdr nal forced)

/-- `build_next`, with its result. -/
def buildNext [CDouble D] (env : Env) (c : Client D) : Client D × Bool :=
  if c.tx.state ≠ .streaming ∨ c.tx.bufs = false then (c, false)
  else
    match c.tx.xmitMode with
    | .h264 =>
        if c.tx.dirtyAll = false ∧ c.tx.dirty = [] then (c, false)
        else
          let (c, skip) := ctlSkipEncode env c
          -- the far end is behind: pace the encodes with the retry timer
          if skip then ({ c with tx := { c.tx with outRetry := true } }, false)
          else
            let c := { c with tx := { c.tx with dirtyAll := false, dirty := [] } }
            let c := buildH264Frame env c
            (c, c.tx.outActive)
    | .raw =>
        if c.tx.dirtyAll then
          let c := { c with tx := { c.tx with dirtyAll := false, dirty := [] } }
          let c := buildRawRect env c (Rect.full c.tx.width c.tx.height)
          (c, c.tx.outActive)
        else
          match c.tx.dirty with
          | [] => (c, false)
          | r :: ds =>
              let c := { c with tx := { c.tx with dirty := ds } }
              let c := buildRawRect env c r
              (c, c.tx.outActive)

/-- `retry_cb`. -/
def retryCb (t : Tx) : Tx := { t with outRetry := false }.xmitKick

/-! ## The drain -/

/-- How a sending loop ends: everything out, EAGAIN, or a fatal error. -/
inductive SendResult
  | done
  | again
  | fail
  deriving DecidableEq, Repr

/-- `net_send_some`: the bytes the socket took are on the wire. -/
def netSendSome (env : Env) (c : Client D) (buf : List UInt8) : Client D × Option ℕ :=
  let k := env.sock c.tick
  let c := c.ticked
  if k < 0 then (c, none)
  else
    let n := min k.toNat buf.length
    ({ c with tx := { c.tx with wire := c.tx.wire ++ buf.take n } }, some n)

/-- What the segment under the cursor still has to send. -/
def Tx.segRest (t : Tx) : List UInt8 :=
  if t.outOff < t.segLen0 then (t.sendbuf.take t.segLen0).drop t.outOff
  else (t.encbuf.take t.segLen1).drop (t.outOff - t.segLen0)

/-- The loop that finishes the frame in flight, on a fuel of the bytes left. -/
def finishFrame (env : Env) : ℕ → Client D → Client D × SendResult
  | 0, c => (c, .done)
  | k + 1, c =>
      if c.tx.outOff < c.tx.segLen0 + c.tx.segLen1 then
        match netSendSome env c c.tx.segRest with
        | (c, none) => (c, .fail)
        | (c, some 0) => (c, .again)
        | (c, some (n + 1)) =>
            finishFrame env k { c with tx := { c.tx with outOff := c.tx.outOff + (n + 1) } }
      else (c, .done)

/-- The loop over the control queue. -/
def drainQueue (env : Env) : List (List UInt8) → Client D → Client D × SendResult
  | [], c => (c, .done)
  | b :: q, c =>
      match netSendSome env c (b.drop c.tx.outqOff) with
      | (c, none) => (c, .fail)
      | (c, some n) =>
          let c := { c with tx := { c.tx with outqOff := c.tx.outqOff + n } }
          if c.tx.outqOff < b.length then (c, .again)
          else drainQueue env q { c with tx := { c.tx with outq := q, outqOff := 0 } }

/-- The watch is removed and the client scheduled for loss (`xmit_fail`). -/
def xmitFail (c : Client D) : Client D :=
  { c with tx := { c.tx with outWatch := false }.scheduleClientLost }

/-- Step 1 of `on_out_ready`. -/
def drainFrame (env : Env) (c : Client D) : Client D × SendResult :=
  if c.tx.outActive then
    match finishFrame env (c.tx.segLen0 + c.tx.segLen1 - c.tx.outOff) c with
    | (c, .done) => ({ c with tx := { c.tx with outActive := false, outOff := 0 } }, .done)
    | r => r
  else (c, .done)

/-- `on_out_ready`; `err` is the `G_IO_ERR | G_IO_HUP` condition. -/
def onOutReady [CDouble D] (env : Env) (err : Bool) (c : Client D) : Client D :=
  if err then xmitFail c
  else
    match drainFrame env c with
    | (c, .fail) => xmitFail c
    | (c, .again) => c
    | (c, .done) =>
        match drainQueue env c.tx.outq c with
        | (c, .fail) => xmitFail c
        | (c, .again) => c
        | (c, .done) =>
            match buildNext env c with
            | (c, true) => c
            | (c, false) => { c with tx := { c.tx with outWatch := false } }

/-- `sremfb_xmit_reset`. -/
def xmitReset (c : Client D) : Client D :=
  { c with
    tx := { c.tx with
      outWatch := false
      outRetry := false
      outq := []
      outqOff := 0
      outActive := false
      outOff := 0
      dirty := []
      dirtyAll := false }
    ctl := { c.ctl with pingsOutstanding := 0 } }

end Sremfb
