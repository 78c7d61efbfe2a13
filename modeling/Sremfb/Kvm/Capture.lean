import Sremfb.Kvm.Diff
import Sremfb.Lib.Run

/-!
# The capture and its clients (`capture.c`)

One V4L2 device feeds every client.  A frame that comes back from the driver is compared with the
retained one, the dirty rectangles are converted into the master image, the retained buffer goes
back to the driver and the new one takes its place; then each client gets the rectangles copied
into its `grabbuf` at its fit, or a full picture if it is marked `repaint`.  A probe finds the mode
of the source: it restreams, or blanks the clients.

What the device answers comes with the events: the result of `DQBUF`, of the one `QBUF` a frame
makes, of the query of the mode and of each request of a restream.  `driver` says which buffers the
driver holds, and `write` is the driver filling one; the flag `queued` of the source is kept beside
it.  `STREAMOFF` and `REQBUFS(0)` take every buffer back.  Timers only decide when a probe happens,
so a probe may come at any time.  The synthetic source (`testsrc.c`) is the case `fd = false`.

The scale of a fit is a `double` in the source and a rational here.
-/

namespace Sremfb

open Lib

/-! ## Fits -/

/-- `struct sremfb_kvm_fit`. -/
structure KvmFit where
  srcW : ℤ
  srcH : ℤ
  dstW : ℤ
  dstH : ℤ
  s : ℚ
  ox : ℤ
  oy : ℤ
  dw : ℤ
  dh : ℤ
  deriving DecidableEq, Repr

/-- `sremfb_kvm_fit`. -/
def kvmFit (sw sh dw dh : ℤ) : KvmFit :=
  if sw ≤ 0 ∨ sh ≤ 0 ∨ dw ≤ 0 ∨ dh ≤ 0 ∨ (sw = dw ∧ sh = dh) then
    ⟨sw, sh, dw, dh, 1, 0, 0, dw, dh⟩
  else
    let rx : ℚ := dw / sw
    let ry : ℚ := dh / sh
    let s := if rx < ry then rx else ry
    let w := min (sw * s + 1 / 2).floor dw
    let h := min (sh * s + 1 / 2).floor dh
    ⟨sw, sh, dw, dh, s, (dw - w) / 2, (dh - h) / 2, w, h⟩

/-- `fit_identity`. -/
def KvmFit.identity (f : KvmFit) : Bool :=
  f.s = 1 ∧ f.ox = 0 ∧ f.oy = 0 ∧ f.srcW = f.dstW ∧ f.srcH = f.dstH

/-- `blit_rect`: the picture with a rectangle of the master copied in, and where it lies there. -/
def blitRect (f : KvmFormat) (master : Frame) (fit : KvmFit) (r : Rect) (grab : Frame) :
    Option (Frame × Rect) :=
  let sx := max r.x1 0
  let sy := max r.y1 0
  let sx2 := min r.x2 f.srcW
  let sy2 := min r.y2 f.srcH
  if fit.srcW ≠ f.srcW ∨ fit.srcH ≠ f.srcH ∨ sx2 ≤ sx ∨ sy2 ≤ sy then none
  else if fit.s = 1 then
    let dx := fit.ox + sx
    let dy := fit.oy + sy
    let w := min sx2 (sx + (fit.dstW - dx)) - sx
    let h := min sy2 (sy + (fit.dstH - dy)) - sy
    if w ≤ 0 ∨ h ≤ 0 then none
    else
      let out : Rect := ⟨dx, dy, dx + w, dy + h⟩
      some (overlay grab out fun x y _ => master (sx + (x - dx)) (sy + (y - dy)), out)
  else
    let out : Rect := ⟨max (fit.ox + sx * fit.s).floor fit.ox, max (fit.oy + sy * fit.s).floor fit.oy,
      min (fit.ox + sx2 * fit.s + 999 / 1000).floor (fit.ox + fit.dw),
      min (fit.oy + sy2 * fit.s + 999 / 1000).floor (fit.oy + fit.dh)⟩
    if out.x2 ≤ out.x1 ∨ out.y2 ≤ out.y1 then none
    else
      -- nearest neighbour
      let near (d o size : ℤ) : ℤ := max 0 (min ((d - o) / fit.s).floor (size - 1))
      some (overlay grab out fun x y _ =>
        master (near x fit.ox f.srcW) (near y fit.oy f.srcH), out)

/-! ## State -/

inductive KvmGeometry
  | source
  | client
  deriving DecidableEq, Repr

inductive KvmResize
  | scale
  | reconnect
  deriving DecidableEq, Repr

/-- The two messages without a payload. -/
inductive Blanking
  | blank
  | unblank
  deriving DecidableEq, Repr

/-- A client that `kvm_acquire` has taken, as far as the capture goes: it is streaming, and open
until it leaves. -/
structure KvmClient where
  id : ℕ
  geomW : ℤ
  geomH : ℤ
  /-- `lost_id != 0`. -/
  lost : Bool := false
  fit : KvmFit
  repaint : Bool := false
  grabbuf : Frame := fun _ _ => 0
  /-- The blank messages queued so far, oldest first. -/
  ctrls : List Blanking := []
  dirtyAll : Bool := false
  /-- The rectangles handed to `sremfb_xmit_damage`. -/
  damage : List Rect := []

/-- `SREMFB_KVM_NBUF`. -/
def kvmNbuf : ℕ := 4

/-- `KVM_MAX_RECTS`. -/
def kvmMaxRects : ℕ := 16

/-- `SremfbKvmState`, and the clients of the server. -/
structure KvmState where
  tile : TileSize := .default
  pixfmt : Fourcc := .uyvy
  geometry : KvmGeometry := .source
  resize : KvmResize := .scale
  /-- `fd >= 0`; otherwise the synthetic source. -/
  fd : Bool := true
  streaming : Bool := false
  signal : Bool := false
  fmt : KvmFormat := {}
  buf : ℕ → Bytes := fun _ _ => 0
  queued : ℕ → Bool := fun _ => false
  /-- The buffers the driver holds. -/
  driver : ℕ → Bool := fun _ => false
  nbuf : ℕ := 0
  prev : Option ℕ := none
  master : Option Frame := none
  /-- `frame_watch_id != 0`. -/
  frameWatch : Bool := false
  clients : List KvmClient := []

/-! ## Fan-out -/

/-- `send_ctrl`. -/
def KvmClient.sendCtrl (c : KvmClient) (m : Blanking) : KvmClient :=
  if c.lost then c else { c with ctrls := c.ctrls ++ [m] }

namespace KvmState

variable (st : KvmState)

/-- The picture that `repaint_client` makes: black bars, and the whole master. -/
def repaintPicture (master : Frame) (fit : KvmFit) (grab : Frame) : Frame :=
  let grab := if fit.identity then grab else fun _ _ => 0
  (blitRect st.fmt master fit (Rect.full st.fmt.srcW st.fmt.srcH) grab).elim grab Prod.fst

/-- `repaint_client`. -/
def repaintClient (c : KvmClient) : KvmClient :=
  match st.signal, st.master, st.prev with
  | true, some master, some _ =>
      let c := { c with repaint := false, grabbuf := st.repaintPicture master c.fit c.grabbuf }
      { c.sendCtrl .unblank with dirtyAll := true }
  | _, _, _ => { c with repaint := true }

/-- The rectangles of a frame, copied one after the other: the picture and what it touched. -/
def blitRects (fit : KvmFit) (rects : List Rect) (grab : Frame) : Frame × List Rect :=
  match st.master with
  | none => (grab, [])
  | some master => rects.foldl (fun p r =>
      if p.2.length < kvmMaxRects then
        match blitRect st.fmt master fit r p.1 with
        | some (grab, out) => (grab, p.2 ++ [out])
        | none => p
      else p) (grab, [])

/-- The body of `fanout`. -/
def fanoutClient (rects : List Rect) (c : KvmClient) : KvmClient :=
  if c.repaint then st.repaintClient c
  else
    let p := st.blitRects c.fit rects c.grabbuf
    { c with grabbuf := p.1, damage := c.damage ++ p.2 }

/-- `fanout`. -/
def fanout (rects : List Rect) : KvmState :=
  { st with clients := st.clients.map (st.fanoutClient rects) }

/-- `blank_all`. -/
def blankAll : KvmState :=
  { st with clients := st.clients.map fun c => { c.sendCtrl .blank with repaint := false } }

/-- The body of `apply_resize`. -/
def resizeClient (c : KvmClient) : KvmClient :=
  if ¬(c.geomW = st.fmt.srcW ∧ c.geomH = st.fmt.srcH) ∧ st.resize = .reconnect ∧
      st.geometry = .source then
    { c with lost := true }
  else { c with
    fit := kvmFit st.fmt.srcW st.fmt.srcH c.geomW c.geomH
    grabbuf := fun _ _ => 0
    repaint := true }

/-- `apply_resize`. -/
def applyResize : KvmState := { st with clients := st.clients.map st.resizeClient }

/-! ## Frames -/

/-- `release_buf`; `ok` is what `QBUF` answers. -/
def releaseBuf (idx : ℕ) (ok : Bool) : KvmState :=
  if st.nbuf ≤ idx then st
  else if st.fd = true ∧ ok = false then st
  else { st with
    queued := Function.update st.queued idx true
    driver := Function.update st.driver idx true }

/-- The dirty rectangles of a frame. -/
def frameRects (idx : ℕ) : List Rect :=
  let dirty := st.fmt.kvmDiff st.tile (st.buf idx) (st.prev.map st.buf)
  if 0 < dirty.flatten.count true then st.fmt.kvmRects st.tile dirty kvmMaxRects else []

/-- `sremfb_kvm_frame`. -/
def kvmFrame (idx : ℕ) (ok : Bool) : KvmState :=
  let cur := st.buf idx
  let rects := st.frameRects idx
  let st := { st with
    queued := Function.update st.queued idx false
    master := st.master.map fun m => rects.foldl (fun m r => st.fmt.kvmConvertRect cur r m) m }
  let st := match st.prev with
    | some p => st.releaseBuf p ok
    | none => st
  let st := { st with prev := some idx }
  st.fanout rects

/-- A buffer that `DQBUF` gives back. -/
structure Dequeued where
  index : ℕ
  error : Bool
  bytesused : ℕ

/-- What `DQBUF` answers; `again` is `EAGAIN` without `G_IO_ERR`. -/
inductive Dqbuf
  | again
  | error
  | buffer (b : Dequeued)

/-- The frame is errored or truncated. -/
def discards (b : Dequeued) : Bool :=
  b.error ∨ b.bytesused = 0 ∨ b.bytesused < st.fmt.srcStride * st.fmt.srcH.toNat

/-- `on_frame_ready`. -/
def onFrameReady (r : Dqbuf) (ok : Bool) : KvmState :=
  if st.frameWatch = false then st
  else match r with
    | .again => st
    | .error => { st with frameWatch := false, signal := false }
    | .buffer b =>
        let st := { st with driver := Function.update st.driver b.index false }
        if st.nbuf ≤ b.index then st
        else
          let st := { st with queued := Function.update st.queued b.index false }
          if st.discards b then st.releaseBuf b.index ok else st.kvmFrame b.index ok

/-- `tick` of the synthetic source, which draws `mem`. -/
def tick (mem : Bytes) : KvmState :=
  if st.fd = true ∨ st.streaming = false then st
  else match (List.range kvmNbuf).find? fun i => st.queued i && (st.prev ≠ some i) with
    | none => st
    | some i => { st with
        buf := Function.update st.buf i mem
        driver := Function.update st.driver i false }.kvmFrame i true

/-! ## Streams -/

/-- `stop_stream`. -/
def stopStream : KvmState :=
  { st with
    frameWatch := false
    buf := fun _ _ => 0
    queued := fun _ => false
    driver := fun _ => false
    nbuf := 0
    prev := none
    streaming := false
    signal := false }

/-- `struct v4l2_pix_format`, with its sizes as `int`s. -/
structure PixFormat where
  width : ℤ
  height : ℤ
  pixelformat : Fourcc
  bytesperline : ℕ := 0
  fullRange : Bool := false

/-- What the device answers to a restream. -/
structure StartAnswers where
  /-- `S_FMT`, for the format that is asked for. -/
  sFmt : Fourcc → Option PixFormat
  /-- `REQBUFS`. -/
  reqbufs : Option ℕ
  /-- Every buffer is queried, mapped and large enough. -/
  buffersOk : Bool
  /-- What the new buffers hold. -/
  mem : ℕ → Bytes
  /-- `QBUF` of each buffer. -/
  qbuf : ℕ → Bool
  streamon : Bool

/-- The loop of `v4l2_set_format` over the formats to ask for.  A request that fails leaves what was
asked for in `fmt`. -/
def StartAnswers.settle (a : StartAnswers) (w h : ℤ) : List Fourcc → PixFormat → PixFormat
  | [], fmt => fmt
  | want :: wants, _ =>
      match a.sFmt want with
      | none => a.settle w h wants ⟨w, h, want, 0, false⟩
      | some fmt => if fmt.pixelformat = want then fmt else a.settle w h wants fmt

/-- The format that `v4l2_set_format` ends with. -/
def settled (a : StartAnswers) (w h : ℤ) : PixFormat :=
  a.settle w h (st.pixfmt :: if st.pixfmt = .uyvy then [.rgb24] else []) ⟨0, 0, .other, 0, false⟩

/-- `v4l2_set_format`, and whether it succeeds. -/
def v4l2SetFormat (a : StartAnswers) (w h : ℤ) : KvmState × Bool :=
  let fmt := st.settled a w h
  if fmt.pixelformat = .other then (st, false)
  else ({ st with fmt :=
    { srcW := fmt.width
      srcH := fmt.height
      srcFourcc := fmt.pixelformat
      srcStride := if fmt.bytesperline ≠ 0 then fmt.bytesperline
        else fmt.width.toNat * fmt.pixelformat.srcBpp
      fullRange := fmt.pixelformat = .uyvy && fmt.fullRange } },
    0 < fmt.width ∧ 0 < fmt.height)

/-- `v4l2_start`, and whether it succeeds. -/
def v4l2Start (a : StartAnswers) : KvmState × Bool :=
  match a.reqbufs with
  | none => (st, false)
  | some count =>
      let st := { st with nbuf := min count kvmNbuf }
      if st.nbuf < 2 ∨ a.buffersOk = false then (st, false)
      else
        let st := { st with buf := a.mem }
        let st := (List.range st.nbuf).foldl (fun st i => st.releaseBuf i (a.qbuf i)) st
        if a.streamon = false then (st, false) else ({ st with frameWatch := true }, true)

/-- `sremfb_kvm_test_start`: zeroed buffers, all of them queued. -/
def testStart : KvmState × Bool :=
  ({ st with
    nbuf := kvmNbuf
    buf := fun _ _ => 0
    queued := fun i => i < kvmNbuf
    driver := fun i => i < kvmNbuf }, true)

/-- `start_stream`, and whether it succeeds. -/
def startStream (a : StartAnswers) (w h : ℤ) : KvmState × Bool :=
  let (st, ok) :=
    if st.fd then st.v4l2SetFormat a w h
    else ({ st with fmt := ⟨w, h, .uyvy, w.toNat * 2, false⟩ }, true)
  if ok = false then (st, false)
  else
    let st := { st with master := some fun _ _ => 0, prev := none, streaming := true }
    let (st, ok) := if st.fd then st.v4l2Start a else st.testStart
    if ok = false then (st.stopStream, false) else (st, true)

/-- `signal_lost`. -/
def signalLost : KvmState :=
  let was := st.signal || st.streaming
  let blank := was || 0 < st.fmt.srcW
  let st := st.stopStream
  let st := { st with fmt := { st.fmt with srcW := 0, srcH := 0 } }
  if blank then st.blankAll else st

/-- What the device answers to a probe. -/
structure Probe where
  /-- The size that the timings or the current format give, if there are any. -/
  timings : Option (ℤ × ℤ)
  start : StartAnswers

/-- `query_mode`. -/
def Probe.queryMode (p : Probe) : Option (ℤ × ℤ) :=
  p.timings.filter fun m => 0 < m.1 ∧ 0 < m.2

/-- A mode without pixels is no mode. -/
lemma Probe.queryMode_pos {p : Probe} {w h : ℤ} (hq : p.queryMode = some (w, h)) :
    0 < w ∧ 0 < h := by
  have hsize := (Option.filter_eq_some_iff.mp hq).2
  simpa using hsize

/-- `probe_signal`. -/
def probeSignal (p : Probe) : KvmState :=
  match p.queryMode with
  | none => st.signalLost
  | some (w, h) =>
      if st.streaming = true ∧ st.signal = true ∧ w = st.fmt.srcW ∧ h = st.fmt.srcH then st
      else
        let (st, ok) := st.stopStream.startStream p.start w h
        if ok = false then st.signalLost else { st with signal := true }.applyResize

/-! ## Clients -/

/-- `kvm_acquire`, for a client whose panel is `xres` by `yres`. -/
def kvmAcquire (id : ℕ) (xres yres : ℤ) : KvmState :=
  let hasSignal : Bool := st.signal ∧ 0 < st.fmt.srcW ∧ 0 < st.fmt.srcH
  let w := if st.geometry = .source ∧ hasSignal then st.fmt.srcW else xres
  let h := if st.geometry = .source ∧ hasSignal then st.fmt.srcH else yres
  let fit := kvmFit (if hasSignal then st.fmt.srcW else 0) (if hasSignal then st.fmt.srcH else 0) w h
  let c : KvmClient := { id := id, geomW := w, geomH := h, fit := fit }
  let c := if hasSignal then st.repaintClient c else c.sendCtrl .blank
  { st with clients := st.clients ++ [c] }

end KvmState

/-- What can happen. -/
inductive KvmEvent
  /-- The driver fills a buffer it holds. -/
  | write (i : ℕ) (mem : Bytes)
  | frameReady (r : KvmState.Dqbuf) (ok : Bool)
  | tick (mem : Bytes)
  | probe (p : KvmState.Probe)
  | accept (id : ℕ) (xres yres : ℤ)
  /-- `sremfb_client_lost`. -/
  | leave (id : ℕ)
  /-- `sremfb_schedule_client_lost`, from the transmit queue or a watchdog. -/
  | scheduleLost (id : ℕ)

namespace KvmState

/-- One event. -/
def step (st : KvmState) : KvmEvent → KvmState
  | .write i mem => { st with buf := Function.update st.buf i mem }
  | .frameReady r ok => st.onFrameReady r ok
  | .tick mem => st.tick mem
  | .probe p => st.probeSignal p
  | .accept id xres yres => st.kvmAcquire id xres yres
  | .leave id => { st with clients := st.clients.filter fun c => c.id ≠ id }
  | .scheduleLost id => { st with
      clients := st.clients.map fun c => if c.id = id then { c with lost := true } else c }

/-- **The driver** writes only the buffers it holds, and gives each back once. -/
def Driver (st : KvmState) : KvmEvent → Prop
  | .write i _ => st.driver i = true
  | .frameReady (.buffer b) _ => st.frameWatch = true → st.driver b.index = true
  | _ => True

end KvmState

end Sremfb
