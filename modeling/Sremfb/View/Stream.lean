import Sremfb.Image
import Sremfb.Server.Convert
import Sremfb.Server.Session

/-!
# The desktop viewer (`view/net.c`, `view/h264.c`)

The viewer keeps the stream in a framebuffer it shares with its window: tightly packed rows, the
damage since the window last looked, and a latency probe.  `stream_loop` reads message after
message; `streamMsg` is one round of it from the flush before the header on, with the same
conventions as the SBC client's.

Rectangles are published in batches (`batchFlushUnless`), pictures of H.264 at once.  What the
decoder has ready after an access unit is a list of pictures, then an answer that ends the loop of
`h264_pull`.  Statistics, and messages to the log, are left out.
-/

namespace Sremfb

open Lib

/-! ## The hello -/

/-- The options of the viewer that reach the wire. -/
structure View where
  pixfmt : PixFmt
  reqW : UInt16
  reqH : UInt16
  noLz4 : Bool
  noInput : Bool
  noAudio : Bool
  noH264 : Bool
  /-- Built with `SREMFB_VIEW_H264`. -/
  withH264 : Bool

/-- A connection: the viewer, whether its hello carried H264, and the stream it got. -/
structure ViewStream extends View where
  h264Offered : Bool
  w : ℕ
  h : ℕ

namespace View

/-- The viewer's hello carries H264. -/
def offersH264 (v : View) (h264Broken : Bool) : Bool := v.withH264 && !v.noH264 && !h264Broken

/-- The hello of `hello_exchange`. -/
def hello (v : View) (h264Broken : Bool) : ClientHello where
  magic := Sremfb.magic
  protoVer := Sremfb.protoVer
  flags := (if v.noLz4 then 0 else 1) ||| 2 ||| (if v.noInput then 0 else 16) |||
    (if v.noAudio then 0 else 32) ||| (if v.offersH264 h264Broken then 4 else 0)
  xres := v.reqW
  yres := v.reqH
  bpp := match v.pixfmt with
    | .rgb565 => 16
    | .xrgb8888 => 32
  pixfmt := v.pixfmt.code

/-- `hello_exchange` with the server's answer. -/
def helloExchange (v : View) (h264Broken : Bool) (sh : ServerHello) : Option ViewStream :=
  if sh.status ≠ 0 then none
  else if sh.pixfmt ≠ v.pixfmt.code then none
  else if sh.width = 0 ∨ sh.height = 0 then none
  else some { v with
    h264Offered := v.offersH264 h264Broken
    w := sh.width.toNat
    h := sh.height.toNat }

end View

/-! ## The shared framebuffer -/

/-- `VIEW_DAMAGE_MAX`. -/
def viewDamageMax : ℕ := 32

/-- `struct view_rect`. -/
structure ViewRect where
  x : UInt16
  y : UInt16
  w : UInt16
  h : UInt16
  deriving DecidableEq, Repr

/-- `struct view_fb`, while a stream is up. -/
structure ViewFb where
  pixels : ℕ → UInt8 := fun _ => 0
  blanked : Bool := false
  damage : List ViewRect := []
  damageAll : Bool := true
  batches : ℕ := 0
  probeArmed : Bool := false
  probeX : ℕ := 0
  probeY : ℕ := 0
  probeBase : ℕ := 0
  probeHitNs : ℕ := 0

namespace ViewFb

/-- `damage_add`.  On overflow everything pending becomes one bounding box. -/
def damageAdd (x y w h : ℕ) (fb : ViewFb) : ViewFb :=
  let rect (x y w h : ℕ) : ViewRect :=
    ⟨UInt16.ofNat x, UInt16.ofNat y, UInt16.ofNat w, UInt16.ofNat h⟩
  if fb.damageAll then fb
  else if fb.damage.length = viewDamageMax then
    let (x0, y0, x1, y1) := fb.damage.foldl (fun (x0, y0, x1, y1) r =>
      (min x0 r.x.toNat, min y0 r.y.toNat, max x1 (r.x.toNat + r.w.toNat),
        max y1 (r.y.toNat + r.h.toNat))) (x, y, x + w, y + h)
    { fb with damage := [rect x0 y0 (x1 - x0) (y1 - y0)] }
  else { fb with damage := fb.damage ++ [rect x y w h] }

end ViewFb

/-! ## The state of a connection -/

/-- What a round of the loop changes. -/
structure ViewState where
  fb : ViewFb := {}
  /-- `batch_t0`; `0` is no unpublished rectangle. -/
  batchT0 : ℕ := 0
  /-- The decoder is open. -/
  dec : Bool := false
  /-- Access units in a row that gave no picture. -/
  silent : ℕ := 0
  /-- Inside an H.264 episode. -/
  h264Active : Bool := false
  h264Broken : Bool := false
  /-- The bytes written to the server. -/
  sent : List UInt8 := []

/-- A decoded picture, 4:2:0: samples by row and column. -/
structure Picture where
  w : ℕ
  h : ℕ
  luma : ℕ → ℕ → UInt8
  cb : ℕ → ℕ → UInt8
  cr : ℕ → ℕ → UInt8

/-- What the outside answers during one round. -/
structure ViewWorld where
  /-- `FIONREAD` before the header and before a payload, negative for an error, and the clock at
  these moments. -/
  availHdr : ℤ := 0
  nowHdr : ℕ := 1
  availBody : ℤ := 0
  nowBody : ℕ := 1
  /-- The clock when a batch starts, and when a probe hits. -/
  nowBatch : ℕ := 1
  nowProbe : ℕ := 1
  /-- The PONG is written. -/
  sends : Bool := true
  /-- `view_h264_open` and `view_h264_send` succeed. -/
  decOpens : Bool := true
  decSends : Bool := true
  /-- What `view_h264_receive` returns: these pictures, then a failure or nothing more. -/
  pictures : List Picture := []
  decFails : Bool := false

/-- How a round ends: the loop is left, or goes on with what was not read. -/
abbrev ViewRound := Except ViewState (ViewState × List UInt8)

namespace ViewState

def publish (n : ViewState) : ViewState :=
  { n with fb := { n.fb with batches := n.fb.batches + 1 } }

/-- `BATCH_MAX_NS`. -/
def batchMaxNs : ℕ := 2000000

/-- `batch_flush_unless`.  The clock is a `uint64_t`. -/
def batchFlushUnless (avail : ℤ) (now need : ℕ) (n : ViewState) : ViewState :=
  if n.batchT0 = 0 then n
  else if avail < 0 ∨ avail.toNat < need ∨ (now + 2 ^ 64 - n.batchT0) % 2 ^ 64 ≥ batchMaxNs then
    { n.publish with batchT0 := 0 }
  else n

end ViewState

namespace ViewStream

variable (v : ViewStream)

def bytespp : ℕ := v.pixfmt.bytespp

def stride : ℕ := v.w * v.bytespp

/-- `view_fb_pixel`: the fourth byte of an XRGB8888 pixel is not looked at. -/
def fbPixel (fb : ViewFb) (x y : ℕ) : ℕ :=
  let p := y * v.stride + x * v.bytespp
  if v.bytespp = 2 then ofLe [fb.pixels p, fb.pixels (p + 1)]
  else ofLe [fb.pixels p, fb.pixels (p + 1), fb.pixels (p + 2)]

/-- `fb_put_rect`: tightly packed rows into the framebuffer, and damage. -/
def fbPutRect (now : ℕ) (hd : FrameHdr) (src : List UInt8) (fb : ViewFb) : ViewFb :=
  let (x, y, w, h) := (hd.x.toNat, hd.y.toNat, hd.w.toNat, hd.h.toNat)
  let row := w * v.bytespp
  let dst := y * v.stride + x * v.bytespp
  let pixels :=
    if row = v.stride then blit fb.pixels dst (src.take (row * h))
    else (List.range h).foldl (fun p j =>
      blit p (dst + j * v.stride) ((src.drop (j * row)).take row)) fb.pixels
  let fb := ({ fb with pixels := pixels } : ViewFb).damageAdd x y w h
  if fb.probeArmed ∧ x ≤ fb.probeX ∧ y ≤ fb.probeY ∧ fb.probeX < x + w ∧ fb.probeY < y + h ∧
      v.fbPixel fb fb.probeX fb.probeY ≠ fb.probeBase then
    { fb with probeHitNs := now, probeArmed := false }
  else fb

/-! ## H.264 -/

/-- The BT.601 colours of one sample triple, before dithering. -/
def rgbOf (luma cb cr : UInt8) : ℤ × ℤ × ℤ :=
  let c := 298 * ((luma.toNat : ℤ) - 16) + 128
  let du := (cb.toNat : ℤ) - 128
  let dv := (cr.toNat : ℤ) - 128
  (clamp255 ((c + 409 * dv) / 256), clamp255 ((c - 100 * du - 208 * dv) / 256),
    clamp255 ((c + 516 * du) / 256))

/-- One pixel of `row_xrgb` or `row_rgb565`, at `(x, y)` of the screen. -/
def picPixel (p : Picture) (x y : ℕ) : List UInt8 :=
  let (r, g, b) := rgbOf (p.luma y x) (p.cb (y / 2) (x / 2)) (p.cr (y / 2) (x / 2))
  match v.pixfmt with
  | .xrgb8888 => leBytes 4 (r.toNat <<< 16 ||| g.toNat <<< 8 ||| b.toNat)
  | .rgb565 =>
      let t := bayer y x
      let r := clamp255 (r + (t >>> 1 : ℕ) - 4)
      let g := clamp255 (g + (t >>> 2 : ℕ) - 2)
      let b := clamp255 (b + (t >>> 1 : ℕ) - 4)
      leBytes 2 ((r.toNat >>> 3) <<< 11 ||| (g.toNat >>> 2) <<< 5 ||| b.toNat >>> 3)

/-- A row of `view_h264_convert`. -/
def picRow (p : Picture) (w y : ℕ) : List UInt8 := (List.range w).flatMap fun x => v.picPixel p x y

/-- `PROBE_TOLERANCE`. -/
def probeTolerance : ℤ := 48

/-- `pixel_rgb`. -/
def pixelRgb (px : ℕ) : List ℤ :=
  if v.bytespp = 2 then
    [((px >>> 11 &&& 0x1F) * 255 / 31 : ℕ), ((px >>> 5 &&& 0x3F) * 255 / 63 : ℕ),
      ((px &&& 0x1F) * 255 / 31 : ℕ)]
  else [(px >>> 16 &&& 0xFF : ℕ), (px >>> 8 &&& 0xFF : ℕ), (px &&& 0xFF : ℕ)]

/-- `pixel_moved`. -/
def pixelMoved (a b : ℕ) : Bool :=
  (List.zipWith (fun x y => decide (|x - y| > probeTolerance)) (v.pixelRgb a) (v.pixelRgb b)).any id

/-- `h264_show`: the overlap of picture and stream, published at once. -/
def h264Show (now : ℕ) (p : Picture) (n : ViewState) : ViewState :=
  let cw := min p.w v.w
  let ch := min p.h v.h
  let row := cw * v.bytespp
  let pixels :=
    if row = v.stride ∧ ch = v.h then blit n.fb.pixels 0 ((List.range ch).flatMap (v.picRow p cw))
    else (List.range ch).foldl (fun q y => blit q (y * v.stride) (v.picRow p cw y)) n.fb.pixels
  let fb : ViewFb := { n.fb with pixels := pixels, damageAll := true, damage := [] }
  let fb : ViewFb :=
    if fb.probeArmed && decide (fb.probeX < cw) && decide (fb.probeY < ch) &&
        v.pixelMoved (v.fbPixel fb fb.probeX fb.probeY) fb.probeBase then
      { fb with probeHitNs := now, probeArmed := false }
    else fb
  { n with fb := fb }.publish

/-- `h264_pull`: every picture the decoder has ready; `none` is a decoder failure. -/
def h264Pull (o : ViewWorld) (n : ViewState) : ViewState × Option ℕ :=
  let n := o.pictures.foldl (fun n p => v.h264Show o.nowProbe p n) n
  (n, if o.decFails then none else some o.pictures.length)

/-- `AU_SILENT_MAX`. -/
def auSilentMax : ℕ := 3

/-- `h264_au`. -/
def h264Au (o : ViewWorld) (hd : FrameHdr) (n : ViewState) (inp : List UInt8) : ViewRound :=
  let len := hd.payloadLen.toNat
  if hd.x ≠ 0 ∨ hd.y ≠ 0 ∨ hd.w.toNat ≠ v.w ∨ hd.h.toNat ≠ v.h then .error n
  else if len = 0 ∨ len > auCap then .error n
  else
    match readn len inp with
    | none => .error n
    | some (_, inp) =>
        if n.dec = false ∧ o.decOpens = false then .error { n with h264Broken := true }
        else
          let n := { n with
            dec := true
            silent := if n.h264Active then n.silent else 0
            h264Active := true }
          if o.decSends = false then .error { n with h264Broken := true }
          else
            match v.h264Pull o n with
            | (n, none) => .error { n with h264Broken := true }
            | (n, some shown) =>
                let n := { n with silent := if shown ≠ 0 then 0 else n.silent + 1 }
                if n.silent ≥ auSilentMax then .error { n with h264Broken := true }
                else .ok (n, inp)

/-- `h264_eos`: show what is left and reset the decoder. -/
def h264Eos (o : ViewWorld) (n : ViewState) (inp : List UInt8) : ViewRound :=
  if n.dec then
    if o.decSends = false then .error { n with h264Broken := true }
    else
      match v.h264Pull o n with
      | (n, none) => .error { n with h264Broken := true }
      | (n, some _) => .ok ({ n with h264Active := false }, inp)
  else .ok ({ n with h264Active := false }, inp)

/-! ## The loop -/

/-- `comp_cap`. -/
def compCap : ℕ := (lz4CompressBound (intOfSize (v.w * v.h * v.bytespp))).toNat

/-- The pixels of a rectangle, received into the scratch buffer. -/
def streamPixels (z : Lz4) (hd : FrameHdr) (inp : List UInt8) :
    Option (List UInt8 × List UInt8) :=
  let rectBytes := hd.w.toNat * hd.h.toNat * v.bytespp
  let len := hd.payloadLen.toNat
  if hd.encoding = Encoding.raw.code then
    if len ≠ rectBytes then none else readn rectBytes inp
  else if v.noLz4 = true ∨ len = 0 ∨ len > v.compCap then none
  else
    match readn len inp with
    | none => none
    | some (comp, inp) =>
        match z.decompressSafe comp (intOfSize rectBytes) with
        | none => none
        | some raw => if (raw.length : ℤ) ≠ intOfSize rectBytes then none else some (raw, inp)

/-- A rectangle. -/
def streamRect (z : Lz4) (o : ViewWorld) (hd : FrameHdr) (n : ViewState) (inp : List UInt8) :
    ViewRound :=
  let (x, y, w, h) := (hd.x.toNat, hd.y.toNat, hd.w.toNat, hd.h.toNat)
  if w = 0 ∨ h = 0 ∨ x + w > v.w ∨ y + h > v.h then .error n
  else
    let n := n.batchFlushUnless o.availBody o.nowBody hd.payloadLen.toNat
    let n := if n.batchT0 = 0 then { n with batchT0 := o.nowBatch } else n
    match v.streamPixels z hd inp with
    | none => .error n
    | some (scratch, inp) => .ok ({ n with fb := v.fbPutRect o.nowProbe hd scratch n.fb }, inp)

/-- A PING, echoed by `on_ping`. -/
def streamPing (o : ViewWorld) (hd : FrameHdr) (n : ViewState) (inp : List UInt8) : ViewRound :=
  if hd.payloadLen ≠ 8 then .error n
  else
    match readn 8 inp with
    | none => .error n
    | some (t, inp) =>
        if o.sends then .ok ({ n with sent := n.sent ++ pongMsg t }, inp) else .error n

/-- The dispatch of `stream_loop` on the encoding. -/
def streamBody (z : Lz4) (o : ViewWorld) (hd : FrameHdr) (n : ViewState) (inp : List UInt8) :
    ViewRound :=
  if hd.magic ≠ magic then .error n
  else
    let isRect := hd.encoding = Encoding.raw.code ∨ hd.encoding = Encoding.lz4.code
    -- a control message: pixels first
    let n := if ¬isRect ∧ n.batchT0 ≠ 0 then { n.publish with batchT0 := 0 } else n
    if hd.encoding = Encoding.blank.code ∨ hd.encoding = Encoding.unblank.code then
      if hd.payloadLen ≠ 0 then .error n
      else .ok ({ n with fb := { n.fb with blanked := hd.encoding == Encoding.blank.code } }, inp)
    else if hd.encoding = Encoding.ping.code then streamPing o hd n inp
    else if v.h264Offered = true ∧ hd.encoding = Encoding.h264.code then v.h264Au o hd n inp
    else if v.h264Offered = true ∧ hd.encoding = Encoding.h264Eos.code then
      if hd.payloadLen ≠ 0 then .error n else v.h264Eos o n inp
    else if ¬isRect then .error n
    else v.streamRect z o hd n inp

/-- One round of `stream_loop`. -/
def streamMsg (z : Lz4) (o : ViewWorld) (n : ViewState) (inp : List UInt8) : ViewRound :=
  let n := n.batchFlushUnless o.availHdr o.nowHdr frameHdrSize
  match readn frameHdrSize inp with
  | none => .error n
  | some (b, inp) => v.streamBody z o (.ofBytes b) n inp

/-! ## The stream's picture -/

/-- The pixels of the stream. -/
def Keeps (x y : ℕ) : Prop := x < v.w ∧ y < v.h

/-- The picture in a buffer of the stream's size. -/
def raster (pixels : ℕ → UInt8) : Image := cell pixels v.stride v.bytespp

/-- The picture in the framebuffer. -/
def image (n : ViewState) : Image := v.raster n.fb.pixels

lemma raster_rows {x y w h : ℕ} {raw : List UInt8} (hraw : raw.length = h * (w * v.bytespp))
    (hx : x + w ≤ v.w) (pixels : ℕ → UInt8) :
    Image.AgreeOn v.Keeps
      (v.raster ((List.range h).foldl (fun p j =>
        blit p (y * v.stride + x * v.bytespp + j * v.stride) (piece raw (w * v.bytespp) j)) pixels))
      ((v.raster pixels).put v.bytespp x y w h raw) := by
  have hline : ∀ n ≤ v.w, n * v.bytespp ≤ v.stride := fun n hn => Nat.mul_le_mul_right _ hn
  have hrow : ∀ p : ℕ → UInt8, ∀ j < h, Image.AgreeOn v.Keeps
      (v.raster (blit p (y * v.stride + x * v.bytespp + j * v.stride)
        (piece raw (w * v.bytespp) j)))
      ((v.raster p).put v.bytespp x (y + j) w 1 (piece raw (w * v.bytespp) j)) := by
    rintro p j hj px py ⟨hpx, -⟩
    have haddr : y * v.stride + x * v.bytespp + j * v.stride =
        (y + j) * v.stride + x * v.bytespp := by ring
    rw [Image.put_row, raster, haddr,
      cell_blit (length_piece hraw.ge hj) (hline _ hx) (hline _ hpx)]
    rfl
  exact rows_put hrow pixels

lemma damageAdd_pixels (x y w h : ℕ) (fb : ViewFb) : (fb.damageAdd x y w h).pixels = fb.pixels := by
  unfold ViewFb.damageAdd
  dsimp only
  split_ifs <;> rfl

/-- **`fb_put_rect` puts its rectangle**, whether it copies at once or row by row. -/
lemma fbPutRect_agreeOn {hd : FrameHdr} {raw : List UInt8} (now : ℕ) (fb : ViewFb)
    (hraw : raw.length = hd.h.toNat * (hd.w.toNat * v.bytespp))
    (hx : hd.x.toNat + hd.w.toNat ≤ v.w) :
    Image.AgreeOn v.Keeps (v.raster (v.fbPutRect now hd raw fb).pixels)
      ((v.raster fb.pixels).put v.bytespp hd.x.toNat hd.y.toNat hd.w.toNat hd.h.toNat raw) := by
  have hpix : (v.fbPutRect now hd raw fb).pixels = (List.range hd.h.toNat).foldl (fun p j =>
      blit p (hd.y.toNat * v.stride + hd.x.toNat * v.bytespp + j * v.stride)
        (piece raw (hd.w.toNat * v.bytespp) j)) fb.pixels := by
    have hcopy : ∀ q : ViewFb, ∀ p : ℕ → UInt8, q.pixels = p → ∀ c : Prop, ∀ [Decidable c],
        (if c then { q with probeHitNs := now, probeArmed := false } else q : ViewFb).pixels =
          p := by
      intro q p hq c _
      split <;> exact hq
    unfold fbPutRect
    dsimp only
    refine hcopy _ _ ?_ _
    rw [damageAdd_pixels]
    dsimp only
    split
    · rename_i hrow
      rw [List.take_of_length_le (by rw [hraw, Nat.mul_comm]), blit_rows _ _ hraw, hrow]
    · rfl
  rw [hpix]
  exact v.raster_rows hraw hx fb.pixels

end ViewStream

end Sremfb
