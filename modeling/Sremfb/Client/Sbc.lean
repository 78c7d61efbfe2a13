import Sremfb.Client.Output
import Sremfb.Image
import Sremfb.Server.Session

/-!
# The SBC client (`sremfb-client.c`)

`hello_exchange` announces what the client can do and learns the stream's geometry; `frame_loop`
then reads one message after the other until an error.  `frameMsg` is one round of that loop from
the header on: it takes what the server sent and gives the new state and the rest, or leaves the
loop (`Except.error`, with the state it leaves behind).  Waiting for the socket, the liveness
timeout and the panel check come before the header and are not modelled, nor is the thread that
blits decoded pictures.

The stream is centred on the panel and clipped to it (`blitStreamRow`); in test mode it goes into
a buffer of its own.  `SbcStream.image` is what of the stream can be seen, `SbcStream.drawn` what
the current batch is written over, and `emitRow_agreeOn` says where a row lands.
-/

namespace Sremfb

open Lib

/-! ## The hello -/

/-- The client's options and what it found at startup. -/
structure Sbc where
  testMode : Bool
  testW : UInt16
  testH : UInt16
  /-- Access units go to a file. -/
  testSink : Bool
  noLz4 : Bool
  noH264 : Bool
  /-- A hardware decoder was found. -/
  decFound : Bool
  usbActive : Bool
  panel : Panel

/-- A connection: the client and the stream it agreed on. -/
structure SbcStream extends Sbc where
  streamW : ℕ
  streamH : ℕ
  offX : ℤ
  offY : ℤ

namespace Sbc

/-- The pixel format on the wire. -/
def pixfmt (k : Sbc) : PixFmt := if k.testMode then .xrgb8888 else k.panel.pixfmt

/-- The client offers to decode H.264. -/
def offersH264 (k : Sbc) (h264Broken : Bool) : Bool :=
  (k.decFound && !k.noH264 && !h264Broken && !k.testMode) || k.testSink

/-- The hello of `hello_exchange`. -/
def hello (k : Sbc) (h264Broken : Bool) : ClientHello where
  magic := Sremfb.magic
  protoVer := Sremfb.protoVer
  flags := (if k.noLz4 then 0 else 1) ||| 2 ||| (if k.offersH264 h264Broken then 4 else 0) |||
    (if k.usbActive then 8 else 0)
  xres := if k.testMode then k.testW else UInt16.ofNat k.panel.w
  yres := if k.testMode then k.testH else UInt16.ofNat k.panel.h
  bpp := if k.testMode then 32 else UInt8.ofNat (k.panel.pixfmt.bytespp * 8)
  pixfmt := k.pixfmt.code

/-- `hello_exchange` with the server's answer.  Magic and version are constants of
`ServerHello`. -/
def helloExchange (k : Sbc) (sh : ServerHello) : Option SbcStream :=
  if sh.status ≠ 0 then none
  else if sh.pixfmt ≠ k.pixfmt.code then none
  else if k.testMode then
    some { k with streamW := sh.width.toNat, streamH := sh.height.toNat, offX := 0, offY := 0 }
  else
    some { k with
      streamW := sh.width.toNat
      streamH := sh.height.toNat
      offX := ((k.panel.w : ℤ) - sh.width.toNat).tdiv 2
      offY := ((k.panel.h : ℤ) - sh.height.toNat).tdiv 2 }

end Sbc

/-! ## The state of a connection -/

/-- What a round of the loop changes. -/
structure SbcState where
  blanked : Bool := false
  decOpen : Bool := false
  h264Broken : Bool := false
  out : Output
  testbuf : Buf := fun _ => 0
  /-- The bytes written to the server. -/
  sent : List UInt8 := []

/-- What the outside answers during one round: the socket, the decoder, the display. -/
structure SbcWorld where
  /-- The PONG is written. -/
  writes : Bool := true
  /-- The files of the sink open. -/
  sinkOpens : Bool := true
  /-- `v4l2dec_open`, `v4l2dec_feed` and `v4l2dec_drain` succeed. -/
  decOpens : Bool := true
  decFeeds : List UInt8 → Bool := fun _ => true
  decDrains : Bool := true
  display : Display := {}

/-- How a round ends: the loop is left, or goes on with what was not read. -/
abbrev SbcRound := Except SbcState (SbcState × List UInt8)

namespace SbcState

def setBlank (k : Sbc) (disp : Display) (on : Bool) (s : SbcState) : SbcState :=
  if on = s.blanked then s
  else if k.testMode then { s with blanked := on }
  else { s with blanked := on, out := s.out.blank disp on }

def outBegin (k : Sbc) (full : Bool) (s : SbcState) : SbcState :=
  if k.testMode then s else { s with out := s.out.beginBatch full }

def outPresent (k : Sbc) (disp : Display) (s : SbcState) : SbcState :=
  if k.testMode then s else { s with out := s.out.present disp.flip }

end SbcState

namespace SbcStream

variable (k : SbcStream)

/-- `blit_stream_row`: `w` pixels of stream row `sy` from column `sx` on, centred and clipped. -/
def blitStreamRow (sx sy w : ℕ) (row : List UInt8) (o : Output) : Output :=
  let dy := (sy : ℤ) + k.offY
  if dy < 0 ∨ dy ≥ k.panel.h then o
  else
    let dx := (sx : ℤ) + k.offX
    let skip := if dx < 0 then (-dx).toNat else 0
    if dx < 0 ∧ skip ≥ w then o
    else
      let w := w - skip
      let dx := if dx < 0 then 0 else dx.toNat
      if dx ≥ k.panel.w then o
      else
        let w := if dx + w > k.panel.w then k.panel.w - dx else w
        o.writeRow k.panel dx dy.toNat (row.drop (skip * k.panel.pixfmt.bytespp)) w

/-- `emit_row`. -/
def emitRow (sx sy w : ℕ) (row : List UInt8) (s : SbcState) : SbcState :=
  if k.testMode then
    { s with testbuf := blit s.testbuf ((sy * k.streamW + sx) * 4) (row.take (w * 4)) }
  else { s with out := k.blitStreamRow sx sy w row s.out }

/-! ## The loop -/

/-- `handle_h264_au`.  A decoder failure is remembered for the next hello. -/
def handleH264Au (o : SbcWorld) (au : List UInt8) (s : SbcState) : Except SbcState SbcState :=
  if k.testSink then if o.sinkOpens then .ok s else .error s
  else if s.decOpen = false ∧ o.decOpens = false then .error { s with h264Broken := true }
  else
    let s := { s with decOpen := true }
    if o.decFeeds au then .ok s else .error { s with h264Broken := true }

/-- A PING: the payload is echoed. -/
def framePing (o : SbcWorld) (hdr : FrameHdr) (s : SbcState) (inp : List UInt8) : SbcRound :=
  if hdr.payloadLen ≠ 8 then .error s
  else
    match readn 8 inp with
    | none => .error s
    | some (t, inp) =>
        if o.writes then .ok ({ s with sent := s.sent ++ pongMsg t }, inp) else .error s

/-- An access unit. -/
def frameAu (o : SbcWorld) (hdr : FrameHdr) (s : SbcState) (inp : List UInt8) : SbcRound :=
  let len := hdr.payloadLen.toNat
  if len = 0 ∨ len > auCap then .error s
  else
    match readn len inp with
    | none => .error s
    | some (au, inp) => (k.handleH264Au o au s).map fun s => (s, inp)

/-- The end of an episode. -/
def frameEos (o : SbcWorld) (hdr : FrameHdr) (s : SbcState) (inp : List UInt8) : SbcRound :=
  if hdr.payloadLen ≠ 0 then .error s
  else if k.testSink = false ∧ s.decOpen = true ∧ o.decDrains = false then
    .error { s with h264Broken := true }
  else .ok (s, inp)

/-- The rows of a RAW rectangle, read and emitted one by one; `n` are left, the next is `row`. -/
def rawRows (x y w : ℕ) : ℕ → ℕ → SbcState → List UInt8 → SbcRound
  | 0, _, s, inp => .ok (s, inp)
  | n + 1, row, s, inp =>
      match readn (w * k.pixfmt.bytespp) inp with
      | none => .error s
      | some (b, inp) => rawRows x y w n (row + 1) (k.emitRow x (y + row) w b s) inp

/-- `comp_cap`. -/
def compCap : ℕ :=
  (lz4CompressBound (intOfSize (k.streamW * k.streamH * k.pixfmt.bytespp))).toNat

/-- The pixels of a rectangle: RAW row by row, LZ4 at once. -/
def framePixels (z : Lz4) (hdr : FrameHdr) (s : SbcState) (inp : List UInt8) : SbcRound :=
  let (x, y, w, h) := (hdr.x.toNat, hdr.y.toNat, hdr.w.toNat, hdr.h.toNat)
  let bytespp := k.pixfmt.bytespp
  let rectBytes := w * h * bytespp
  let len := hdr.payloadLen.toNat
  if hdr.encoding = Encoding.raw.code then
    if len ≠ rectBytes then .error s else k.rawRows x y w h 0 s inp
  else if hdr.encoding = Encoding.lz4.code ∧ k.noLz4 = false then
    if len = 0 ∨ len > k.compCap ∨ rectBytes > k.streamW * k.streamH * bytespp then .error s
    else
      match readn len inp with
      | none => .error s
      | some (comp, inp) =>
          match z.decompressSafe comp (intOfSize rectBytes) with
          | none => .error s
          | some raw =>
              if (raw.length : ℤ) ≠ intOfSize rectBytes then .error s
              else
                .ok ((List.range h).foldl (fun s row =>
                  k.emitRow x (y + row) w ((raw.drop (row * w * bytespp)).take (w * bytespp)) s) s,
                  inp)
  else .error s

/-- A rectangle: checked, drawn and shown. -/
def frameRect (z : Lz4) (o : SbcWorld) (hdr : FrameHdr) (s : SbcState) (inp : List UInt8) :
    SbcRound :=
  let (x, y, w, h) := (hdr.x.toNat, hdr.y.toNat, hdr.w.toNat, hdr.h.toNat)
  if w = 0 ∨ h = 0 ∨ x + w > k.streamW ∨ y + h > k.streamH then .error s
  else
    let full := x == 0 && y == 0 && w == k.streamW && h == k.streamH
    match k.framePixels z hdr (s.outBegin k.toSbc full) inp with
    | .error s => .error s
    | .ok (s, inp) =>
        .ok ((s.outPresent k.toSbc o.display).setBlank k.toSbc o.display false, inp)

/-- The dispatch of `frame_loop` on the encoding. -/
def frameBody (z : Lz4) (o : SbcWorld) (hdr : FrameHdr) (s : SbcState) (inp : List UInt8) :
    SbcRound :=
  if hdr.magic ≠ magic then .error s
  else if hdr.encoding = Encoding.blank.code ∨ hdr.encoding = Encoding.unblank.code then
    if hdr.payloadLen ≠ 0 then .error s
    else .ok (s.setBlank k.toSbc o.display (hdr.encoding == Encoding.blank.code), inp)
  else if hdr.encoding = Encoding.ping.code then framePing o hdr s inp
  else if hdr.encoding = Encoding.h264.code then k.frameAu o hdr s inp
  else if hdr.encoding = Encoding.h264Eos.code then k.frameEos o hdr s inp
  else k.frameRect z o hdr s inp

/-- One round of `frame_loop`, from the header on. -/
def frameMsg (z : Lz4) (o : SbcWorld) (s : SbcState) (inp : List UInt8) : SbcRound :=
  match readn frameHdrSize inp with
  | none => .error s
  | some (b, inp) => k.frameBody z o (.ofBytes b) s inp

/-! ## The stream's picture -/

/-- The pixel of the stream lies on the panel. -/
def OnPanel (x y : ℕ) : Prop :=
  0 ≤ (x : ℤ) + k.offX ∧ (x : ℤ) + k.offX < k.panel.w ∧
    0 ≤ (y : ℤ) + k.offY ∧ (y : ℤ) + k.offY < k.panel.h

/-- The pixels of the stream the client has a place for: in test mode all of them. -/
def Keeps (x y : ℕ) : Prop :=
  x < k.streamW ∧ y < k.streamH ∧ (k.testMode = true ∨ k.OnPanel x y)

/-- The stream's pixels, given the contents of a panel buffer and of the test buffer. -/
def pixels (panelBuf testbuf : Buf) : Image := fun x y =>
  if k.testMode then cell testbuf (k.streamW * 4) 4 x y
  else cell panelBuf k.panel.stride k.panel.pixfmt.bytespp ((x : ℤ) + k.offX).toNat
    ((y : ℤ) + k.offY).toNat

lemma pixels_of_testMode {k : SbcStream} (ht : k.testMode = true) (a b testbuf : Buf) :
    k.pixels a testbuf = k.pixels b testbuf := by
  funext x y
  simp [pixels, ht]

/-- What is seen of the stream. -/
def image (s : SbcState) : Image := k.pixels s.out.visible s.testbuf

/-- What the current batch is drawn over. -/
def drawn (s : SbcState) : Image := k.pixels s.out.written s.testbuf

/-- What `blit_stream_row` does with a row: nothing of it is on the panel, or `n` of its pixels
are, from column `sx + skip` of the stream on, and they are written to `(dx, dy)`. -/
lemma blitStreamRow_cases (sx sy w : ℕ) (row : List UInt8) (o : Output) :
    (k.blitStreamRow sx sy w row o = o ∧ ∀ x, sx ≤ x → x < sx + w → ¬k.OnPanel x sy) ∨
      ∃ skip n dx dy : ℕ, k.blitStreamRow sx sy w row o =
          o.writeRow k.panel dx dy (row.drop (skip * k.panel.pixfmt.bytespp)) n ∧
        dx + n ≤ k.panel.w ∧ dy < k.panel.h ∧ skip + n ≤ w ∧
        (dx : ℤ) = (sx + skip : ℕ) + k.offX ∧ (dy : ℤ) = sy + k.offY ∧
        ∀ x, sx ≤ x → x < sx + w → k.OnPanel x sy → sx + skip ≤ x ∧ x < sx + skip + n := by
  unfold blitStreamRow OnPanel
  dsimp only
  by_cases hdy : (sy : ℤ) + k.offY < 0 ∨ (sy : ℤ) + k.offY ≥ k.panel.h
  · exact .inl ⟨if_pos hdy, fun x _ _ hon => by omega⟩
  rw [if_neg hdy]
  set skip := if (sx : ℤ) + k.offX < 0 then (-((sx : ℤ) + k.offX)).toNat else 0 with hskip
  set dx := if (sx : ℤ) + k.offX < 0 then 0 else ((sx : ℤ) + k.offX).toNat with hdx
  -- either the row starts on the panel, or its head is cut off and it starts at the left edge
  have hclip : 0 ≤ (sx : ℤ) + k.offX ∧ skip = 0 ∧ (dx : ℤ) = sx + k.offX ∨
      (sx : ℤ) + k.offX < 0 ∧ (skip : ℤ) = -(sx + k.offX) ∧ dx = 0 := by
    by_cases h : (sx : ℤ) + k.offX < 0
    · rw [if_pos h] at hskip hdx
      omega
    · rw [if_neg h] at hskip hdx
      omega
  clear_value skip dx
  by_cases hout : (sx : ℤ) + k.offX < 0 ∧ skip ≥ w
  · exact .inl ⟨if_pos hout, fun x _ _ hon => by omega⟩
  rw [if_neg hout]
  by_cases hright : dx ≥ k.panel.w
  · exact .inl ⟨if_pos hright, fun x _ _ hon => by omega⟩
  rw [if_neg hright]
  refine .inr ⟨skip, _, dx, _, rfl, ?_⟩
  split_ifs
  · exact ⟨by omega, by omega, by omega, by omega, by omega, fun x _ _ hon => by omega⟩
  · exact ⟨by omega, by omega, by omega, by omega, by omega, fun x _ _ hon => by omega⟩

/-- A row changes the pixels of the rectangle that are on the panel, each to its own source
pixel. -/
lemma cell_blitStreamRow {sx sy w px py : ℕ} {row : List UInt8} (o : Output)
    (hrow : row.length = w * k.panel.pixfmt.bytespp) (hp : k.OnPanel px py) :
    cell (k.blitStreamRow sx sy w row o).written k.panel.stride k.panel.pixfmt.bytespp
        ((px : ℤ) + k.offX).toNat ((py : ℤ) + k.offY).toNat =
      if py = sy ∧ sx ≤ px ∧ px < sx + w then
        (row.drop ((px - sx) * k.panel.pixfmt.bytespp)).take k.panel.pixfmt.bytespp
      else cell o.written k.panel.stride k.panel.pixfmt.bytespp
        ((px : ℤ) + k.offX).toNat ((py : ℤ) + k.offY).toNat := by
  obtain ⟨heq, hoff⟩ | ⟨skip, n, dx, dy, heq, hdx, hdy, hskip, hx, hy, hon⟩ :=
    k.blitStreamRow_cases sx sy w row o
  · rw [heq, if_neg]
    rintro ⟨rfl, hle, hlt⟩
    exact hoff px hle hlt hp
  set bpp := k.panel.pixfmt.bytespp with hbpp
  have hline : ∀ n ≤ k.panel.w, n * bpp ≤ k.panel.stride := fun n hn =>
    (Nat.mul_le_mul_right bpp hn).trans k.panel.line
  have hlen : ((row.drop (skip * bpp)).take (n * bpp)).length = n * bpp := by
    have hle : (skip + n) * bpp ≤ w * bpp := Nat.mul_le_mul_right bpp hskip
    rw [Nat.add_mul] at hle
    rw [List.length_take, List.length_drop, hrow]
    omega
  -- where the pixel is on the panel
  obtain ⟨qx, hqx⟩ := Int.eq_ofNat_of_zero_le hp.1
  obtain ⟨qy, hqy⟩ := Int.eq_ofNat_of_zero_le hp.2.2.1
  have hqw : qx < k.panel.w := by
    have hlt := hp.2.1
    omega
  have hiff : (qy = dy ∧ dx ≤ qx ∧ qx < dx + n) ↔ py = sy ∧ sx ≤ px ∧ px < sx + w := by
    constructor
    · omega
    · rintro ⟨rfl, hle, hlt⟩
      have hpx := hon px hle hlt hp
      omega
  rw [hqx, hqy, Int.toNat_natCast, Int.toNat_natCast, heq, Output.written_writeRow, ← hbpp,
    cell_blit hlen (hline _ hdx) (hline _ hqw)]
  by_cases hin : py = sy ∧ sx ≤ px ∧ px < sx + w
  · rw [if_pos (hiff.mpr hin), if_pos hin]
    obtain ⟨-, hd1, hd2⟩ := hiff.mpr hin
    have hroom : (qx - dx + 1) * bpp ≤ n * bpp := Nat.mul_le_mul_right bpp (by omega)
    rw [Nat.succ_mul] at hroom
    rw [List.drop_take, List.take_take, List.drop_drop,
      show min bpp (n * bpp - (qx - dx) * bpp) = bpp by omega, ← Nat.add_mul,
      show skip + (qx - dx) = px - sx by omega]
  · rw [if_neg fun h => hin (hiff.mp h), if_neg hin]

/-- **A row lands where it belongs.** -/
lemma emitRow_agreeOn {x y w : ℕ} {row : List UInt8} (s : SbcState)
    (hrow : row.length = w * k.pixfmt.bytespp) (hx : x + w ≤ k.streamW) :
    Image.AgreeOn k.Keeps (k.drawn (k.emitRow x y w row s))
      ((k.drawn s).put k.pixfmt.bytespp x y w 1 row) := by
  rintro px py ⟨hpx, hpy, hkeep⟩
  rw [Image.put_row]
  cases ht : k.testMode with
  | true =>
      have hbpp : k.pixfmt.bytespp = 4 := by simp [Sbc.pixfmt, ht, PixFmt.bytespp]
      rw [hbpp] at hrow
      have haddr : (y * k.streamW + x) * 4 = y * (k.streamW * 4) + x * 4 := by ring
      simp only [drawn, pixels, emitRow, ht, if_true, hbpp, haddr]
      rw [List.take_of_length_le (by omega), cell_blit hrow (by omega) (by omega)]
  | false =>
      have hon : k.OnPanel px py := hkeep.resolve_left (by simp [ht])
      have hfmt : k.pixfmt = k.panel.pixfmt := by simp [Sbc.pixfmt, ht]
      rw [hfmt] at hrow ⊢
      simp only [drawn, pixels, emitRow, ht, Bool.false_eq_true, if_false]
      exact k.cell_blitStreamRow s.out hrow hon

end SbcStream

end Sremfb
