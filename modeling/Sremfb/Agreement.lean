import Sremfb.Client.Sbc
import Sremfb.View.Stream
import Sremfb.Server.Converge

/-!
# Both clients understand what the server builds

The server has one emitter, and there are two receivers, written independently of it and of each
other.  `Message` lists what the server builds once a stream runs and `Message.Built` when it
does; both receivers take every such message, read exactly its bytes, and a rectangle replaces
exactly its pixels (`clients_accept`).

What the receivers check differs: the SBC client looks at the length of an access unit and not at
its header, the viewer at both; the SBC client takes H.264 at any time, the viewer only if its
hello said so; a RAW rectangle is read row by row by one and at once by the other.
-/

namespace Sremfb

open Lib

/-! ## What the server builds -/

/-- The messages of a running stream. -/
inductive Message
  /-- A rectangle of the frame, RAW or LZ4. -/
  | rect (f : Frame) (r : Rect)
  | blank
  | unblank
  | ping (t : ℤ)
  | au (nal : List UInt8) (idr : Bool)
  | eos

namespace Message

/-- The message's bytes in a `w` by `h` stream. -/
def bytes (env : Env) (neg : Negotiated) (w h : ℕ) : Message → List UInt8
  | .rect f r => (rectMessage env neg f r).1.bytes ++ (rectMessage env neg f r).2
  | .blank => ctrlMsg .blank
  | .unblank => ctrlMsg .unblank
  | .ping t => pingMsg t
  | .au nal idr => (auHeader { width := w, height := h } nal idr).bytes ++ nal
  | .eos => eosMsg

/-- The server builds the message for this client: rectangles are those of the region, and H.264
needs a client that offered it. -/
def Built (neg : Negotiated) (w h : ℕ) : Message → Prop
  | .rect _ r => r.Inside w h
  | .au nal _ => neg.h264Cap = true ∧ nal ≠ []
  | .eos => neg.h264Cap = true
  | .blank | .unblank | .ping _ => True

/-- The encoder keeps its access units at or below 1 MiB. -/
def Bounded : Message → Prop
  | .au nal _ => nal.length ≤ auCap
  | _ => True

end Message

/-- The picture with the rectangle's pixels replaced by the conversion of the frame's. -/
def Image.paint (img : Image) (dither : Bool) (fmt : PixFmt) (f : Frame) (r : Rect) : Image :=
  fun x y => if r.Mem x y then convertPixel dither fmt x y (f x y) else img x y

lemma Image.put_convertRows (img : Image) (dither : Bool) (fmt : PixFmt) (f : Frame)
    (x y w h : ℕ) :
    img.put fmt.bytespp x y w h (convertRows dither fmt f x y w h) =
      img.paint dither fmt f ⟨x, y, x + w, y + h⟩ := by
  funext px py
  have hmem : Rect.Mem ⟨x, y, x + w, y + h⟩ px py ↔
      x ≤ px ∧ px < x + w ∧ y ≤ py ∧ py < y + h := by
    simp only [Rect.Mem]
    omega
  simp only [Image.put, Image.paint]
  by_cases hin : x ≤ px ∧ px < x + w ∧ y ≤ py ∧ py < y + h
  · rw [if_pos hin, if_pos (hmem.mpr hin), take_drop_convertRows _ _ _ _ _ (by omega) (by omega)]
    rw [show x + (px - x) = px by omega, show y + (py - y) = py by omega]
  · rw [if_neg hin, if_neg (fun h => hin (hmem.mp h))]

/-! ## Rectangles in general -/

/-- The parts of a header that every receiver of a rectangle checks. -/
structure FitsStream (W H : ℕ) (bpp : ℕ) (hdr : FrameHdr) (raw : List UInt8) : Prop where
  w_pos : hdr.w.toNat ≠ 0
  h_pos : hdr.h.toNat ≠ 0
  right : hdr.x.toNat + hdr.w.toNat ≤ W
  bottom : hdr.y.toNat + hdr.h.toNat ≤ H
  raw_len : raw.length = hdr.h.toNat * (hdr.w.toNat * bpp)
  size : W * H * bpp ≤ 0x7E000000

namespace FitsStream

variable {W H bpp : ℕ} {hdr : FrameHdr} {raw : List UInt8}

lemma rectBytes (h : FitsStream W H bpp hdr raw) :
    hdr.w.toNat * hdr.h.toNat * bpp = raw.length := by
  rw [h.raw_len]
  ring

lemma le_frame (h : FitsStream W H bpp hdr raw) : raw.length ≤ W * H * bpp := by
  rw [← h.rectBytes]
  have := h.right
  have := h.bottom
  exact Nat.mul_le_mul_right _ (Nat.mul_le_mul (by omega) (by omega))

lemma intOfSize (h : FitsStream W H bpp hdr raw) : Lib.intOfSize raw.length = raw.length := by
  have := h.le_frame
  have := h.size
  exact intOfSize_of_lt (by norm_num; omega)

/-- A block smaller than its pixels is within the receiver's capacity. -/
lemma le_compressBound (h : FitsStream W H bpp hdr raw) {n : ℕ} (hn : n < raw.length) :
    n ≤ (lz4CompressBound (Lib.intOfSize (W * H * bpp))).toNat := by
  have hle := h.le_frame
  have hsize := h.size
  rw [intOfSize_of_lt (by norm_num; omega), lz4CompressBound, if_pos (by
    unfold lz4MaxInputSize
    constructor
    · omega
    · exact_mod_cast hsize)]
  omega

end FitsStream

/-- A payload in the form a receiver of `bpp` bytes a pixel takes: the pixels, or a smaller block
that decompresses to them. -/
def Decodes (z : Lz4) (lz4 : Bool) (hdr : FrameHdr) (payload raw : List UInt8) : Prop :=
  hdr.encoding = Encoding.raw.code ∧ payload = raw ∨
    lz4 = true ∧ hdr.encoding = Encoding.lz4.code ∧ 0 < payload.length ∧
      payload.length < raw.length ∧ z.decompressSafe payload raw.length = some raw

/-! ## The SBC client -/

/-- The outside does its part: the socket takes the PONG, the files of the sink open, the decoder
takes access units of up to its buffer size and drains, and the display shows a new buffer one way
or the other. -/
structure SbcWorld.Works (o : SbcWorld) : Prop where
  writes : o.writes = true
  sink : o.sinkOpens = true
  opens : o.decOpens = true
  feeds : ∀ au, 0 < au.length → au.length ≤ auCap → o.decFeeds au = true
  drains : o.decDrains = true
  shows : o.display.flip ≠ .refused

namespace SbcStream

variable {k : SbcStream} {z : Lz4} {o : SbcWorld} {hdr : FrameHdr} {s : SbcState}

lemma frameMsg_bytes (hdr : FrameHdr) (s : SbcState) (rest : List UInt8) :
    k.frameMsg z o s (hdr.bytes ++ rest) = k.frameBody z o hdr s rest := by
  rw [frameMsg, readn_append (FrameHdr.length_bytes hdr)]
  simp only [FrameHdr.ofBytes_bytes]

/-- The rows of a RAW rectangle are emitted in order and nothing behind them is read. -/
lemma rawRows_eq (x y w : ℕ) {n : ℕ} (row : ℕ) (s : SbcState) {b : List UInt8}
    (rest : List UInt8) (hb : b.length = n * (w * k.pixfmt.bytespp)) :
    k.rawRows x y w n row s (b ++ rest) = .ok ((List.range n).foldl (fun s j =>
      k.emitRow x (y + (row + j)) w (piece b (w * k.pixfmt.bytespp) j) s) s, rest) := by
  induction n generalizing row s b with
  | zero =>
      have hnil : b = [] := List.length_eq_zero_iff.mp (by simpa using hb)
      simp [rawRows, hnil]
  | succ n ih =>
      set c := w * k.pixfmt.bytespp with hc
      rw [Nat.succ_mul] at hb
      have hhead : (b.take c).length = c := by
        rw [List.length_take]
        omega
      have htail : (b.drop c).length = n * c := by
        rw [List.length_drop]
        omega
      have hread : readn c (b ++ rest) = some (b.take c, b.drop c ++ rest) := by
        have := readn_append hhead (b.drop c ++ rest)
        rwa [← List.append_assoc, List.take_append_drop] at this
      have hpiece : ∀ j, piece (b.drop c) c j = piece b c (j + 1) := by
        intro j
        rw [piece, piece, List.drop_drop, Nat.succ_mul, Nat.add_comm]
      rw [rawRows, ← hc, hread]
      simp only
      rw [ih _ _ htail, List.range_succ_eq_map, List.foldl_cons, List.foldl_map]
      simp only [hpiece, Nat.succ_eq_add_one, Nat.add_zero, Nat.add_assoc, Nat.add_comm 1]
      simp only [piece, Nat.zero_mul, List.drop_zero]

/-- Both encodings draw the rows of the pixels they stand for. -/
lemma framePixels_eq {payload raw : List UInt8} (s : SbcState) (rest : List UInt8)
    (hfit : FitsStream k.streamW k.streamH k.pixfmt.bytespp hdr raw)
    (hlen : hdr.payloadLen.toNat = payload.length) (hdec : Decodes z (!k.noLz4) hdr payload raw) :
    k.framePixels z hdr s (payload ++ rest) = .ok ((List.range hdr.h.toNat).foldl (fun s j =>
      k.emitRow hdr.x.toNat (hdr.y.toNat + j) hdr.w.toNat
        (piece raw (hdr.w.toNat * k.pixfmt.bytespp) j) s) s, rest) := by
  unfold framePixels
  dsimp only
  rw [hlen, hfit.rectBytes]
  rcases hdec with ⟨he, rfl⟩ | ⟨hlz4, he, hpos, hlt, hd⟩
  · rw [if_pos he, if_neg (by simp), rawRows_eq _ _ _ _ _ _ hfit.raw_len]
    simp
  · have hcap := hfit.le_compressBound hlt
    have hframe := hfit.le_frame
    rw [he, if_neg (by decide), if_pos ⟨rfl, by simpa using hlz4⟩, if_neg (by
      unfold compCap
      omega), readn_append rfl, hfit.intOfSize]
    simp only [hd]
    rw [if_neg (by simp)]
    simp only [piece, Nat.mul_assoc]

/-- Switching the panel on shows what is there. -/
lemma image_unblank (disp : Display) (s : SbcState) :
    k.image (s.setBlank k.toSbc disp false) = k.image s := by
  unfold SbcState.setBlank
  split_ifs
  · rfl
  · rfl
  · simp only [image, Output.visible_unblank]

/-- Publishing the batch shows what was drawn. -/
lemma image_publish {disp : Display} (s : SbcState) (h : disp.flip ≠ .refused) :
    k.image ((s.outPresent k.toSbc disp).setBlank k.toSbc disp false) = k.drawn s := by
  rw [image_unblank]
  unfold SbcState.outPresent image drawn
  by_cases ht : k.testMode = true
  · rw [if_pos ht]
    exact pixels_of_testMode ht ..
  · rw [if_neg ht]
    dsimp only
    rw [Output.visible_present h]

/-- What a batch starts from: the picture that is seen, unless all of it is going to be
rewritten. -/
lemma drawn_outBegin_false (s : SbcState) :
    k.drawn (s.outBegin k.toSbc false) = k.image s := by
  unfold SbcState.outBegin image drawn
  by_cases ht : k.testMode = true
  · rw [if_pos ht]
    exact pixels_of_testMode ht ..
  · rw [if_neg ht]
    dsimp only
    rw [Output.written_beginBatch_false]

/-- **A rectangle on the panel.** -/
theorem frameRect_accepts {payload raw : List UInt8} (s : SbcState) (rest : List UInt8)
    (hfit : FitsStream k.streamW k.streamH k.pixfmt.bytespp hdr raw)
    (hlen : hdr.payloadLen.toNat = payload.length) (hdec : Decodes z (!k.noLz4) hdr payload raw)
    (hshow : o.display.flip ≠ .refused) :
    ∃ s', k.frameRect z o hdr s (payload ++ rest) = .ok (s', rest) ∧
      Image.AgreeOn k.Keeps (k.image s') ((k.image s).put k.pixfmt.bytespp hdr.x.toNat
        hdr.y.toNat hdr.w.toNat hdr.h.toNat raw) := by
  have hchecks : ¬(hdr.w.toNat = 0 ∨ hdr.h.toNat = 0 ∨ hdr.x.toNat + hdr.w.toNat > k.streamW ∨
      hdr.y.toNat + hdr.h.toNat > k.streamH) := by
    have := hfit.w_pos
    have := hfit.h_pos
    have := hfit.right
    have := hfit.bottom
    omega
  unfold frameRect
  dsimp only
  rw [if_neg hchecks, framePixels_eq _ _ hfit hlen hdec]
  refine ⟨_, rfl, ?_⟩
  rw [image_publish _ hshow]
  have hrows : ∀ s, Image.AgreeOn k.Keeps
      (k.drawn ((List.range hdr.h.toNat).foldl (fun s j =>
        k.emitRow hdr.x.toNat (hdr.y.toNat + j) hdr.w.toNat
          (piece raw (hdr.w.toNat * k.pixfmt.bytespp) j) s) s))
      ((k.drawn s).put k.pixfmt.bytespp hdr.x.toNat hdr.y.toNat hdr.w.toNat hdr.h.toNat raw) :=
    rows_put fun s j hj => k.emitRow_agreeOn s (length_piece hfit.raw_len.ge hj) hfit.right
  intro px py hp
  rw [hrows _ px py hp]
  cases hfull : (hdr.x.toNat == 0 && hdr.y.toNat == 0 && hdr.w.toNat == k.streamW &&
      hdr.h.toNat == k.streamH) with
  | false =>
      rw [drawn_outBegin_false]
  | true =>
      -- whatever the back buffer held, all of it is replaced
      simp only [Bool.and_eq_true, beq_iff_eq] at hfull
      obtain ⟨⟨⟨hx, hy⟩, hw⟩, hh⟩ := hfull
      refine Image.put_agreeOn (fun qx qy hq => ?_) px py hp
      have hqx : qx < k.streamW := hq.1
      have hqy : qy < k.streamH := hq.2.1
      omega

end SbcStream

/-! ## The viewer -/

/-- The outside does its part: the socket takes the PONG, and the decoder opens, takes what it is
sent, and shows a picture for an access unit. -/
structure ViewWorld.Works (o : ViewWorld) (m : Message) : Prop where
  sends : o.sends = true
  opens : o.decOpens = true
  takes : o.decSends = true
  sound : o.decFails = false
  shows : ∀ nal idr, m = .au nal idr → o.pictures ≠ []

namespace ViewStream

variable {v : ViewStream} {z : Lz4} {o : ViewWorld} {hdr : FrameHdr} {n : ViewState}

lemma streamMsg_bytes (hdr : FrameHdr) (n : ViewState) (rest : List UInt8) :
    v.streamMsg z o n (hdr.bytes ++ rest) =
      v.streamBody z o hdr (n.batchFlushUnless o.availHdr o.nowHdr frameHdrSize) rest := by
  rw [streamMsg, readn_append (FrameHdr.length_bytes hdr)]
  simp only [FrameHdr.ofBytes_bytes]

lemma batchFlushUnless_pixels (avail : ℤ) (now need : ℕ) (n : ViewState) :
    (n.batchFlushUnless avail now need).fb.pixels = n.fb.pixels := by
  unfold ViewState.batchFlushUnless ViewState.publish
  split_ifs <;> rfl

lemma streamPixels_eq {payload raw : List UInt8} (rest : List UInt8)
    (hfit : FitsStream v.w v.h v.bytespp hdr raw) (hlen : hdr.payloadLen.toNat = payload.length)
    (hdec : Decodes z (!v.noLz4) hdr payload raw) :
    v.streamPixels z hdr (payload ++ rest) = some (raw, rest) := by
  unfold streamPixels
  dsimp only
  rw [hlen, hfit.rectBytes]
  rcases hdec with ⟨he, rfl⟩ | ⟨hlz4, he, hpos, hlt, hd⟩
  · rw [if_pos he, if_neg (by simp), readn_append rfl]
  · have hcap := hfit.le_compressBound hlt
    have hno : v.noLz4 = false := by simpa using hlz4
    rw [he, if_neg (by decide), if_neg (by
      unfold compCap
      simp only [hno, Bool.false_eq_true, false_or]
      omega), readn_append rfl, hfit.intOfSize]
    simp only [hd]
    rw [if_neg (by simp)]

/-- **A rectangle in the framebuffer.** -/
theorem streamRect_accepts {payload raw : List UInt8} (n : ViewState) (rest : List UInt8)
    (hfit : FitsStream v.w v.h v.bytespp hdr raw) (hlen : hdr.payloadLen.toNat = payload.length)
    (hdec : Decodes z (!v.noLz4) hdr payload raw) :
    ∃ n', v.streamRect z o hdr n (payload ++ rest) = .ok (n', rest) ∧
      Image.AgreeOn v.Keeps (v.image n') ((v.image n).put v.bytespp hdr.x.toNat
        hdr.y.toNat hdr.w.toNat hdr.h.toNat raw) := by
  have hchecks : ¬(hdr.w.toNat = 0 ∨ hdr.h.toNat = 0 ∨ hdr.x.toNat + hdr.w.toNat > v.w ∨
      hdr.y.toNat + hdr.h.toNat > v.h) := by
    have := hfit.w_pos
    have := hfit.h_pos
    have := hfit.right
    have := hfit.bottom
    omega
  unfold streamRect
  dsimp only
  rw [if_neg hchecks, streamPixels_eq rest hfit hlen hdec]
  refine ⟨_, rfl, ?_⟩
  have hbatch : ∀ m : ViewState, ∀ t : ℕ,
      (if m.batchT0 = 0 then { m with batchT0 := t } else m).fb = m.fb := by
    intro m t
    split_ifs <;> rfl
  have hput := fbPutRect_agreeOn v o.nowProbe
    (n.batchFlushUnless o.availBody o.nowBody hdr.payloadLen.toNat).fb hfit.raw_len hfit.right
  simp only [image, hbatch]
  rwa [batchFlushUnless_pixels] at hput

/-- An access unit of the stream's size, with a decoder that works. -/
lemma h264Au_accepts {nal : List UInt8} (n : ViewState) (rest : List UInt8) (hx : hdr.x = 0)
    (hy : hdr.y = 0) (hw : hdr.w.toNat = v.w) (hh : hdr.h.toNat = v.h)
    (hlen : hdr.payloadLen.toNat = nal.length) (hne : nal ≠ []) (hcap : nal.length ≤ auCap)
    (hopen : o.decOpens = true) (hsend : o.decSends = true) (hsound : o.decFails = false)
    (hpic : o.pictures ≠ []) : ∃ n', v.h264Au o hdr n (nal ++ rest) = .ok (n', rest) := by
  have hpos : 0 < nal.length := List.length_pos_iff.mpr hne
  have hshown : o.pictures.length ≠ 0 := by simpa using hpic
  unfold h264Au h264Pull
  dsimp only
  rw [if_neg (by simp [hx, hy, hw, hh]), hlen, if_neg (by omega), readn_append rfl]
  simp only [hopen, hsend, hsound, Bool.true_eq_false, and_false, if_false, Bool.false_eq_true]
  rw [if_pos hshown, if_neg (by decide)]
  exact ⟨_, rfl⟩

lemma h264Eos_accepts (n : ViewState) (rest : List UInt8) (hsend : o.decSends = true)
    (hsound : o.decFails = false) : ∃ n', v.h264Eos o n rest = .ok (n', rest) := by
  unfold h264Eos h264Pull
  simp only [hsend, hsound, Bool.true_eq_false, if_false, Bool.false_eq_true]
  split_ifs
  · exact ⟨_, rfl⟩
  · exact ⟨_, rfl⟩

end ViewStream

/-! ## Agreement -/

/-- The server's rectangle is one both receivers take. -/
lemma Carries.fitsStream {z : Lz4} {neg : Negotiated} {x y w h W H : ℕ} {raw : List UInt8}
    {m : FrameHdr × List UInt8} (hm : Carries z neg x y w h raw m)
    (hfit : Fits W H neg.pixfmt.bytespp) (hw : 0 < w) (hh : 0 < h) (hx : x + w ≤ W)
    (hy : y + h ≤ H) : FitsStream W H neg.pixfmt.bytespp m.1 raw where
  w_pos := by rw [hm.hdr_w]; omega
  h_pos := by rw [hm.hdr_h]; omega
  right := by rw [hm.hdr_x, hm.hdr_w]; exact hx
  bottom := by rw [hm.hdr_y, hm.hdr_h]; exact hy
  raw_len := by rw [hm.hdr_h, hm.hdr_w]; exact hm.raw_len
  size := hfit.size

lemma fits_hello {sh : ServerHello} {bpp : ℕ}
    (h : sh.width.toNat * sh.height.toNat * bpp ≤ 0x7E000000) :
    Fits sh.width.toNat sh.height.toNat bpp :=
  ⟨by have := sh.width.toNat_lt; omega, by have := sh.height.toNat_lt; omega, h⟩

/-- What the header of an access unit says. -/
lemma auHeader_spec (w h : UInt16) {nal : List UInt8} (idr : Bool) (hcap : nal.length ≤ auCap) :
    (auHeader { width := w.toNat, height := h.toNat } nal idr).w.toNat = w.toNat ∧
      (auHeader { width := w.toNat, height := h.toNat } nal idr).h.toNat = h.toNat ∧
      (auHeader { width := w.toNat, height := h.toNat } nal idr).payloadLen.toNat =
        nal.length := by
  refine ⟨?_, ?_, ?_⟩
  · simp [auHeader]
  · simp [auHeader]
  · simp only [auHeader, UInt32.toNat_ofNat']
    unfold auCap at hcap
    omega

/-- The server recovers the format from its code. -/
lemma ofHello_pixfmt {hello : ClientHello} {fmt : PixFmt} (h : hello.pixfmt = fmt.code) :
    (Negotiated.ofHello hello).pixfmt = fmt := by
  simp only [Negotiated.ofHello, h]
  cases fmt <;> rfl

/-- The hello of the SBC client says what it does. -/
lemma Sbc.hello_negotiated (k : Sbc) (broken : Bool) :
    (Negotiated.ofHello (k.hello broken)).pixfmt = k.pixfmt ∧
      (Negotiated.ofHello (k.hello broken)).lz4 = !k.noLz4 := by
  have hflags : ∀ a b c : Bool, decide (((if a then 0 else 1) ||| 2 ||| (if b then 4 else 0) |||
      (if c then 8 else 0) : UInt16) &&& 1 ≠ 0) = !a := by decide
  constructor
  · exact ofHello_pixfmt rfl
  · exact hflags k.noLz4 (k.offersH264 broken) k.usbActive

/-- The hello of the viewer says what it does. -/
lemma View.hello_negotiated (v : View) (broken : Bool) :
    (Negotiated.ofHello (v.hello broken)).pixfmt = v.pixfmt ∧
      (Negotiated.ofHello (v.hello broken)).lz4 = !v.noLz4 ∧
      (Negotiated.ofHello (v.hello broken)).h264Cap = v.offersH264 broken := by
  have hflags : ∀ a b c d : Bool, decide (((if a then 0 else 1) ||| 2 |||
        (if b then 0 else 16) ||| (if c then 0 else 32) ||| (if d then 4 else 0) : UInt16) &&& 1 ≠
          0) = !a ∧
      decide (((if a then 0 else 1) ||| 2 ||| (if b then 0 else 16) ||| (if c then 0 else 32) |||
        (if d then 4 else 0) : UInt16) &&& 4 ≠ 0) = d := by decide
  obtain ⟨hlz4, hcap⟩ := hflags v.noLz4 v.noInput v.noAudio (v.offersH264 broken)
  exact ⟨ofHello_pixfmt rfl, hlz4, hcap⟩

lemma Sbc.helloExchange_spec {k : Sbc} {sh : ServerHello} {k' : SbcStream}
    (h : k.helloExchange sh = some k') :
    k'.toSbc = k ∧ k'.streamW = sh.width.toNat ∧ k'.streamH = sh.height.toNat := by
  unfold helloExchange at h
  split_ifs at h
  all_goals
    obtain rfl := Option.some.inj h
    exact ⟨rfl, rfl, rfl⟩

lemma View.helloExchange_spec {v : View} {broken : Bool} {sh : ServerHello} {v' : ViewStream}
    (h : v.helloExchange broken sh = some v') : v'.toView = v ∧
      v'.h264Offered = v.offersH264 broken ∧ v'.w = sh.width.toNat ∧ v'.h = sh.height.toNat := by
  unfold helloExchange at h
  split_ifs at h
  obtain rfl := Option.some.inj h
  exact ⟨rfl, rfl, rfl, rfl⟩

/-! ## What a run builds -/

section Run

variable {D : Type} {env : Env}

/-- The control messages of the running program. -/
def IsStreamCtrl (m : List UInt8) : Prop :=
  m = ctrlMsg .blank ∨ m = ctrlMsg .unblank ∨ ∃ t, m = pingMsg t

/-- The event belongs to a stream of fixed size, as the program makes them: no mode change, no
decision from outside, and only control messages of the protocol. -/
def Event.InStream : Event → Prop
  | .ctrl m => IsStreamCtrl m
  | .setMode _ | .modeChanged .. => False
  | _ => True

def Rules.stream : Rules := { ctrl := IsStreamCtrl, decisions := False }

/-- The entry of the log is a message the server builds for a `w` by `h` stream. -/
def Emitted (env : Env) (neg : Negotiated) (w h : ℕ) (e : Sent) : Prop :=
  ∃ m : Message, m.Built neg w h ∧ e.bytes = m.bytes env neg w h

/-- A client in a `w` by `h` stream whose log holds, beyond `old`, only messages of `Message`. -/
structure Emits (env : Env) (w h : ℕ) (old : List Sent) (c : Client D) : Prop where
  width : c.tx.width = w
  height : c.tx.height = h
  region : c.tx.RegionOk
  cap : c.tx.xmitMode = .h264 → c.neg.h264Cap = true
  log : ∃ new, c.tx.log = old ++ new ∧ ∀ e ∈ new, e.isMsg = true → Emitted env c.neg w h e

/-- What an action logs is such a message, if H.264 is on only with a client that offered it. -/
lemma Tx.Logs.emitted {neg : Negotiated} {t : Tx} {new : List Sent}
    (h : t.Logs env neg .stream new) (hw : 0 < t.width) (hh : 0 < t.height) (hok : t.RegionOk)
    (hcap : t.xmitMode = .h264 → neg.h264Cap = true) :
    ∀ e ∈ new, e.isMsg = true → Emitted env neg t.width t.height e := by
  cases h with
  | nothing => exact fun e he => by cases he
  | opened now => exact List.forall_mem_singleton.mpr fun h => Bool.noConfusion h
  | ctrl m hm =>
      refine List.forall_mem_singleton.mpr fun _ => ?_
      rcases hm with (rfl | rfl | ⟨t', rfl⟩) | ⟨rfl, hmode⟩
      · exact ⟨.blank, trivial, rfl⟩
      · exact ⟨.unblank, trivial, rfl⟩
      · exact ⟨.ping t', trivial, rfl⟩
      · exact ⟨.eos, hcap hmode, rfl⟩
  | rect r hr =>
      refine List.forall_mem_singleton.mpr fun _ => ⟨.rect t.grabbuf r, ?_, rfl⟩
      rcases hr with rfl | hr
      · exact Rect.inside_full (by omega) (by omega)
      · exact hok.inside r hr
  | au nal idr hn hmode =>
      exact List.forall_mem_singleton.mpr fun _ => ⟨.au nal idr, ⟨hcap hmode, hn⟩, rfl⟩

lemma Emits.txStep {w h : ℕ} {old : List Sent} {c : Client D} (hw : 0 < w) (hh : 0 < h)
    (hc : Emits env w h old c) {t : Tx} (ht : TxStep env c.neg .stream c.tx t)
    (hcap : t.xmitMode = .h264 → c.neg.h264Cap = true) {c' : Client D} (hneg : c'.neg = c.neg)
    (htx : c'.tx = t) : Emits env w h old c' := by
  obtain ⟨hcw, hch, hok, hcap₀, new, hlog, hnew⟩ := hc
  obtain ⟨new', hlog', hl⟩ := ht.logs
  have hem := hl.emitted (hcw ▸ hw) (hch ▸ hh) hok hcap₀
  rw [hcw, hch] at hem
  subst htx
  refine ⟨ht.sameStream.width.trans hcw, ht.sameStream.height.trans hch, hok.step ht, ?_,
    new ++ new', ?_, ?_⟩
  · rwa [hneg]
  · rw [hlog', hlog, List.append_assoc]
  · intro e he
    rw [hneg]
    rcases List.mem_append.mp he with he | he
    · exact hnew e he
    · exact hem e he

lemma Emits.aside {w h : ℕ} {old : List Sent} {c c' : Client D} (hc : Emits env w h old c)
    (hneg : c'.neg = c.neg) (htx : c'.tx = c.tx) : Emits env w h old c' := by
  obtain ⟨hcw, hch, hok, hcap, hlog⟩ := hc
  exact ⟨htx ▸ hcw, htx ▸ hch, htx ▸ hok, by rwa [htx, hneg], by rwa [htx, hneg]⟩

variable [CDouble D]

lemma Emits.micro {w h : ℕ} {old : List Sent} {c c' : Client D} (hw : 0 < w) (hh : 0 < h)
    (hm : Micro env .stream c c') (hc : Emits env w h old c) : Emits env w h old c' := by
  cases hm with
  | act ha => exact hc.txStep hw hh (.act ha) (by rw [ha.xmitMode]; exact hc.cap) rfl rfl
  | measure k n => exact hc.aside rfl rfl
  | decision m hd => exact hd.elim
  | encodeFail n hf hr hmode =>
      refine hc.txStep hw hh (.encodeFail hf hr hmode) (fun _ => hc.cap hmode) rfl rfl
  | evaluate =>
      obtain ⟨hsw, hneg⟩ := ctlEvaluate_switched env c
      have hcap : (ctlEvaluate env c).tx.xmitMode = .h264 → c.neg.h264Cap = true := fun hmode =>
        (ctlEvaluate_h264Cap env c hmode).elim hc.cap id
      generalize ctlEvaluate env c = d at *
      generalize hdt : d.tx = t at *
      cases hsw with
      | same => exact hc.aside hneg hdt
      | leave hs hmode => exact hc.txStep hw hh (.leave hs hmode) hcap hneg hdt
      | failed =>
          exact hc.txStep hw hh (.act (.aux c.tx.outWatch c.tx.outRetry true c.tx.enc
            c.tx.wireTotal)) hcap hneg hdt
      | enter hs hmode now =>
          -- the encoder is opened first
          have henc : Emits env w h old { c with tx := { c.tx with enc := true } } :=
            hc.txStep hw hh (.act (.aux c.tx.outWatch c.tx.outRetry c.tx.h264Failed true
              c.tx.wireTotal)) hc.cap rfl rfl
          exact henc.txStep hw hh (.enter now hs hmode) hcap hneg hdt

/-- **A running server emits only such messages**: whatever happens in a stream of fixed size,
every message handed to the transmitter is one of `Message`. -/
theorem run_emits {w h : ℕ} (hw : 0 < w) (hh : 0 < h) {c : Client D}
    (hc : Emits env w h c.tx.log c) {es : List Event} (hes : ∀ e ∈ es, e.InStream) :
    Emits env w h c.tx.log (run (step env) c es) := by
  refine run_invariant (P := Emits env w h c.tx.log) (fun d ev hev hd => ?_) hc
    (along_of_forall hes)
  have hadm : Rules.stream.Admits env d ev := by
    cases ev with
    | ctrl m => exact hev
    | dpms on => cases on <;> simp [Rules.Admits, Rules.stream, IsStreamCtrl]
    | pingTick => exact fun t => .inr (.inr ⟨t, rfl⟩)
    | repaint => exact ⟨trivial, .inr (.inl rfl)⟩
    | outReady err => exact fun _ _ => ⟨fun _ => trivial, fun _ _ => trivial⟩
    | setMode | modeChanged => exact hev.elim
    | damage | retry | pong | lost => exact trivial
  exact step_invariant (fun hm hd => hd.micro hw hh hm) hadm hd

end Run

/-! ## Acceptance -/

section Accept

/-- For a message that is no rectangle there is nothing to show about the picture. -/
lemma accepts_of_control {σ : Type*} {m : Message} {step : Except σ (σ × List UInt8)}
    {rest : List UInt8} {P : Frame → Rect → σ → Prop} (hm : ∀ f r, m ≠ .rect f r)
    (h : ∃ s', step = .ok (s', rest)) :
    ∃ s', step = .ok (s', rest) ∧ ∀ f r, m = .rect f r → P f r s' := by
  obtain ⟨s', h⟩ := h
  exact ⟨s', h, fun f r hr => absurd hr (hm f r)⟩

variable {env : Env} {sh : ServerHello} {m : Message} {broken : Bool}

/-- **The SBC client understands the server.** -/
theorem Sbc.accepts {k : Sbc} {k' : SbcStream} (hz : env.lz4.Documented)
    (hk : k.helloExchange sh = some k')
    (hsize : sh.width.toNat * sh.height.toNat * k.pixfmt.bytespp ≤ 0x7E000000)
    (hm : m.Built (.ofHello (k.hello broken)) sh.width.toNat sh.height.toNat) (hcap : m.Bounded)
    {o : SbcWorld} (ho : o.Works) (s : SbcState) (rest : List UInt8) :
    ∃ s', k'.frameMsg env.lz4 o s (m.bytes env (.ofHello (k.hello broken)) sh.width.toNat
        sh.height.toNat ++ rest) = .ok (s', rest) ∧
      ∀ f r, m = .rect f r → Image.AgreeOn k'.Keeps (k'.image s')
        ((k'.image s).paint env.dither k.pixfmt f r) := by
  obtain ⟨rfl, hw, hh⟩ := Sbc.helloExchange_spec hk
  obtain ⟨hfmt, hlz4⟩ := k'.toSbc.hello_negotiated broken
  set neg := Negotiated.ofHello (k'.toSbc.hello broken) with hneg
  clear_value neg
  have hfit : Fits sh.width.toNat sh.height.toNat neg.pixfmt.bytespp := by
    rw [hfmt]
    exact fits_hello hsize
  cases m with
  | rect f r =>
      obtain ⟨x, y, w, h, rfl, hw0, hh0, hx, hy⟩ := inside_nat hm
      have hcar := rectMessage_carries hz hfit f hx hy
      obtain ⟨raw, hraw⟩ : ∃ raw, raw = convertRows env.dither neg.pixfmt f x y w h := ⟨_, rfl⟩
      rw [← hraw] at hcar
      have hfs := hcar.fitsStream hfit hw0 hh0 hx hy
      rw [hfmt, ← hw, ← hh] at hfs
      have hdec : Decodes env.lz4 (!k'.noLz4) _ _ _ := hlz4 ▸ hcar.payload
      obtain ⟨s', hs', himg⟩ :=
        SbcStream.frameRect_accepts (o := o) s rest hfs hcar.len hdec ho.shows
      have henc : (rectMessage env neg f ⟨x, y, x + w, y + h⟩).1.encoding = Encoding.raw.code ∨
          (rectMessage env neg f ⟨x, y, x + w, y + h⟩).1.encoding = Encoding.lz4.code :=
        hcar.payload.imp (·.1) (·.2.1)
      refine ⟨s', ?_, ?_⟩
      · rw [Message.bytes, List.append_assoc, SbcStream.frameMsg_bytes, SbcStream.frameBody,
          if_neg (by simp [hcar.magic])]
        rcases henc with he | he
        · simpa [he, Encoding.code] using hs'
        · simpa [he, Encoding.code] using hs'
      · rintro f' r' ⟨⟩
        rw [hcar.hdr_x, hcar.hdr_y, hcar.hdr_w, hcar.hdr_h, hraw, hfmt,
          Image.put_convertRows] at himg
        exact himg
  | blank | unblank =>
      refine accepts_of_control (by simp) ?_
      rw [Message.bytes, ctrlMsg, SbcStream.frameMsg_bytes]
      exact ⟨_, rfl⟩
  | ping t =>
      refine accepts_of_control (by simp) ?_
      rw [Message.bytes, pingMsg, List.append_assoc, SbcStream.frameMsg_bytes]
      have hping : ∀ t : List UInt8, t.length = 8 →
          SbcStream.framePing o { encoding := Encoding.ping.code, payloadLen := 8 } s (t ++ rest) =
            .ok ({ s with sent := s.sent ++ pongMsg t }, rest) := by
        intro t ht
        rw [SbcStream.framePing, if_neg (by decide), readn_append ht]
        simp [ho.writes]
      exact ⟨_, hping _ (length_leBytes ..)⟩
  | au nal idr =>
      have hpos : 0 < nal.length := List.length_pos_iff.mpr hm.2
      obtain ⟨-, -, hlen⟩ := auHeader_spec sh.width sh.height idr hcap
      have hau : ∃ s', k'.handleH264Au o nal s = .ok s' := by
        unfold SbcStream.handleH264Au
        simp only [ho.sink, ho.opens, ho.feeds nal hpos hcap, Bool.true_eq_false, and_false,
          if_true, if_false]
        split_ifs
        · exact ⟨_, rfl⟩
        · exact ⟨_, rfl⟩
      obtain ⟨s', hs'⟩ := hau
      refine accepts_of_control (by simp) ⟨s', ?_⟩
      have hframe : k'.frameAu o (auHeader { width := sh.width.toNat, height := sh.height.toNat }
          nal idr) s (nal ++ rest) = .ok (s', rest) := by
        unfold SbcStream.frameAu
        dsimp only
        unfold Message.Bounded at hcap
        rw [hlen, if_neg (by omega), readn_append rfl]
        simp only [hs', Except.map]
      rw [Message.bytes, List.append_assoc, SbcStream.frameMsg_bytes]
      exact hframe
  | eos =>
      refine accepts_of_control (by simp) ⟨s, ?_⟩
      rw [Message.bytes, eosMsg, ctrlMsg, SbcStream.frameMsg_bytes]
      simp [SbcStream.frameBody, SbcStream.frameEos, Encoding.code, ho.drains]

/-- **The viewer understands the server.** -/
theorem View.accepts {v : View} {v' : ViewStream} (hz : env.lz4.Documented)
    (hv : v.helloExchange broken sh = some v')
    (hsize : sh.width.toNat * sh.height.toNat * v.pixfmt.bytespp ≤ 0x7E000000)
    (hm : m.Built (.ofHello (v.hello broken)) sh.width.toNat sh.height.toNat) (hcap : m.Bounded)
    {o : ViewWorld} (ho : o.Works m) (n : ViewState) (rest : List UInt8) :
    ∃ n', v'.streamMsg env.lz4 o n (m.bytes env (.ofHello (v.hello broken)) sh.width.toNat
        sh.height.toNat ++ rest) = .ok (n', rest) ∧
      ∀ f r, m = .rect f r → Image.AgreeOn v'.Keeps (v'.image n')
        ((v'.image n).paint env.dither v.pixfmt f r) := by
  obtain ⟨rfl, hoff, hw, hh⟩ := View.helloExchange_spec hv
  obtain ⟨hfmt, hlz4, hh264⟩ := v'.toView.hello_negotiated broken
  rw [← hoff] at hh264
  set neg := Negotiated.ofHello (v'.toView.hello broken) with hneg
  clear_value neg
  have hfit : Fits sh.width.toNat sh.height.toNat neg.pixfmt.bytespp := by
    rw [hfmt]
    exact fits_hello hsize
  cases m with
  | rect f r =>
      obtain ⟨x, y, w, h, rfl, hw0, hh0, hx, hy⟩ := inside_nat hm
      have hcar := rectMessage_carries hz hfit f hx hy
      obtain ⟨raw, hraw⟩ : ∃ raw, raw = convertRows env.dither neg.pixfmt f x y w h := ⟨_, rfl⟩
      rw [← hraw] at hcar
      have hfs := hcar.fitsStream hfit hw0 hh0 hx hy
      rw [hfmt, ← hw, ← hh] at hfs
      have hdec : Decodes env.lz4 (!v'.noLz4) _ _ _ := hlz4 ▸ hcar.payload
      have henc : (rectMessage env neg f ⟨x, y, x + w, y + h⟩).1.encoding = Encoding.raw.code ∨
          (rectMessage env neg f ⟨x, y, x + w, y + h⟩).1.encoding = Encoding.lz4.code :=
        hcar.payload.imp (·.1) (·.2.1)
      obtain ⟨n', hn', himg⟩ := ViewStream.streamRect_accepts (o := o)
        (n.batchFlushUnless o.availHdr o.nowHdr frameHdrSize) rest hfs hcar.len hdec
      refine ⟨n', ?_, ?_⟩
      · rw [Message.bytes, List.append_assoc, ViewStream.streamMsg_bytes, ViewStream.streamBody,
          if_neg (by simp [hcar.magic])]
        rcases henc with he | he
        · simpa [he, Encoding.code] using hn'
        · simpa [he, Encoding.code] using hn'
      · rintro f' r' ⟨⟩
        simp only [ViewStream.image, ViewStream.batchFlushUnless_pixels] at himg ⊢
        rw [hcar.hdr_x, hcar.hdr_y, hcar.hdr_w, hcar.hdr_h, hraw, hfmt] at himg
        unfold ViewStream.bytespp at himg
        rw [Image.put_convertRows] at himg
        exact himg
  | blank | unblank =>
      refine accepts_of_control (by simp) ?_
      rw [Message.bytes, ctrlMsg, ViewStream.streamMsg_bytes]
      exact ⟨_, rfl⟩
  | ping t =>
      refine accepts_of_control (by simp) ?_
      rw [Message.bytes, pingMsg, List.append_assoc, ViewStream.streamMsg_bytes]
      have hping : ∀ n : ViewState, ∀ t : List UInt8, t.length = 8 →
          ViewStream.streamPing o { encoding := Encoding.ping.code, payloadLen := 8 } n
            (t ++ rest) = .ok ({ n with sent := n.sent ++ pongMsg t }, rest) := by
        intro n t ht
        rw [ViewStream.streamPing, if_neg (by decide), readn_append ht]
        simp [ho.sends]
      exact ⟨_, hping _ _ (length_leBytes ..)⟩
  | au nal idr =>
      have hoffered : v'.h264Offered = true := hh264 ▸ hm.1
      obtain ⟨hauw, hauh, hlen⟩ := auHeader_spec sh.width sh.height idr hcap
      set hdr := auHeader { width := sh.width.toNat, height := sh.height.toNat } nal idr with hhdr
      have hau : ∀ n, ∃ n', v'.h264Au o hdr n (nal ++ rest) = .ok (n', rest) := fun n =>
        ViewStream.h264Au_accepts n rest rfl rfl (hauw.trans hw.symm) (hauh.trans hh.symm) hlen hm.2
          hcap ho.opens ho.takes ho.sound (ho.shows nal idr rfl)
      obtain ⟨n', hn'⟩ := hau
        (if (n.batchFlushUnless o.availHdr o.nowHdr frameHdrSize).batchT0 ≠ 0 then
          { (n.batchFlushUnless o.availHdr o.nowHdr frameHdrSize).publish with batchT0 := 0 }
        else n.batchFlushUnless o.availHdr o.nowHdr frameHdrSize)
      refine accepts_of_control (by simp) ⟨n', ?_⟩
      rw [Message.bytes, List.append_assoc, ViewStream.streamMsg_bytes]
      simpa [ViewStream.streamBody, hhdr, auHeader, Encoding.code, hoffered] using hn'
  | eos =>
      have hoffered : v'.h264Offered = true := hh264 ▸ hm
      obtain ⟨n', hn'⟩ := ViewStream.h264Eos_accepts (v := v') (o := o)
        (if (n.batchFlushUnless o.availHdr o.nowHdr frameHdrSize).batchT0 ≠ 0 then
          { (n.batchFlushUnless o.availHdr o.nowHdr frameHdrSize).publish with batchT0 := 0 }
        else n.batchFlushUnless o.availHdr o.nowHdr frameHdrSize) rest ho.takes ho.sound
      refine accepts_of_control (by simp) ⟨n', ?_⟩
      rw [Message.bytes, eosMsg, ctrlMsg, ViewStream.streamMsg_bytes]
      simpa [ViewStream.streamBody, Encoding.code, hoffered] using hn'

/-- **Emitter and receivers agree.**  Every message the server builds for a stream is taken by both
clients, which read exactly its bytes; a rectangle replaces exactly its pixels of the client's
picture by those of the frame it was made from. -/
theorem clients_accept (env : Env) (hz : env.lz4.Documented) (sh : ServerHello) (m : Message)
    (hcap : m.Bounded) :
    (∀ (k : Sbc) (broken : Bool) (k' : SbcStream), k.helloExchange sh = some k' →
      sh.width.toNat * sh.height.toNat * k.pixfmt.bytespp ≤ 0x7E000000 →
      m.Built (.ofHello (k.hello broken)) sh.width.toNat sh.height.toNat →
      ∀ (o : SbcWorld) (s : SbcState) (rest : List UInt8), o.Works →
        ∃ s', k'.frameMsg env.lz4 o s (m.bytes env (.ofHello (k.hello broken)) sh.width.toNat
            sh.height.toNat ++ rest) = .ok (s', rest) ∧
          ∀ f r, m = .rect f r → Image.AgreeOn k'.Keeps (k'.image s')
            ((k'.image s).paint env.dither k.pixfmt f r)) ∧
    (∀ (v : View) (broken : Bool) (v' : ViewStream), v.helloExchange broken sh = some v' →
      sh.width.toNat * sh.height.toNat * v.pixfmt.bytespp ≤ 0x7E000000 →
      m.Built (.ofHello (v.hello broken)) sh.width.toNat sh.height.toNat →
      ∀ (o : ViewWorld) (n : ViewState) (rest : List UInt8), o.Works m →
        ∃ n', v'.streamMsg env.lz4 o n (m.bytes env (.ofHello (v.hello broken)) sh.width.toNat
            sh.height.toNat ++ rest) = .ok (n', rest) ∧
          ∀ f r, m = .rect f r → Image.AgreeOn v'.Keeps (v'.image n')
            ((v'.image n).paint env.dither v.pixfmt f r)) := by
  constructor
  · intro k broken k' hk hsize hm o s rest ho
    exact Sbc.accepts hz hk hsize hm hcap ho s rest
  · intro v broken v' hv hsize hm o n rest ho
    exact View.accepts hz hv hsize hm hcap ho n rest

/-- A client of two pixels, as the SBC client with a panel and as the viewer. -/
def Sbc.tiny : Sbc where
  testMode := false
  testW := 0
  testH := 0
  testSink := false
  noLz4 := false
  noH264 := false
  decFound := true
  usbActive := false
  panel := ⟨2, 1, .xrgb8888, 8, by decide⟩

@[inherit_doc Sbc.tiny]
def View.tiny : View where
  pixfmt := .xrgb8888
  reqW := 2
  reqH := 1
  noLz4 := false
  noInput := true
  noAudio := true
  noH264 := false
  withH264 := true

/-- Both take a rectangle of blue pixels and leave the byte behind it. -/
theorem clients_accept_blue :
    (∃ k' s', Sbc.tiny.helloExchange
        { width := 2, height := 1, pixfmt := 0, flags := 0 } = some k' ∧
      k'.frameMsg Lz4.literal {} { out := .fb fun _ => 0 }
        (Message.bytes Env.willing (.ofHello (Sbc.tiny.hello false)) 2 1
          (.rect (fun _ _ => 255) ⟨0, 0, 2, 1⟩) ++ [7]) = .ok (s', [7]) ∧
      k'.image s' 1 0 = [255, 0, 0, 0]) ∧
    ∃ v' n', View.tiny.helloExchange false
        { width := 2, height := 1, pixfmt := 0, flags := 0 } = some v' ∧
      v'.streamMsg Lz4.literal {} {} (Message.bytes Env.willing (.ofHello (View.tiny.hello false))
        2 1 (.rect (fun _ _ => 255) ⟨0, 0, 2, 1⟩) ++ [7]) = .ok (n', [7]) ∧
      v'.image n' 1 0 = [255, 0, 0, 0] := by
  obtain ⟨hsbc, hview⟩ := clients_accept Env.willing Lz4.literal_documented
    { width := 2, height := 1, pixfmt := 0, flags := 0 }
    (.rect (fun _ _ => 255) ⟨0, 0, 2, 1⟩) trivial
  have hin : Rect.Inside ⟨0, 0, 2, 1⟩ 2 1 := by decide
  constructor
  · obtain ⟨s', hs', himg⟩ := hsbc Sbc.tiny false _ rfl (by decide) hin {}
      { out := .fb fun _ => 0 } [7] ⟨rfl, rfl, rfl, fun _ _ _ => rfl, rfl, by decide⟩
    refine ⟨_, s', rfl, hs', ?_⟩
    rw [himg _ _ rfl 1 0 ⟨by decide, by decide, .inr (by simp [SbcStream.OnPanel, Sbc.tiny])⟩]
    decide
  · obtain ⟨n', hn', himg⟩ := hview View.tiny false _ rfl (by decide) hin {} {} [7]
      ⟨rfl, rfl, rfl, rfl, by simp⟩
    refine ⟨_, n', rfl, hn', ?_⟩
    rw [himg _ _ rfl 1 0 ⟨by decide, by decide⟩]
    decide

end Accept

end Sremfb
