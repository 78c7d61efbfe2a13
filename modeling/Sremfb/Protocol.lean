import Sremfb.Lib.Words

/-!
# The wire protocol

The constants and packed structures of `protocol.h` that the stream from server to client is
made of: the server hello (16 bytes) and the frame header (20 bytes) that opens every message
after it.  All integers are little-endian.

`FrameHdr.bytes` and `FrameHdr.ofBytes` are the two directions of the packed layout, and
`FrameHdr.ofBytes_bytes` is the round trip both receivers rest on.  The header's second and
third `reserved` bytes are zero in every message the server builds and no receiver reads them,
so they are not fields here; `reserved[0]` is, because an access unit carries its IDR flag in
it.
-/

namespace Sremfb

open Lib

/-- `SREMFB_MAGIC`, the bytes `rFb0`. -/
def magic : UInt32 := 0x30624672

/-- `SREMFB_PROTO_VER`. -/
def protoVer : UInt16 := 2

/-- `enum sremfb_pixfmt`. -/
inductive PixFmt
  | xrgb8888
  | rgb565
  deriving DecidableEq, Repr

/-- The format's code on the wire. -/
def PixFmt.code : PixFmt → UInt8
  | .xrgb8888 => 0
  | .rgb565 => 1

/-- Bytes per pixel on the wire. -/
def PixFmt.bytespp : PixFmt → ℕ
  | .rgb565 => 2
  | .xrgb8888 => 4

/-- `enum sremfb_encoding`. -/
inductive Encoding
  | raw
  | lz4
  | blank
  | unblank
  | ping
  | h264
  | h264Eos
  deriving DecidableEq, Repr

/-- The encoding's code on the wire. -/
def Encoding.code : Encoding → UInt8
  | .raw => 0
  | .lz4 => 1
  | .blank => 2
  | .unblank => 3
  | .ping => 4
  | .h264 => 5
  | .h264Eos => 6

/-! ## The frame header -/

/-- `sizeof(struct sremfb_frame_hdr)`. -/
def frameHdrSize : ℕ := 20

/-- `struct sremfb_frame_hdr`. -/
structure FrameHdr where
  magic : UInt32 := Sremfb.magic
  encoding : UInt8
  /-- `reserved[0]`: the IDR flag of an access unit. -/
  reserved0 : UInt8 := 0
  x : UInt16 := 0
  y : UInt16 := 0
  w : UInt16 := 0
  h : UInt16 := 0
  payloadLen : UInt32 := 0
  deriving DecidableEq, Repr

namespace FrameHdr

/-- The packed, little-endian layout. -/
def bytes (hd : FrameHdr) : List UInt8 :=
  leBytes 4 hd.magic.toNat ++ [hd.encoding, hd.reserved0, 0, 0] ++ leBytes 2 hd.x.toNat ++
    leBytes 2 hd.y.toNat ++ leBytes 2 hd.w.toNat ++ leBytes 2 hd.h.toNat ++
    leBytes 4 hd.payloadLen.toNat

/-- The header a receiver sees in twenty bytes. -/
def ofBytes (b : List UInt8) : FrameHdr where
  magic := UInt32.ofNat (ofLe (b.take 4))
  encoding := b.getD 4 0
  reserved0 := b.getD 5 0
  x := UInt16.ofNat (ofLe ((b.drop 8).take 2))
  y := UInt16.ofNat (ofLe ((b.drop 10).take 2))
  w := UInt16.ofNat (ofLe ((b.drop 12).take 2))
  h := UInt16.ofNat (ofLe ((b.drop 14).take 2))
  payloadLen := UInt32.ofNat (ofLe ((b.drop 16).take 4))

@[simp] lemma length_bytes (hd : FrameHdr) : hd.bytes.length = frameHdrSize := by
  simp [bytes, frameHdrSize]

lemma ofLe_word32 (v : UInt32) : UInt32.ofNat (ofLe (leBytes 4 v.toNat)) = v := by
  rw [ofLe_leBytes_of_lt (by have := v.toNat_lt; norm_num at *; omega), UInt32.ofNat_toNat]

lemma ofLe_word16 (v : UInt16) : UInt16.ofNat (ofLe (leBytes 2 v.toNat)) = v := by
  rw [ofLe_leBytes_of_lt (by have := v.toNat_lt; norm_num at *; omega), UInt16.ofNat_toNat]

/-- **The header round trip.** -/
theorem ofBytes_bytes (hd : FrameHdr) : ofBytes hd.bytes = hd := by
  have h1 : hd.bytes.take 4 = leBytes 4 hd.magic.toNat := rfl
  have h2 : (hd.bytes.drop 8).take 2 = leBytes 2 hd.x.toNat := rfl
  have h3 : (hd.bytes.drop 10).take 2 = leBytes 2 hd.y.toNat := rfl
  have h4 : (hd.bytes.drop 12).take 2 = leBytes 2 hd.w.toNat := rfl
  have h5 : (hd.bytes.drop 14).take 2 = leBytes 2 hd.h.toNat := rfl
  have h6 : (hd.bytes.drop 16).take 4 = leBytes 4 hd.payloadLen.toNat := rfl
  have h7 : hd.bytes.getD 4 0 = hd.encoding := rfl
  have h8 : hd.bytes.getD 5 0 = hd.reserved0 := rfl
  simp only [ofBytes, h1, h2, h3, h4, h5, h6, h7, h8, ofLe_word16, ofLe_word32]

end FrameHdr

/-! ## Messages without a rectangle -/

/-- A payload-less control message: BLANK, UNBLANK or H264_EOS. -/
def ctrlMsg (e : Encoding) : List UInt8 := FrameHdr.bytes { encoding := e.code }

/-- The message that closes an H.264 episode. -/
def eosMsg : List UInt8 := ctrlMsg .h264Eos

/-- A PING carrying the server's clock: the header and eight bytes of payload. -/
def pingMsg (t : ℤ) : List UInt8 :=
  FrameHdr.bytes { encoding := Encoding.ping.code, payloadLen := 8 } ++
    leBytes 8 (t.toNat % 2 ^ 64)

@[simp] lemma length_ctrlMsg (e : Encoding) : (ctrlMsg e).length = frameHdrSize := by
  simp [ctrlMsg]

@[simp] lemma length_pingMsg (t : ℤ) : (pingMsg t).length = frameHdrSize + 8 := by
  simp [pingMsg]

lemma ctrlMsg_injective {a b : Encoding} (h : ctrlMsg a = ctrlMsg b) : a = b := by
  have hc : a.code = b.code := by
    have := congrArg (fun l => (FrameHdr.ofBytes l).encoding) h
    simpa [ctrlMsg, FrameHdr.ofBytes_bytes] using this
  revert hc
  cases a <;> cases b <;> decide

lemma pingMsg_ne_eosMsg (t : ℤ) : pingMsg t ≠ eosMsg := by
  intro h
  have := congrArg List.length h
  simp [eosMsg] at this

/-! ## The client's side -/

/-- `readn` of `n` bytes from what the server sent; `none` is the end of the stream. -/
def readn (n : ℕ) (inp : List UInt8) : Option (List UInt8 × List UInt8) :=
  if n ≤ inp.length then some (inp.take n, inp.drop n) else none

lemma readn_append {n : ℕ} {b : List UInt8} (h : b.length = n) (rest : List UInt8) :
    readn n (b ++ rest) = some (b, rest) := by
  subst h
  simp [readn]

lemma readn_eq_some {n : ℕ} {inp : List UInt8} {q : List UInt8 × List UInt8} :
    readn n inp = some q ↔ n ≤ inp.length ∧ q = (inp.take n, inp.drop n) := by
  simp [readn, eq_comm]

/-- A PONG: `struct sremfb_client_msg` with the eight bytes of the PING's payload. -/
def pongMsg (echo : List UInt8) : List UInt8 := leBytes 4 magic.toNat ++ [1, 0, 0, 0] ++ echo

/-- `AU_CAP` of both clients: the largest access unit they take. -/
def auCap : ℕ := 2 ^ 20

/-! ## The server hello -/

/-- `struct sremfb_server_hello`, as `net_fill_server_hello` fills it. -/
structure ServerHello where
  status : UInt16 := 0
  width : UInt16
  height : UInt16
  pixfmt : UInt8
  flags : UInt8
  audioToken : UInt16 := 0
  deriving DecidableEq, Repr

/-- `sizeof(struct sremfb_server_hello)`. -/
def serverHelloSize : ℕ := 16

namespace ServerHello

/-- The packed, little-endian layout. -/
def bytes (sh : ServerHello) : List UInt8 :=
  leBytes 4 magic.toNat ++ leBytes 2 protoVer.toNat ++ leBytes 2 sh.status.toNat ++
    leBytes 2 sh.width.toNat ++ leBytes 2 sh.height.toNat ++ [sh.pixfmt, sh.flags] ++
    leBytes 2 sh.audioToken.toNat

@[simp] lemma length_bytes (sh : ServerHello) : sh.bytes.length = serverHelloSize := by
  simp [bytes, serverHelloSize]

end ServerHello

/-! ## Hello flags -/

/-- `SREMFB_SRV_FLAG_PING`, `SREMFB_SRV_FLAG_H264` and `SREMFB_SRV_FLAG_AUDIO`. -/
def srvFlagPing : UInt8 := 1
@[inherit_doc srvFlagPing] def srvFlagH264 : UInt8 := 2
@[inherit_doc srvFlagPing] def srvFlagAudio : UInt8 := 8

/-- `SREMFB_SRV_FLAG_INPUT`. -/
def srvFlagInput : UInt8 := 4

end Sremfb
