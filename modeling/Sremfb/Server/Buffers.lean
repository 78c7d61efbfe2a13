import Sremfb.Server.Events
import Sremfb.Server.Session

/-!
# Buffer sizes

Both frame sources size `rectbuf` for a full frame and `sendbuf` for a header and LZ4's bound of
one, and `build_raw_rect` writes into them without looking at the sizes again.  Three things are
written: the converted pixels into `rectbuf`, whatever LZ4 produces, kept or not, into
`sendbuf`, and in the end the message itself.

The bound is computed from the size as an `int` and is `0` outside LZ4's range, while the
fallback to RAW copies the rectangle as it is.  `buffers_suffice_iff` says exactly when this is
harmless: when a full frame is within LZ4's range.  Beyond it, either a full frame or, when the
`int` wrapped back into range, a rectangle of a little over `2 ^ 31` bytes does not fit.
-/

namespace Sremfb

open Lib

variable {D : Type}

/-- The buffers a client with this hello gets, at the size it asked for: `alloc_buffers` in
`kvm_acquire`, or the same lines of `on_mode_changed`. -/
inductive Allocated [CDouble D] (env : Env) (neg : Negotiated) : Client D → Prop
  | kvm (extra : UInt8) (token : UInt16) : Allocated env neg
      (kvmAcquire env (Client.fresh neg) neg.xres.toNat neg.yres.toNat extra token)
  | evdi (c : Client D) (hc : c.neg = neg) (grab : Frame) (extra : UInt8) (token : UInt16) :
      Allocated env neg
        (onModeChanged env c (neg.xres.toNat : ℕ) (neg.yres.toNat : ℕ) grab extra token)

/-- The buffers hold what `build_raw_rect` writes for the rectangle. -/
structure Tx.Holds (env : Env) (neg : Negotiated) (f : Frame) (t : Tx) (r : Rect) : Prop where
  pixels : (rectPixels env neg f r).length ≤ t.rectbufSize
  attempt : ∀ out, env.lz4.compressFast (rectPixels env neg f r)
      (intOfSize (rectPixels env neg f r).length)
      (lz4CompressBound (intOfSize (rectPixels env neg f r).length)) = some out →
    frameHdrSize + out.length ≤ t.sendbufSize
  message : frameHdrSize + (rectMessage env neg f r).2.length ≤ t.sendbufSize

/-! ## What the sources allocate -/

section Sizes

variable [CDouble D]

lemma startStreaming_sizes (env : Env) (c : Client D) (extra : UInt8) (token : UInt16) :
    (startStreaming env c extra token).tx.rectbufSize = c.tx.rectbufSize ∧
      (startStreaming env c extra token).tx.sendbufSize = c.tx.sendbufSize := by
  unfold startStreaming ctlStart Tx.xmitHello
  obtain ⟨-, h⟩ | ⟨-, -, w, h⟩ := c.tx.xmitCtrl_cases (ServerHello.bytes {
    width := UInt16.ofNat c.tx.width
    height := UInt16.ofNat c.tx.height
    pixfmt := c.neg.pixfmt.code
    flags := srvFlags env c extra
    audioToken := if srvFlags env c extra &&& srvFlagAudio = 0 then 0 else token })
  · simp [h]
  · simp [h]

lemma Allocated.sizes {env : Env} {neg : Negotiated} {c : Client D} (h : Allocated env neg c)
    (hx : 0 < neg.xres.toNat) (hy : 0 < neg.yres.toNat) :
    c.tx.rectbufSize = rectbufSizeFor neg.xres.toNat neg.yres.toNat neg.pixfmt.bytespp ∧
      c.tx.sendbufSize = sendbufSizeFor
        (rectbufSizeFor neg.xres.toNat neg.yres.toNat neg.pixfmt.bytespp) := by
  cases h with
  | kvm extra token => exact startStreaming_sizes ..
  | evdi c hc grab extra token =>
      subst hc
      rw [onModeChanged_eq env c (by omega) (by omega)]
      split
      · exact startStreaming_sizes ..
      · exact ⟨rfl, rfl⟩

end Sizes

/-! ## LZ4's bound -/

/-- `sendbuf` is never larger than LZ4's bound at the end of its range. -/
lemma sendbufSizeFor_le (n : ℕ) : sendbufSizeFor n ≤ 2122219170 := by
  unfold sendbufSizeFor lz4CompressBound lz4MaxInputSize frameHdrSize
  refine (Nat.mod_le _ _).trans ?_
  split <;> omega

lemma sendbufSizeFor_of_le {n : ℕ} (h : n ≤ 0x7E000000) :
    sendbufSizeFor n = frameHdrSize + (n + n / 255 + 16) := by
  have hint : intOfSize n = n := intOfSize_of_lt (by norm_num; omega)
  unfold sendbufSizeFor lz4CompressBound lz4MaxInputSize frameHdrSize
  rw [hint, if_pos (by omega)]
  omega

/-- The `int` size is out of LZ4's range. -/
lemma intOfSize_out_of_range {n : ℕ} (h₁ : 0x7E000000 < n) (h₂ : n < 2 ^ 32) :
    intOfSize n < 0 ∨ lz4MaxInputSize < intOfSize n := by
  by_cases h : n < 2 ^ 31
  · right
    rw [intOfSize_of_lt h, lz4MaxInputSize]
    omega
  · exact .inl (intOfSize_neg (not_lt.mp h) h₂)

/-- Past the range the bound is zero and `sendbuf` holds a header. -/
lemma sendbufSizeFor_of_gt {n : ℕ} (h₁ : 0x7E000000 < n) (h₂ : n < 2 ^ 32) :
    sendbufSizeFor n = frameHdrSize := by
  have hr := intOfSize_out_of_range h₁ h₂
  unfold sendbufSizeFor lz4CompressBound
  rw [if_neg (by omega)]
  rfl

section Rect

variable {env : Env} {neg : Negotiated}

/-- A rectangle LZ4 refuses goes out as it is. -/
lemma rectMessage_of_out_of_range (hz : env.lz4.Documented) {f : Frame} {r : Rect}
    (h₁ : 0x7E000000 < (rectPixels env neg f r).length)
    (h₂ : (rectPixels env neg f r).length < 2 ^ 32) :
    (rectMessage env neg f r).2 = rectPixels env neg f r := by
  unfold rectMessage rectPayload
  dsimp only
  rw [hz.range (intOfSize_out_of_range h₁ h₂)]
  split <;> rfl

lemma length_rectPixels_le (env : Env) (neg : Negotiated) {w h : ℕ} {r : Rect}
    (hr : r.Inside w h) (f : Frame) :
    (rectPixels env neg f r).length ≤ w * h * neg.pixfmt.bytespp := by
  obtain ⟨h1, h2, h3, h4, h5, h6⟩ := hr
  unfold rectPixels
  rw [length_convertRows]
  calc (r.y2 - r.y1).toNat * ((r.x2 - r.x1).toNat * neg.pixfmt.bytespp)
      ≤ h * (w * neg.pixfmt.bytespp) :=
        Nat.mul_le_mul (by omega) (Nat.mul_le_mul_right _ (by omega))
    _ = w * h * neg.pixfmt.bytespp := by ring

/-- In LZ4's range, `sendbuf` holds every block LZ4 can produce for a rectangle. -/
lemma compressFast_fits (hz : env.lz4.Documented) {raw out : List UInt8} {n : ℕ}
    (hn : n ≤ 0x7E000000) (hraw : raw.length ≤ n)
    (h : env.lz4.compressFast raw (intOfSize raw.length)
      (lz4CompressBound (intOfSize raw.length)) = some out) :
    frameHdrSize + out.length ≤ sendbufSizeFor n := by
  have hint : intOfSize raw.length = raw.length := intOfSize_of_lt (by norm_num; omega)
  have hfit := hz.fits h
  have hdiv : raw.length / 255 ≤ n / 255 := Nat.div_le_div_right hraw
  rw [hint, lz4CompressBound, if_pos (by simp only [lz4MaxInputSize]; omega)] at hfit
  rw [sendbufSizeFor_of_le hn]
  omega

lemma length_rectMessage_le (env : Env) (neg : Negotiated) (f : Frame) (r : Rect) :
    (rectMessage env neg f r).2.length ≤ (rectPixels env neg f r).length := by
  unfold rectMessage rectPayload
  dsimp only
  split
  · split
    · split
      · rename_i hs
        exact hs.2.le
      · exact le_rfl
    · exact le_rfl
  · exact le_rfl

/-- The first multiple of `row` to reach `m` exceeds it by less than `row`. -/
lemma exists_mul_between {row h m : ℕ} (hm : 0 < m) (hle : m ≤ row * h) :
    ∃ k, 0 < k ∧ k ≤ h ∧ m ≤ row * k ∧ row * k < m + row := by
  classical
  have hex : ∃ k, m ≤ row * k := ⟨h, hle⟩
  have hfind := Nat.find_spec hex
  have hpos : 0 < Nat.find hex := by
    rw [Nat.pos_iff_ne_zero]
    intro h0
    rw [h0] at hfind
    omega
  obtain ⟨j, hj⟩ : ∃ j, Nat.find hex = j + 1 := ⟨Nat.find hex - 1, by omega⟩
  have hmin := Nat.find_min hex (m := j) (by omega)
  refine ⟨Nat.find hex, hpos, Nat.find_min' hex hle, hfind, ?_⟩
  rw [hj, Nat.mul_add, Nat.mul_one]
  omega

/-- Some number of rows of a frame beyond LZ4's range has between its limit and `2 ^ 32`
bytes, and does not fit. -/
lemma exists_overflow (hz : env.lz4.Documented) {w h : ℕ} (hw : w ≤ 65535)
    (hbig : 0x7E000000 < w * h * neg.pixfmt.bytespp) (hh : h ≤ 65535) (f : Frame) :
    ∃ r : Rect, r.Inside w h ∧
      sendbufSizeFor (rectbufSizeFor w h neg.pixfmt.bytespp) <
        frameHdrSize + (rectMessage env neg f r).2.length := by
  set row := w * neg.pixfmt.bytespp with hrow
  have hsize : w * h * neg.pixfmt.bytespp = row * h := by rw [hrow]; ring
  have hrowle : row ≤ 65535 * 4 := Nat.mul_le_mul hw (by cases neg.pixfmt <;> decide)
  have hwpos : 0 < w := by
    rcases Nat.eq_zero_or_pos w with rfl | h
    · simp at hbig
    · exact h
  have hhpos : 0 < h := by
    rcases Nat.eq_zero_or_pos h with rfl | h
    · simp at hbig
    · exact h
  have hin : ∀ k : ℕ, 0 < k → k ≤ h → Rect.Inside ⟨0, 0, w, k⟩ w h := by
    intro k hk hkh
    simp only [Rect.Inside]
    omega
  have hlen : ∀ k : ℕ, (rectPixels env neg f ⟨0, 0, w, k⟩).length = row * k := by
    intro k
    unfold rectPixels
    rw [length_convertRows, hrow]
    simp only [sub_zero, Int.toNat_natCast]
    ring
  have hmsg : ∀ k : ℕ, 0x7E000000 < row * k → row * k < 2 ^ 32 →
      (rectMessage env neg f ⟨0, 0, w, k⟩).2.length = row * k := by
    intro k h₁ h₂
    rw [rectMessage_of_out_of_range hz (by rw [hlen]; exact h₁) (by rw [hlen]; exact h₂), hlen]
  by_cases hn : row * h < 2 ^ 31
  · -- the whole frame: the bound is zero
    have hmod : rectbufSizeFor w h neg.pixfmt.bytespp = row * h := by
      rw [rectbufSizeFor, hsize]
      exact Nat.mod_eq_of_lt (by omega)
    refine ⟨⟨0, 0, w, h⟩, hin h hhpos le_rfl, ?_⟩
    rw [hmod, sendbufSizeFor_of_gt (by omega) (by omega), hmsg h (by omega) (by omega)]
    omega
  · -- as many rows as it takes to reach `2 ^ 31`: more than any `sendbuf`
    obtain ⟨k, hk, hkh, hlo, hhi⟩ := exists_mul_between (by norm_num) (not_lt.mp hn)
    refine ⟨⟨0, 0, w, k⟩, hin k hk hkh, ?_⟩
    have hle := sendbufSizeFor_le (rectbufSizeFor w h neg.pixfmt.bytespp)
    rw [hmsg k (by omega) (by omega)]
    omega

/-- Buffers of the sizes both sources compute hold every rectangle of the frame exactly when a
full frame is within LZ4's range. -/
lemma holds_iff (neg : Negotiated) (hz : env.lz4.Documented) {w h : ℕ} (hw : w ≤ 65535)
    (hh : h ≤ 65535) {t : Tx}
    (hrect : t.rectbufSize = rectbufSizeFor w h neg.pixfmt.bytespp)
    (hsend : t.sendbufSize = sendbufSizeFor (rectbufSizeFor w h neg.pixfmt.bytespp)) :
    (∀ (f : Frame) (r : Rect), r.Inside w h → t.Holds env neg f r) ↔
      w * h * neg.pixfmt.bytespp ≤ 0x7E000000 := by
  constructor
  · intro hall
    by_contra hbig
    obtain ⟨r, hr, hlt⟩ := exists_overflow hz hw (not_le.mp hbig) hh (fun _ _ => 0)
    have hmsg := (hall (fun _ _ => 0) r hr).message
    rw [hsend] at hmsg
    omega
  · intro hfit f r hr
    have hmod : rectbufSizeFor w h neg.pixfmt.bytespp = w * h * neg.pixfmt.bytespp :=
      Nat.mod_eq_of_lt (by omega)
    rw [hmod] at hrect hsend
    have hlen := length_rectPixels_le env neg hr f
    refine ⟨by rw [hrect]; exact hlen, fun out hout => ?_, ?_⟩
    · rw [hsend]
      exact compressFast_fits hz hfit hlen hout
    · have hmsg := length_rectMessage_le env neg f r
      rw [hsend, sendbufSizeFor_of_le hfit]
      omega

end Rect

/-! ## When the buffers suffice -/

/-- A hello that is accepted asks for a picture. -/
lemma helloValid_pos {h : ClientHello} (hv : helloValid h = true) :
    0 < h.xres.toNat ∧ 0 < h.yres.toNat := by
  unfold helloValid at hv
  by_cases h₁ : h.magic ≠ magic ∨ h.protoVer ≠ protoVer
  · simp [h₁] at hv
  by_cases h₂ : h.xres = 0 ∨ h.yres = 0
  · simp [h₁, h₂] at hv
  rw [not_or] at h₂
  simpa only [Nat.pos_iff_ne_zero, ne_eq, ← UInt16.toNat_inj, UInt16.toNat_zero] using h₂

/-- **Buffer sizing.**  For every accepted hello, whichever source allocates: the buffers hold
what is written for every rectangle of the geometry exactly when a full frame is within LZ4's
range. -/
theorem buffers_suffice_iff [CDouble D] {env : Env} (hz : env.lz4.Documented) {h : ClientHello}
    (hv : helloValid h = true) {c : Client D} (hc : Allocated env (.ofHello h) c) :
    (∀ (f : Frame) (r : Rect), r.Inside h.xres.toNat h.yres.toNat →
      c.tx.Holds env (.ofHello h) f r) ↔
      h.xres.toNat * h.yres.toNat * (Negotiated.ofHello h).pixfmt.bytespp ≤ 0x7E000000 := by
  obtain ⟨hx, hy⟩ := helloValid_pos hv
  obtain ⟨hrect, hsend⟩ := hc.sizes hx hy
  exact holds_iff _ hz (Nat.le_of_lt_succ h.xres.toNat_lt) (Nat.le_of_lt_succ h.yres.toNat_lt)
    hrect hsend

/-- A hello of the given size, in XRGB8888 with LZ4. -/
def ClientHello.sized (xres yres : UInt16) : ClientHello where
  magic := Sremfb.magic
  protoVer := Sremfb.protoVer
  flags := 1
  xres := xres
  yres := yres
  bpp := 32
  pixfmt := PixFmt.xrgb8888.code

/-- A 1920 by 1080 client on KVM. -/
theorem buffers_suffice_iff_1080p :
    helloValid (.sized 1920 1080) = true ∧ ∀ (f : Frame) (r : Rect), r.Inside 1920 1080 →
      (kvmAcquire Env.willing (Client.fresh (.ofHello (.sized 1920 1080)) : Client ℚ) 1920 1080
        0 0).tx.Holds Env.willing (.ofHello (.sized 1920 1080)) f r := by
  have hv : helloValid (.sized 1920 1080) = true := by decide
  exact ⟨hv, (buffers_suffice_iff Lz4.literal_documented hv (.kvm 0 0)).mpr (by decide)⟩

/-- **A frame of `2 ^ 31` bytes does not fit.**  The hello is accepted; `sendbuf` has room for a
header and nothing else. -/
theorem buffers_too_small_at_32768x16384 :
    helloValid (.sized 32768 16384) = true ∧
      ¬∀ (f : Frame) (r : Rect), r.Inside 32768 16384 →
        (kvmAcquire Env.willing (Client.fresh (.ofHello (.sized 32768 16384)) : Client ℚ) 32768
          16384 0 0).tx.Holds Env.willing (.ofHello (.sized 32768 16384)) f r := by
  refine ⟨by decide, fun hall => ?_⟩
  have hz : Env.willing.lz4.Documented := Lz4.literal_documented
  have hfit := (holds_iff (.ofHello (.sized 32768 16384)) hz (w := 32768) (h := 16384)
    (t := (kvmAcquire Env.willing (Client.fresh (.ofHello (.sized 32768 16384)) : Client ℚ)
      32768 16384 0 0).tx) (by decide) (by decide) rfl rfl).mp hall
  exact absurd hfit (by decide)

end Sremfb
