import Sremfb.Server.I420
import Sremfb.Client.Frames
import Sremfb.View.Stream
import Mathlib.Algebra.Order.Group.MinMax

/-!
# Colours through H.264 (`convert.c`, `view/h264.c`, `sremfb-client.c`)

In H.264 a pixel is converted twice: `sremfb_convert_bgrx_to_i420` makes it a luma sample and, with
its block, two chroma samples, and a client makes a pixel of them again, `row_xrgb` and `row_rgb565`
in the viewer, `yuv_row_to_fb` in the SBC client.  All of it is fixed-point, with a floor at every
shift.  What the codec in between loses is not the subject here: `Encodes` says that the picture
decoded is the picture encoded, and the results say what the conversions alone do to it.

Chroma is shared by a block, so a pixel cannot come back as it was.  `shaded` is what it comes back
as: the mean colour of its block, at its own brightness.  `decoded_near` is the error, in 220ths of a
level since the weights of the luma sum to 220: two and a half levels, and three and a half in the
blue, whose two coefficients are the largest.  A pixel that has the colour of its block therefore
keeps it within the error, on the wire of either format (`h264_keeps_colours`), which is what keeps
a flat area from flickering when the transmission changes its mode.

The two clients run the same arithmetic (`clients_draw_alike`).  They differ in RGB565, where the
viewer dithers with the server's matrix and the SBC client does not.
-/

namespace Sremfb

open Lib

/-! ## Pixels on the wire -/

/-- Where a channel is in a pixel: its lowest bit and how many there are. -/
def PixFmt.field : PixFmt → Channel → ℕ × ℕ
  | .xrgb8888, .r => (16, 8)
  | .xrgb8888, .g => (8, 8)
  | .xrgb8888, .b => (0, 8)
  | .rgb565, .r => (11, 5)
  | .rgb565, .g => (5, 6)
  | .rgb565, .b => (0, 5)

/-- The level of a channel in a pixel. -/
def PixFmt.level (fmt : PixFmt) (c : Channel) (px : List UInt8) : ℤ :=
  (ofLe px / 2 ^ (fmt.field c).1 % 2 ^ (fmt.field c).2 : ℕ)

/-- Three fields put together by shifts, as a number. -/
lemma or_fields {r g b k l : ℕ} (hg : g < 2 ^ l) (hb : b < 2 ^ k) :
    r <<< (k + l) ||| g <<< k ||| b = (r * 2 ^ l + g) * 2 ^ k + b := by
  have hlow : g <<< k ||| b = g <<< k + b := (Nat.shiftLeft_add_eq_or_of_lt hb g).symm
  have hlt : g <<< k + b < 2 ^ (k + l) := by
    rw [Nat.shiftLeft_eq, Nat.pow_add]
    calc g * 2 ^ k + b < (g + 1) * 2 ^ k := by rw [Nat.add_mul]; omega
      _ ≤ 2 ^ l * 2 ^ k := Nat.mul_le_mul_right _ hg
      _ = 2 ^ k * 2 ^ l := Nat.mul_comm ..
  rw [Nat.or_assoc, hlow, ← Nat.shiftLeft_add_eq_or_of_lt hlt, Nat.shiftLeft_eq, Nat.shiftLeft_eq]
  ring

lemma level_xrgb {v : Channel → ℤ} (hv : ∀ c, 0 ≤ v c ∧ v c ≤ 255) (c : Channel) :
    PixFmt.xrgb8888.level c
      (leBytes 4 ((v .r).toNat <<< 16 ||| (v .g).toNat <<< 8 ||| (v .b).toNat)) = v c := by
  have hr := hv .r
  have hg := hv .g
  have hb := hv .b
  rw [or_fields (k := 8) (l := 8) (by omega) (by omega), PixFmt.level, ofLe_leBytes_of_lt (by omega)]
  cases c with
  | r | g | b =>
      simp only [PixFmt.field]
      omega

lemma level_rgb565 {v : Channel → ℕ} (hr : v .r ≤ 31) (hg : v .g ≤ 63) (hb : v .b ≤ 31)
    (c : Channel) :
    PixFmt.rgb565.level c (leBytes 2 (v .r <<< 11 ||| v .g <<< 5 ||| v .b)) = v c := by
  rw [or_fields (k := 5) (l := 6) (by omega) (by omega), PixFmt.level, ofLe_leBytes_of_lt (by omega)]
  cases c with
  | r | g | b =>
      simp only [PixFmt.field]
      omega

/-! ## RGB565 -/

/-- The bits of a channel that RGB565 has no room for. -/
def Channel.lost : Channel → ℕ
  | .g => 2
  | .r | .b => 3

/-- What the entry `t` of the dither matrix adds. -/
def Channel.bias (t : ℕ) : Channel → ℤ
  | .g => (t >>> 2 : ℕ) - 2
  | .r | .b => (t >>> 1 : ℕ) - 4

/-- A level of eight bits in RGB565. -/
def Channel.level565 (c : Channel) (bias v : ℤ) : ℤ := clamp255 (v + bias) / 2 ^ c.lost

/-- A level of eight bits in either format. -/
def PixFmt.quantize (c : Channel) (bias v : ℤ) : PixFmt → ℤ
  | .xrgb8888 => v
  | .rgb565 => c.level565 bias v

lemma clamp255_eq (v : ℤ) : clamp255 v = max 0 (min 255 v) := by
  unfold clamp255
  split_ifs <;> omega

lemma clamp255_mem (v : ℤ) : 0 ≤ clamp255 v ∧ clamp255 v ≤ 255 := by
  rw [clamp255_eq]
  omega

/-- Without a bias, the upper bits. -/
lemma level565_zero {v : ℤ} (hv : 0 ≤ v ∧ v ≤ 255) (c : Channel) :
    c.level565 0 v = v / 2 ^ c.lost := by
  rw [Channel.level565, clamp255_eq]
  congr 1
  omega

/-- A word of three levels that were shifted down. -/
lemma level_word565 {v : Channel → ℤ} (hv : ∀ c, 0 ≤ v c ∧ v c ≤ 255) (c : Channel) :
    PixFmt.rgb565.level c (leBytes 2 (((v .r).toNat >>> 3) <<< 11 ||| ((v .g).toNat >>> 2) <<< 5 |||
      (v .b).toNat >>> 3)) = v c / 2 ^ c.lost := by
  have hr := hv .r
  have hg := hv .g
  have hb := hv .b
  refine (level_rgb565 (v := fun c => (v c).toNat >>> c.lost) ?_ ?_ ?_ c).trans ?_
  · simp only [Channel.lost, Nat.shiftRight_eq_div_pow]
    omega
  · simp only [Channel.lost, Nat.shiftRight_eq_div_pow]
    omega
  · simp only [Channel.lost, Nat.shiftRight_eq_div_pow]
    omega
  · cases c with
    | r | g | b =>
        simp only [Channel.lost, Nat.shiftRight_eq_div_pow]
        omega

lemma and_shiftLeft (a m k : ℕ) : a &&& m <<< k = (a >>> k &&& m) <<< k := by
  apply Nat.eq_of_testBit_eq
  intro i
  simp only [Nat.testBit_and, Nat.testBit_shiftLeft, Nat.testBit_shiftRight]
  by_cases hi : k ≤ i
  · simp [hi]
  · simp [hi]

lemma Channel.of_eq (c : Channel) (px : UInt32) :
    c.of px = (px.toNat >>> (PixFmt.xrgb8888.field c).1 % 2 ^ 8 : ℕ) := by
  have hmask : ∀ n : ℕ, n &&& 255 = n % 2 ^ 8 := fun n => Nat.and_two_pow_sub_one_eq_mod n 8
  cases c with
  | r | g | b => simp [Channel.of, PixFmt.field, hmask]

/-- Without dithering, the same word by masks. -/
lemma pack565_eq (px : UInt32) :
    pack565 px = ((Channel.r.of px).toNat >>> 3) <<< 11 |||
      ((Channel.g.of px).toNat >>> 2) <<< 5 ||| (Channel.b.of px).toNat >>> 3 := by
  have hr : px.toNat >>> 8 &&& 63488 = (px.toNat >>> 16 % 256) >>> 3 <<< 11 := by
    rw [show 63488 = 31 <<< 11 by rfl, and_shiftLeft, show 31 = 2 ^ 5 - 1 by rfl,
      Nat.and_two_pow_sub_one_eq_mod]
    simp only [Nat.shiftRight_eq_div_pow]
    congr 1
    omega
  have hg : px.toNat >>> 5 &&& 2016 = (px.toNat >>> 8 % 256) >>> 2 <<< 5 := by
    rw [show 2016 = 63 <<< 5 by rfl, and_shiftLeft, show 63 = 2 ^ 6 - 1 by rfl,
      Nat.and_two_pow_sub_one_eq_mod]
    simp only [Nat.shiftRight_eq_div_pow]
    congr 1
    omega
  have hb : px.toNat >>> 3 &&& 31 = (px.toNat % 256) >>> 3 := by
    rw [show 31 = 2 ^ 5 - 1 by rfl, Nat.and_two_pow_sub_one_eq_mod]
    simp only [Nat.shiftRight_eq_div_pow]
    omega
  simp only [pack565, Channel.of_eq, Int.toNat_natCast, PixFmt.field, UInt32.toNat_or,
    UInt32.toNat_and, UInt32.toNat_shiftRight]
  exact congrArg₂ (· ||| ·) (congrArg₂ (· ||| ·) hr hg) hb

/-! ## What a pixel is converted to -/

/-- The matrix of `row_xrgb` and `yuv_row_to_fb`. -/
def decoded (y u v : ℤ) : Channel → ℤ
  | .r => clamp255 ((298 * (y - 16) + 128 + 409 * (v - 128)) / 256)
  | .g => clamp255 ((298 * (y - 16) + 128 - 100 * (u - 128) - 208 * (v - 128)) / 256)
  | .b => clamp255 ((298 * (y - 16) + 128 + 516 * (u - 128)) / 256)

lemma decoded_mem (y u v : ℤ) (c : Channel) : 0 ≤ decoded y u v c ∧ decoded y u v c ≤ 255 := by
  cases c with
  | r | g | b => exact clamp255_mem _

/-- A pixel of a raw rectangle. -/
lemma level_convertPixel (dither : Bool) (fmt : PixFmt) (x y : ℕ) (px : UInt32) (c : Channel) :
    fmt.level c (convertPixel dither fmt x y px) =
      fmt.quantize c (if dither then c.bias (bayer y x) else 0) (c.of px) := by
  cases fmt with
  | xrgb8888 =>
      have hpx := px.toNat_lt
      simp only [convertPixel, PixFmt.level]
      rw [ofLe_leBytes_of_lt (by omega), c.of_eq, Nat.shiftRight_eq_div_pow]
      cases c with
      | r | g | b => rfl
  | rgb565 =>
      cases dither with
      | true =>
          have h := level_word565 (v := fun c => clamp255 (c.of px + c.bias (bayer y x)))
            (fun c => clamp255_mem _) c
          simp only [Channel.bias, Channel.of, ← add_sub_assoc] at h
          exact h
      | false =>
          have h := level_word565 (fun c => c.of_mem px) c
          rw [← pack565_eq] at h
          exact h.trans (level565_zero (c.of_mem px) c).symm

/-- A pixel of the viewer's. -/
lemma level_picPixel (v : ViewStream) (p : Picture) (x y : ℕ) (c : Channel) :
    v.pixfmt.level c (v.picPixel p x y) =
      v.pixfmt.quantize c (c.bias (bayer y x)) (decoded (p.luma y x).toNat
        (p.cb (y / 2) (x / 2)).toNat (p.cr (y / 2) (x / 2)).toNat c) := by
  set d := decoded (p.luma y x).toNat (p.cb (y / 2) (x / 2)).toNat (p.cr (y / 2) (x / 2)).toNat
    with hd
  have hmem : ∀ c, 0 ≤ d c ∧ d c ≤ 255 := decoded_mem _ _ _
  have hrgb : ViewStream.rgbOf (p.luma y x) (p.cb (y / 2) (x / 2)) (p.cr (y / 2) (x / 2)) =
    (d .r, d .g, d .b) := rfl
  unfold ViewStream.picPixel
  rw [hrgb]
  cases v.pixfmt with
  | xrgb8888 =>
      exact level_xrgb hmem c
  | rgb565 =>
      have h := level_word565 (v := fun c => clamp255 (d c + c.bias (bayer y x)))
        (fun c => clamp255_mem _) c
      simp only [Channel.bias, ← add_sub_assoc] at h
      exact h

lemma clamp255u_eq (v : ℤ) : clamp255u v = (clamp255 v).toNat := by
  unfold clamp255u clamp255
  split_ifs <;> rfl

/-- `yuv_row_to_fb` adds the rounding term last. -/
lemma clamp255u_decoded (y u v : ℤ) :
    clamp255u ((298 * (y - 16) + 409 * (v - 128) + 128) >>> (8 : ℕ)) = (decoded y u v .r).toNat ∧
      clamp255u ((298 * (y - 16) - 100 * (u - 128) - 208 * (v - 128) + 128) >>> (8 : ℕ)) =
        (decoded y u v .g).toNat ∧
      clamp255u ((298 * (y - 16) + 516 * (u - 128) + 128) >>> (8 : ℕ)) =
        (decoded y u v .b).toNat := by
  simp only [clamp255u_eq, Int.shiftRight_eq_div_pow]
  refine ⟨?_, ?_, ?_⟩
  · rw [add_right_comm]
    rfl
  · rw [sub_add_eq_add_sub, sub_add_eq_add_sub]
    rfl
  · rw [add_right_comm]
    rfl

/-- A pixel of the SBC client's. -/
lemma level_yuvPixel (fmt : PixFmt) (y u v : UInt8) (c : Channel) :
    fmt.level c (yuvPixel fmt y u v) =
      fmt.quantize c 0 (decoded y.toNat u.toNat v.toNat c) := by
  obtain ⟨hr, hg, hb⟩ := clamp255u_decoded y.toNat u.toNat v.toNat
  have hmem := decoded_mem y.toNat u.toNat v.toNat
  unfold yuvPixel
  dsimp only
  rw [hr, hg, hb]
  cases fmt with
  | xrgb8888 => exact level_xrgb hmem c
  | rgb565 => exact (level_word565 hmem c).trans (level565_zero (hmem c) c).symm

/-! ## The error -/

/-- The weights of the luma; they sum to 220. -/
def brightness (col : Channel → ℤ) : ℤ := 66 * col .r + 129 * col .g + 25 * col .b

/-- The colour `m` at the brightness of `px`, cut to the range of a level, in 220ths. -/
def shaded (px m : Channel → ℤ) (c : Channel) : ℤ :=
  max 0 (min (220 * 255) (220 * m c + (brightness px - brightness m)))

/-- What the fixed-point arithmetic may be off by, in 220ths. -/
def Channel.slack : Channel → ℤ
  | .r | .g => 550
  | .b => 770

/-- Two values cut to one range are no further apart than before. -/
lemma abs_cut_sub_cut (lo hi a b : ℤ) :
    |max lo (min hi a) - max lo (min hi b)| ≤ |a - b| := by
  have hmax := abs_max_sub_max_le_max lo (min hi a) lo (min hi b)
  have hmin := abs_min_sub_min_le_max hi a hi b
  rw [sub_self, abs_zero, max_eq_right (abs_nonneg (min hi a - min hi b))] at hmax
  rw [sub_self, abs_zero, max_eq_right (abs_nonneg (a - b))] at hmin
  exact hmax.trans hmin

/-- The error of a channel before it is cut: the floors at the shifts, and the coefficients' own. -/
lemma decoded_uncut {px m : Channel → ℤ} (hpx : ∀ c, 0 ≤ px c ∧ px c ≤ 255)
    (hm : ∀ c, 0 ≤ m c ∧ m c ≤ 255) (c : Channel) :
    ∃ w, decoded (sample .y px) (sample .u m) (sample .v m) c = clamp255 w ∧
      |220 * w - (220 * m c + (brightness px - brightness m))| ≤ c.slack := by
  have hr := hpx .r
  have hg := hpx .g
  have hb := hpx .b
  have hmr := hm .r
  have hmg := hm .g
  have hmb := hm .b
  cases c with
  | r | g | b =>
      refine ⟨_, rfl, abs_le.mpr ?_⟩
      simp only [sample, brightness, Channel.slack, Int.shiftRight_eq_div_pow]
      omega

lemma decoded_near {px m : Channel → ℤ} (hpx : ∀ c, 0 ≤ px c ∧ px c ≤ 255)
    (hm : ∀ c, 0 ≤ m c ∧ m c ≤ 255) (c : Channel) :
    |220 * decoded (sample .y px) (sample .u m) (sample .v m) c - shaded px m c| ≤ c.slack := by
  obtain ⟨w, hw, hnear⟩ := decoded_uncut hpx hm c
  have hcut : 220 * clamp255 w = max 0 (min (220 * 255) (220 * w)) := by
    rw [clamp255_eq]
    omega
  rw [hw, hcut, shaded]
  exact (abs_cut_sub_cut _ _ _ _).trans hnear

/-- A block without colour has none afterwards. -/
lemma decoded_grey {px m : Channel → ℤ} (hg : m .r = m .g) (hb : m .g = m .b) (c : Channel) :
    decoded (sample .y px) (sample .u m) (sample .v m) c =
      clamp255 ((298 * (sample .y px - 16) + 128) / 256) := by
  have hu : sample .u m = 128 := by
    simp only [sample, Int.shiftRight_eq_div_pow]
    omega
  have hv : sample .v m = 128 := by
    simp only [sample, Int.shiftRight_eq_div_pow]
    omega
  rw [hu, hv]
  cases c with
  | r | g | b => simp [decoded]

/-- What a level of a flat block is off by. -/
def PixFmt.flatSlack : PixFmt → Channel → ℤ
  | .xrgb8888, .r | .xrgb8888, .g => 2
  | .xrgb8888, .b => 3
  | .rgb565, _ => 1

/-- The two dithers of a level and of one near it. -/
lemma level565_near {c : Channel} {t : ℕ} (ht : t ≤ 15) {b v v' : ℤ} (hb : b = 0 ∨ b = c.bias t)
    (h : |v - v'| ≤ PixFmt.xrgb8888.flatSlack c) :
    |c.level565 (c.bias t) v - c.level565 b v'| ≤ 1 := by
  rw [abs_le] at h ⊢
  simp only [Channel.level565, clamp255_eq]
  cases c with
  | r | g | b =>
      simp only [Channel.bias, Channel.lost, PixFmt.flatSlack, Nat.shiftRight_eq_div_pow] at hb h ⊢
      omega

/-! ## From the server to the viewer -/

/-- The picture is the one in the encoder's buffer. -/
structure Encodes (w h : ℕ) (buf : ℕ → UInt8) (p : Picture) : Prop where
  luma : ∀ x y, x < w → y < h → p.luma y x = buf (planeBase w h .y + (y * w + x))
  cb : ∀ i j, i < halfUp w → j < halfUp h → p.cb j i = buf (planeBase w h .u + (j * halfUp w + i))
  cr : ∀ i j, i < halfUp w → j < halfUp h → p.cr j i = buf (planeBase w h .v + (j * halfUp w + i))

section Encoded

variable {w h : ℕ} {bgrx : ℕ → UInt32} {buf : ℕ → UInt8}

lemma cell_lt {i j a b : ℕ} (hi : i < a) (hj : j < b) : j * a + i < b * a := by
  calc j * a + i < (j + 1) * a := by rw [Nat.add_mul]; omega
    _ ≤ b * a := Nat.mul_le_mul_right a hj

lemma luma_buf {x y : ℕ} (hx : x < w) (hy : y < h) :
    ((yuvBuf bgrx w h buf (planeBase w h .y + (y * w + x))).toNat : ℤ) =
      sample .y fun c => c.of (bgrx (y * w + x)) := by
  refine (yuvBuf_holds bgrx w h buf).1 .y _ _ (mem_writesTo.mp ?_)
  rw [writesTo_y]
  exact List.mem_map.mpr ⟨_, List.mem_range.mpr (cell_lt hx hy), rfl⟩

lemma chroma_buf {p : Plane} (hp : p ≠ .y) (hw : w < 2 ^ 32 - 1) (hh : h < 2 ^ 32 - 1) {i j : ℕ}
    (hi : i < halfUp w) (hj : j < halfUp h) :
    ((yuvBuf bgrx w h buf (planeBase w h p + (j * halfUp w + i))).toNat : ℤ) =
      sample p (blockMean bgrx w h i j) := by
  refine (yuvBuf_holds bgrx w h buf).1 p _ _ (mem_writesTo.mp ?_)
  rw [writesTo_of_ne hp]
  refine List.mem_map.mpr ⟨_, List.mem_range.mpr (cell_lt hi hj), ?_⟩
  have hmod : (j * halfUp w + i) % halfUp w = i := by
    rw [Nat.mul_comm, Nat.mul_add_mod, Nat.mod_eq_of_lt hi]
  have hdiv : (j * halfUp w + i) / halfUp w = j := by
    rw [Nat.mul_comm, Nat.mul_add_div (by omega), Nat.div_eq_of_lt hi, Nat.add_zero]
  rw [hmod, hdiv, chromaMean_eq bgrx (halfUp_eq hw ▸ hi) (halfUp_eq hh ▸ hj)]

lemma blockMean_mem (w h x y : ℕ) (c : Channel) :
    0 ≤ blockMean bgrx w h x y c ∧ blockMean bgrx w h x y c ≤ 255 := by
  have hc := fun n => c.of_mem (bgrx n)
  simp only [blockMean, Finset.sum_range_succ, Finset.sum_range_zero]
  have h00 := hc (min (2 * y + 0) (h - 1) * w + min (2 * x + 0) (w - 1))
  have h01 := hc (min (2 * y + 0) (h - 1) * w + min (2 * x + 1) (w - 1))
  have h10 := hc (min (2 * y + 1) (h - 1) * w + min (2 * x + 0) (w - 1))
  have h11 := hc (min (2 * y + 1) (h - 1) * w + min (2 * x + 1) (w - 1))
  omega

/-- What a pixel of the picture is decoded to. -/
lemma decoded_encoded {p : Picture} (hp : Encodes w h (yuvBuf bgrx w h buf) p)
    (hw : w < 2 ^ 32 - 1) (hh : h < 2 ^ 32 - 1) {x y : ℕ} (hx : x < w) (hy : y < h) :
    decoded (p.luma y x).toNat (p.cb (y / 2) (x / 2)).toNat (p.cr (y / 2) (x / 2)).toNat =
      decoded (sample .y fun c => c.of (bgrx (y * w + x)))
        (sample .u (blockMean bgrx w h (x / 2) (y / 2)))
        (sample .v (blockMean bgrx w h (x / 2) (y / 2))) := by
  have hi : x / 2 < halfUp w := by
    rw [halfUp_eq hw]
    omega
  have hj : y / 2 < halfUp h := by
    rw [halfUp_eq hh]
    omega
  rw [hp.luma x y hx hy, hp.cb _ _ hi hj, hp.cr _ _ hi hj, luma_buf hx hy,
    chroma_buf (by decide) hw hh hi hj, chroma_buf (by decide) hw hh hi hj]

/-- **H.264 keeps the colours.**  With a codec that loses nothing, the viewer shows a pixel as the
mean colour of its block at the pixel's own brightness, two and a half levels off at most, three and
a half in the blue; a block without colour gets none; and a pixel of the block's colour is, on the
wire of either format and dithered or not, where a raw rectangle would have it, up to `flatSlack`. -/
theorem h264_keeps_colours (v : ViewStream) (bgrx : ℕ → UInt32) (buf : ℕ → UInt8)
    (hw : w < 2 ^ 32 - 1) (hh : h < 2 ^ 32 - 1) (p : Picture)
    (hp : Encodes w h (yuvBuf bgrx w h buf) p) {x y : ℕ} (hx : x < w) (hy : y < h) :
    let px := fun c : Channel => c.of (bgrx (y * w + x))
    let m := blockMean bgrx w h (x / 2) (y / 2)
    let shown := fun c => v.pixfmt.level c (v.picPixel p x y)
    (v.pixfmt = .xrgb8888 → ∀ c, |220 * shown c - shaded px m c| ≤ c.slack) ∧
      (v.pixfmt = .xrgb8888 → m .r = m .g → m .g = m .b →
        shown .r = shown .g ∧ shown .g = shown .b) ∧
      (m = px → ∀ dither c,
        |shown c - v.pixfmt.level c (convertPixel dither v.pixfmt x y (bgrx (y * w + x)))| ≤
          v.pixfmt.flatSlack c) := by
  intro px m shown
  have hpx : ∀ c, 0 ≤ px c ∧ px c ≤ 255 := fun c => c.of_mem _
  have hm : ∀ c, 0 ≤ m c ∧ m c ≤ 255 := blockMean_mem w h _ _
  have hdec := decoded_encoded hp hw hh hx hy
  have hshown : ∀ c, shown c = v.pixfmt.quantize c (c.bias (bayer y x))
      (decoded (sample .y px) (sample .u m) (sample .v m) c) := fun c => by
    rw [← hdec]
    exact level_picPixel v p x y c
  refine ⟨fun hfmt c => ?_, fun hfmt hg hb => ?_, fun hflat dither c => ?_⟩
  · rw [hshown, hfmt]
    exact decoded_near hpx hm c
  · have hgrey : ∀ c, shown c = clamp255 ((298 * (sample .y px - 16) + 128) / 256) := fun c => by
      rw [hshown, hfmt]
      exact decoded_grey hg hb c
    exact ⟨(hgrey .r).trans (hgrey .g).symm, (hgrey .g).trans (hgrey .b).symm⟩
  · have hnear : |decoded (sample .y px) (sample .u m) (sample .v m) c - px c| ≤
        PixFmt.xrgb8888.flatSlack c := by
      have h := decoded_near hpx hm c
      have hc := hpx c
      rw [hflat] at h ⊢
      rw [abs_le] at h ⊢
      simp only [shaded] at h
      cases c with
      | r | g | b =>
          simp only [Channel.slack, PixFmt.flatSlack] at h ⊢
          omega
    rw [hshown, level_convertPixel]
    cases v.pixfmt with
    | xrgb8888 => exact hnear
    | rgb565 =>
        refine level565_near (bayer_le y x) ?_ hnear
        cases dither with
        | true => exact .inr rfl
        | false => exact .inl rfl

end Encoded

/-- What a codec that loses nothing hands out. -/
def Picture.ofBuf (w h : ℕ) (buf : ℕ → UInt8) : Picture where
  w := w
  h := h
  luma y x := buf (planeBase w h .y + (y * w + x))
  cb j i := buf (planeBase w h .u + (j * halfUp w + i))
  cr j i := buf (planeBase w h .v + (j * halfUp w + i))

lemma encodes_ofBuf (w h : ℕ) (buf : ℕ → UInt8) : Encodes w h buf (.ofBuf w h buf) where
  luma _ _ _ _ := rfl
  cb _ _ _ _ := rfl
  cr _ _ _ _ := rfl

/-- The last pixel of three by three, all of one red: it is its own block. -/
theorem h264_keeps_colours_red :
    let v : ViewStream :=
      { pixfmt := .rgb565, reqW := 3, reqH := 3, noLz4 := true, noInput := true, noAudio := true
        noH264 := false, withH264 := true, h264Offered := true, w := 3, h := 3 }
    let buf := yuvBuf (fun _ => 0xC81E1E) 3 3 fun _ => 0
    ∀ dither c, |v.pixfmt.level c (v.picPixel (.ofBuf 3 3 buf) 2 2) -
      v.pixfmt.level c (convertPixel dither v.pixfmt 2 2 0xC81E1E)| ≤ v.pixfmt.flatSlack c := by
  intro v buf
  exact (h264_keeps_colours v (fun _ => 0xC81E1E) (fun _ => 0) (w := 3) (h := 3) (by decide)
    (by decide) (.ofBuf 3 3 buf) (encodes_ofBuf 3 3 buf) (x := 2) (y := 2) (by decide)
    (by decide)).2.2 (by funext c; cases c <;> rfl)

/-! ## The two clients -/

/-- The picture in a planar or semi-planar buffer of the decoder. -/
def DecFrame.picture (f : DecFrame) : Picture where
  w := f.w
  h := f.h
  luma y x := f.data (y * f.stride + x)
  cb j i :=
    if f.fourcc = .nv12 then f.data (f.stride * f.codedH + j * f.stride + i * 2)
    else f.data (f.stride * f.codedH + j * (f.stride / 2) + i)
  cr j i :=
    if f.fourcc = .nv12 then f.data (f.stride * f.codedH + j * f.stride + 1 + i * 2)
    else f.data (f.stride * f.codedH + f.codedH / 2 * (f.stride / 2) + j * (f.stride / 2) + i)

/-- A row as the SBC client emits it, pixel by pixel. -/
lemma row_eq {f : DecFrame} (hf : f.fourcc ≠ .rgb565) (fmt : PixFmt) (w y : ℕ) :
    f.row fmt w y = (List.range w).flatMap fun x =>
      yuvPixel fmt (f.picture.luma y x) (f.picture.cb (y / 2) (x / 2))
        (f.picture.cr (y / 2) (x / 2)) := by
  have hdirect : ¬f.Direct fmt := fun h => hf h.1
  unfold DecFrame.row
  dsimp only
  rw [if_neg hdirect]
  by_cases hnv : f.fourcc = .nv12
  · simp only [DecFrame.picture, hnv, if_true]
    rfl
  · simp only [DecFrame.picture, hnv, if_false, yuvRowToFb, Nat.mul_one]

lemma length_picPixel (v : ViewStream) (p : Picture) (x y : ℕ) :
    (v.picPixel p x y).length = v.pixfmt.bytespp := by
  unfold ViewStream.picPixel
  cases v.pixfmt with
  | xrgb8888 | rgb565 => exact length_leBytes _ _

lemma length_yuvPixel (fmt : PixFmt) (y u v : UInt8) :
    (yuvPixel fmt y u v).length = fmt.bytespp := by
  cases fmt with
  | xrgb8888 | rgb565 => exact length_leBytes _ _

lemma yuvPixel_xrgb {v : ViewStream} (hfmt : v.pixfmt = .xrgb8888) (p : Picture) (x y : ℕ) :
    yuvPixel .xrgb8888 (p.luma y x) (p.cb (y / 2) (x / 2)) (p.cr (y / 2) (x / 2)) =
      v.picPixel p x y := by
  obtain ⟨hr, hg, hb⟩ := clamp255u_decoded (p.luma y x).toNat (p.cb (y / 2) (x / 2)).toNat
    (p.cr (y / 2) (x / 2)).toNat
  unfold yuvPixel ViewStream.picPixel
  dsimp only
  rw [hr, hg, hb, hfmt]
  rfl

/-- **The two clients draw alike.**  A picture that the SBC's decoder hands out in either planar
layout becomes the row that the viewer makes of the same samples: byte for byte in XRGB8888, and in
RGB565, where only the viewer dithers, with no level more than one away. -/
theorem clients_draw_alike (v : ViewStream) (f : DecFrame) (hf : f.fourcc ≠ .rgb565) (w y : ℕ) :
    (v.pixfmt = .xrgb8888 → f.row v.pixfmt w y = v.picRow f.picture w y) ∧
      ∀ x < w, ∀ c,
        |v.pixfmt.level c (((v.picRow f.picture w y).drop (x * v.pixfmt.bytespp)).take
            v.pixfmt.bytespp) -
          v.pixfmt.level c (((f.row v.pixfmt w y).drop (x * v.pixfmt.bytespp)).take
            v.pixfmt.bytespp)| ≤ 1 := by
  rw [row_eq hf]
  refine ⟨fun hfmt => ?_, fun x hx c => ?_⟩
  · rw [hfmt]
    exact List.flatMap_congr fun x _ => yuvPixel_xrgb hfmt f.picture x y
  · rw [ViewStream.picRow, take_drop_flatMap (fun x => length_picPixel v _ x y) hx,
      take_drop_flatMap (fun x => length_yuvPixel _ _ _ _) hx, level_picPixel, level_yuvPixel]
    cases v.pixfmt with
    | xrgb8888 => simp [PixFmt.quantize]
    | rgb565 =>
        refine level565_near (bayer_le y x) (.inl rfl) ?_
        rw [sub_self, abs_zero]
        cases c with
        | r | g | b => decide

/-- Two pixels in NV12. -/
theorem clients_draw_alike_nv12 :
    let v : ViewStream :=
      { pixfmt := .xrgb8888, reqW := 2, reqH := 1, noLz4 := true, noInput := true, noAudio := true
        noH264 := false, withH264 := true, h264Offered := true, w := 2, h := 1 }
    let f : DecFrame :=
      { data := fun i => [81, 145, 90, 240].getD i 0, fourcc := .nv12, w := 2, h := 1, stride := 2
        codedH := 1 }
    f.row .xrgb8888 2 0 = v.picRow f.picture 2 0 ∧
      f.row .xrgb8888 2 0 = [0, 0, 255, 0, 74, 74, 255, 0] := by
  intro v f
  exact ⟨(clients_draw_alike v f (by decide) 2 0).1 rfl, by decide⟩

end Sremfb
