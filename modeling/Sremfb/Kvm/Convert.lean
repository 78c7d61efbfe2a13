import Sremfb.Lib.SaveUnder
import Sremfb.Server.Convert

/-!
# Captured frames to the master image (`convert_uyvy.c`)

A captured frame is bytes in UYVY (two pixels in four bytes) or RGB24; the master image is BGRx in
the geometry of the source.  `kvmConvertRect` converts one rectangle.  In UYVY it works by pairs of
pixels, so it widens the rectangle to even columns and leaves the last column of an odd width
alone: `Format.shown` is what a conversion ever reaches.

`kvmConvertRect_eq` says it without the loops: over a rectangle that is aligned to pairs, a
conversion puts there the pixels of the whole converted frame (`kvmConvertFull`).  That is what
makes the conversion of the dirty rectangles alone an incremental repaint.
-/

namespace Sremfb

open Lib

/-- A V4L2 pixel format.  `v4l2_set_format` takes the first two. -/
inductive Fourcc
  | uyvy
  | rgb24
  | other
  deriving DecidableEq, Repr

/-- `sremfb_kvm_src_bpp`. -/
def Fourcc.srcBpp : Fourcc → ℕ
  | .rgb24 => 3
  | _ => 2

/-- What the source sends: the fields of `SremfbKvmState` that `v4l2_set_format` fills. -/
structure KvmFormat where
  srcW : ℤ := 0
  srcH : ℤ := 0
  srcFourcc : Fourcc := .uyvy
  srcStride : ℕ := 0
  fullRange : Bool := false
  deriving DecidableEq, Repr

/-- The bytes of a captured frame. -/
abbrev Bytes := ℕ → UInt8

namespace KvmFormat

variable (f : KvmFormat)

/-- `stride`, as `sremfb_kvm_diff` and `sremfb_kvm_convert_rect` compute it. -/
def stride : ℕ := if f.srcStride ≠ 0 then f.srcStride else f.srcW.toNat * f.srcFourcc.srcBpp

end KvmFormat

/-- `struct yuv_coef`. -/
structure YuvCoef where
  ky : ℤ
  yoff : ℤ
  rv : ℤ
  gu : ℤ
  gv : ℤ
  bu : ℤ

/-- `COEF_LIMITED`. -/
def YuvCoef.limited : YuvCoef := ⟨298, 16, 409, 100, 208, 516⟩

/-- `COEF_FULL`. -/
def YuvCoef.full : YuvCoef := ⟨256, 0, 359, 88, 183, 454⟩

/-- `sat8`. -/
def sat8 (v : ℤ) : UInt8 := UInt8.ofNat (clamp255 v).toNat

/-- The little-endian word of the bytes `b g r 0xFF`. -/
def bgrx (b g r : UInt8) : UInt32 :=
  b.toUInt32 ||| g.toUInt32 <<< 8 ||| r.toUInt32 <<< 16 ||| 0xFF000000

/-- One pixel of the pair at `off`, in `uyvy_row`. -/
def uyvyPixel (k : YuvCoef) (src : Bytes) (off : ℕ) (odd : Bool) : UInt32 :=
  let u : ℤ := (src off).toNat - 128
  let y : ℤ := k.ky * ((src (if odd then off + 3 else off + 1)).toNat - k.yoff) + 128
  let v : ℤ := (src (off + 2)).toNat - 128
  let cr := k.rv * v
  let cg := -k.gu * u - k.gv * v
  let cb := k.bu * u
  bgrx (sat8 ((y + cb) >>> (8 : ℕ))) (sat8 ((y + cg) >>> (8 : ℕ))) (sat8 ((y + cr) >>> (8 : ℕ)))

/-- The `j`-th pixel that `uyvy_row` writes. -/
def uyvyRow (k : YuvCoef) (src : Bytes) (off j : ℕ) : UInt32 :=
  uyvyPixel k src (off + 4 * (j / 2)) (j % 2 = 1)

/-- The `j`-th pixel that `rgb24_row` writes. -/
def rgb24Row (src : Bytes) (off j : ℕ) : UInt32 :=
  bgrx (src (off + 3 * j + 2)) (src (off + 3 * j + 1)) (src (off + 3 * j))

namespace KvmFormat

variable (f : KvmFormat)

def coef : YuvCoef := if f.fullRange then .full else .limited

/-- `sremfb_kvm_convert_rect`, into an allocated master. -/
def kvmConvertRect (src : Bytes) (r : Rect) (master : Frame) : Frame :=
  let x1 := max r.x1 0
  let y1 := max r.y1 0
  let x2 := min r.x2 f.srcW
  let y2 := min r.y2 f.srcH
  if x2 ≤ x1 ∨ y2 ≤ y1 then master
  else if f.srcFourcc = .rgb24 then
    overlay master ⟨x1, y1, x2, y2⟩ fun x y _ =>
      rgb24Row src (y.toNat * f.stride + x1.toNat * 3) (x - x1).toNat
  else
    -- pairs: `x1 & ~1` and `MIN((x2 + 1) & ~1, src_w & ~1)`
    let x1 := x1 - x1 % 2
    let x2 := min (x2 + 1 - (x2 + 1) % 2) (f.srcW - f.srcW % 2)
    if x2 ≤ x1 then master
    else overlay master ⟨x1, y1, x2, y2⟩ fun x y _ =>
      uyvyRow f.coef src (y.toNat * f.stride + x1.toNat * 2) (x - x1).toNat

/-- The whole frame, converted into a zeroed master. -/
def kvmConvertFull (src : Bytes) : Frame :=
  f.kvmConvertRect src (Rect.full f.srcW f.srcH) fun _ _ => 0

/-! ## What a conversion does -/

/-- The pixels that a conversion reaches. -/
def shown : Rect :=
  Rect.full (if f.srcFourcc = .rgb24 then f.srcW else f.srcW - f.srcW % 2) f.srcH

/-- The pixel of the converted frame. -/
def pixel (src : Bytes) (x y : ℤ) : UInt32 :=
  if f.srcFourcc = .rgb24 then rgb24Row src (y.toNat * f.stride) x.toNat
  else uyvyRow f.coef src (y.toNat * f.stride) x.toNat

/-- The column starts a pair, or nothing is right of it. -/
def AtPair (x : ℤ) : Prop := x % 2 = 0 ∨ f.srcW ≤ x

/-- The rectangle does not cut a pair. -/
def Aligned (r : Rect) : Prop := f.AtPair r.x1 ∧ f.AtPair r.x2

variable {f}

/-- A row that starts at another column reads the same bytes for the same pixel. -/
lemma rgb24Row_shift (src : Bytes) (off : ℕ) {x a : ℤ} (ha : 0 ≤ a) (hx : a ≤ x) :
    rgb24Row src (off + a.toNat * 3) (x - a).toNat = rgb24Row src off x.toNat := by
  have h : off + a.toNat * 3 + 3 * (x - a).toNat = off + 3 * x.toNat := by omega
  rw [rgb24Row, rgb24Row, h]

lemma uyvyRow_shift (k : YuvCoef) (src : Bytes) (off : ℕ) {x a : ℤ} (ha : 0 ≤ a) (hx : a ≤ x)
    (heven : a % 2 = 0) :
    uyvyRow k src (off + a.toNat * 2) (x - a).toNat = uyvyRow k src off x.toNat := by
  have hoff : off + a.toNat * 2 + 4 * ((x - a).toNat / 2) = off + 4 * (x.toNat / 2) := by omega
  have hodd : (x - a).toNat % 2 = x.toNat % 2 := by omega
  rw [uyvyRow, uyvyRow, hoff, hodd]

/-- **A conversion of an aligned rectangle** puts the converted frame there. -/
lemma kvmConvertRect_apply {r : Rect} (hr : f.Aligned r) (src : Bytes) (master : Frame) (x y : ℤ) :
    f.kvmConvertRect src r master x y =
      if r.Mem x y ∧ f.shown.Mem x y then f.pixel src x y else master x y := by
  obtain ⟨hx1, hx2⟩ := hr
  unfold AtPair at hx1 hx2
  unfold kvmConvertRect
  dsimp only
  split
  · rename_i hempty
    rw [if_neg]
    rintro ⟨⟨h₁, h₂, h₃, h₄⟩, hs⟩
    obtain ⟨h₅, h₆, h₇, h₈⟩ := Rect.mem_full.mp hs
    have h₉ : x < f.srcW := by
      split at h₆
      · exact h₆
      · omega
    omega
  rename_i hne
  split <;> rename_i hfmt
  · have hmem : (Rect.Mem ⟨max r.x1 0, max r.y1 0, min r.x2 f.srcW, min r.y2 f.srcH⟩ x y) ↔
        (r.Mem x y ∧ f.shown.Mem x y) := by
      rw [shown, if_pos hfmt, Rect.mem_full]
      simp only [Rect.Mem]
      omega
    rw [overlay]
    refine if_ctx_congr hmem (fun hm => ?_) fun _ => rfl
    obtain ⟨⟨h₁, -⟩, hs⟩ := hm
    obtain ⟨h₂, -⟩ := Rect.mem_full.mp hs
    rw [pixel, if_pos hfmt]
    exact rgb24Row_shift src _ (by omega) (by omega)
  · have hmem : (Rect.Mem ⟨max r.x1 0 - max r.x1 0 % 2, max r.y1 0,
          min (min r.x2 f.srcW + 1 - (min r.x2 f.srcW + 1) % 2) (f.srcW - f.srcW % 2),
          min r.y2 f.srcH⟩ x y) ↔ (r.Mem x y ∧ f.shown.Mem x y) := by
      rw [shown, if_neg hfmt, Rect.mem_full]
      simp only [Rect.Mem]
      omega
    split <;> rename_i hpair
    · rw [if_neg]
      intro hm
      obtain ⟨h₁, h₂, -⟩ := hmem.mpr hm
      dsimp only at h₁ h₂
      omega
    · rw [overlay]
      refine if_ctx_congr hmem (fun hm => ?_) fun _ => rfl
      obtain ⟨⟨h₁, -⟩, hs⟩ := hm
      obtain ⟨h₂, -⟩ := Rect.mem_full.mp hs
      rw [pixel, if_neg hfmt]
      exact uyvyRow_shift f.coef src _ (by omega) (by omega) (by omega)

lemma aligned_full : f.Aligned (Rect.full f.srcW f.srcH) :=
  ⟨.inl rfl, .inr le_rfl⟩

lemma mem_full_of_shown {x y : ℤ} (h : f.shown.Mem x y) : (Rect.full f.srcW f.srcH).Mem x y := by
  obtain ⟨h₁, h₂, h₃, h₄⟩ := Rect.mem_full.mp h
  refine Rect.mem_full.mpr ⟨h₁, ?_, h₃, h₄⟩
  split at h₂
  · exact h₂
  · omega

lemma kvmConvertFull_apply (src : Bytes) (x y : ℤ) :
    f.kvmConvertFull src x y = if f.shown.Mem x y then f.pixel src x y else 0 := by
  rw [kvmConvertFull, kvmConvertRect_apply aligned_full]
  refine if_ctx_congr ⟨fun h => h.2, fun h => ⟨mem_full_of_shown h, h⟩⟩ (fun _ => rfl) fun _ => rfl

/-- Over a master that is black where nothing is converted, a conversion repaints the rectangle
with the converted frame. -/
lemma kvmConvertRect_eq {r : Rect} (hr : f.Aligned r) (src : Bytes) {master : Frame}
    (hm : ∀ x y, ¬f.shown.Mem x y → master x y = 0) :
    f.kvmConvertRect src r master = rewrite master (f.kvmConvertFull src) [r] := by
  funext x y
  rw [kvmConvertRect_apply hr, rewrite]
  by_cases hs : f.shown.Mem x y
  · simp [kvmConvertFull_apply, hs]
  · simp [kvmConvertFull_apply, hs, hm x y hs]

/-- The same for a list of rectangles. -/
lemma foldl_kvmConvertRect {rects : List Rect} (hr : ∀ r ∈ rects, f.Aligned r) (src : Bytes)
    {master : Frame} (hm : ∀ x y, ¬f.shown.Mem x y → master x y = 0) :
    rects.foldl (fun m r => f.kvmConvertRect src r m) master =
      rewrite master (f.kvmConvertFull src) rects := by
  induction rects generalizing master with
  | nil => exact (rewrite_nil _ _).symm
  | cons r rects ih =>
      have hr₀ := hr r (List.mem_cons_self ..)
      have hm' : ∀ x y, ¬f.shown.Mem x y → f.kvmConvertRect src r master x y = 0 := by
        intro x y hs
        rw [kvmConvertRect_apply hr₀, if_neg (fun h => hs h.2)]
        exact hm x y hs
      rw [List.foldl_cons, ih (fun q hq => hr q (List.mem_cons_of_mem _ hq)) hm',
        kvmConvertRect_eq hr₀ src hm, rewrite_cons]

end KvmFormat

end Sremfb
