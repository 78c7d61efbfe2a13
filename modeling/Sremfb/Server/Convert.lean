import Sremfb.Protocol
import Sremfb.Lib.Block

/-!
# Pixel conversion (`convert.c`)

`sremfb_convert_bgrx_row` turns one row of BGRx pixels into the client's wire format.  The
row carries the absolute coordinates of its first pixel, so that the 4x4 Bayer matrix stays in
phase across partial rectangles: what a pixel becomes depends on where it is in the frame and
not on which rectangle it is sent in.  `convertBgrxRow` is the source's loop over a row;
`convertPixel` is its body, and `take_drop_convertRows` reads one pixel back out of a packed
rectangle, which is what makes converting a rectangle the restriction of converting the frame.

A frame is a function of absolute coordinates.  Buffers are linear in the source, with row
stride `width * 4`; every access there is at `(y * width + x) * 4` with `x` below the width, so
the two views name the same pixels.
-/

namespace Sremfb

open Lib

/-- A BGRx frame: the little-endian word of the pixel at `(x, y)`. -/
abbrev Frame := ℤ → ℤ → UInt32

/-- `bayer[4][4]`. -/
def bayer (row col : ℕ) : ℕ :=
  match row % 4, col % 4 with
  | 0, 0 => 0
  | 0, 1 => 8
  | 0, 2 => 2
  | 0, 3 => 10
  | 1, 0 => 12
  | 1, 1 => 4
  | 1, 2 => 14
  | 1, 3 => 6
  | 2, 0 => 3
  | 2, 1 => 11
  | 2, 2 => 1
  | 2, 3 => 9
  | 3, 0 => 15
  | 3, 1 => 7
  | 3, 2 => 13
  | _, _ => 5

def clamp255 (v : ℤ) : ℤ := if v < 0 then 0 else if v > 255 then 255 else v

/-- The RGB565 word of one pixel, without dithering. -/
def pack565 (px : UInt32) : ℕ :=
  (((px >>> 8) &&& (0xF800 : UInt32)) ||| ((px >>> 5) &&& (0x07E0 : UInt32)) |||
    ((px >>> 3) &&& (0x001F : UInt32))).toNat

/-- The RGB565 word of the pixel at `(x, y)`, biased by the dither matrix. -/
def dither565 (x y : ℕ) (px : UInt32) : ℕ :=
  let t := bayer y x
  let r := clamp255 (((px >>> 16) &&& (0xFF : UInt32)).toNat + (t >>> 1 : ℕ) - 4)
  let g := clamp255 (((px >>> 8) &&& (0xFF : UInt32)).toNat + (t >>> 2 : ℕ) - 2)
  let b := clamp255 ((px &&& (0xFF : UInt32)).toNat + (t >>> 1 : ℕ) - 4)
  ((r.toNat >>> 3) <<< 11) ||| ((g.toNat >>> 2) <<< 5) ||| (b.toNat >>> 3)

/-- One pixel of `sremfb_convert_bgrx_row`: its bytes on the wire. -/
def convertPixel (dither : Bool) (fmt : PixFmt) (x y : ℕ) (px : UInt32) : List UInt8 :=
  match fmt with
  | .xrgb8888 => leBytes 4 px.toNat
  | .rgb565 => leBytes 2 (if dither then dither565 x y px else pack565 px)

/-- `sremfb_convert_bgrx_row`: `width` pixels from `src`, the first one at `(x0, y)`. -/
def convertBgrxRow (dither : Bool) (fmt : PixFmt) (src : ℕ → UInt32) (width x0 y : ℕ) :
    List UInt8 :=
  (List.range width).flatMap fun i => convertPixel dither fmt (x0 + i) y (src i)

/-- The rows of a `w` by `h` rectangle at `(x, y)`, converted one after the other into a
tightly packed block. -/
def convertRows (dither : Bool) (fmt : PixFmt) (f : Frame) (x y w h : ℕ) : List UInt8 :=
  (List.range h).flatMap fun row =>
    convertBgrxRow dither fmt (fun i => f ((x + i : ℕ) : ℤ) ((y + row : ℕ) : ℤ)) w x (y + row)

@[simp] lemma length_convertPixel (dither : Bool) (fmt : PixFmt) (x y : ℕ) (px : UInt32) :
    (convertPixel dither fmt x y px).length = fmt.bytespp := by
  cases fmt <;> simp [convertPixel, PixFmt.bytespp]

lemma bayer_le (row col : ℕ) : bayer row col ≤ 15 := by
  unfold bayer
  split <;> omega

lemma length_convertRows (dither : Bool) (fmt : PixFmt) (f : Frame) (x y w h : ℕ) :
    (convertRows dither fmt f x y w h).length = h * (w * fmt.bytespp) := by
  apply length_flatMap_range
  intro row
  apply length_flatMap_range
  intro i
  exact length_convertPixel ..

/-- **A rectangle's conversion is the frame's, restricted.**  The cell of pixel `(x + i, y + j)`
in the packed rectangle at `(x, y)` holds what that pixel converts to at its absolute place. -/
theorem take_drop_convertRows (dither : Bool) (fmt : PixFmt) (f : Frame) (x y : ℕ) {w h i j : ℕ}
    (hi : i < w) (hj : j < h) :
    ((convertRows dither fmt f x y w h).drop ((j * w + i) * fmt.bytespp)).take fmt.bytespp =
      convertPixel dither fmt (x + i) (y + j) (f ((x + i : ℕ) : ℤ) ((y + j : ℕ) : ℤ)) := by
  unfold convertRows convertBgrxRow
  rw [take_drop_rows (fun _ _ => length_convertPixel ..) hi hj]

end Sremfb
