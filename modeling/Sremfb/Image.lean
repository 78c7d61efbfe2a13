import Sremfb.Protocol
import Sremfb.Server.Lz4
import Sremfb.Lib.Raster

/-!
# What a rectangle message means

A client's picture gives the bytes of every pixel.  A RAW or LZ4 message replaces the pixels of
its rectangle by the block it carries and nothing else (`Image.put`); an LZ4 block is
decompressed to exactly the size the header announces.

A receiver copies a block row by row.  `rows_put` is the loop rule for that: when copying one row
is `Image.put` of that row, on the pixels the receiver has, copying the rows is `Image.put` of
the block.
-/

namespace Sremfb

open Lib

/-- A client's picture: the bytes of the pixel at `(x, y)`. -/
abbrev Image := ℕ → ℕ → List UInt8

/-- The picture with a tightly packed block of `w` by `h` pixels put at `(x, y)`. -/
def Image.put (img : Image) (bpp x y w h : ℕ) (raw : List UInt8) : Image := fun px py =>
  if x ≤ px ∧ px < x + w ∧ y ≤ py ∧ py < y + h then
    (raw.drop (((py - y) * w + (px - x)) * bpp)).take bpp
  else img px py

/-! ## Row by row -/

section Rows

variable {P : ℕ → ℕ → Prop} {a b : Image} {bpp x y w h : ℕ} {raw : List UInt8}

/-- The two pictures are the same on the pixels of `P`. -/
def Image.AgreeOn (P : ℕ → ℕ → Prop) (a b : Image) : Prop := ∀ px py, P px py → a px py = b px py

lemma Image.AgreeOn.put (hab : Image.AgreeOn P a b) :
    Image.AgreeOn P (a.put bpp x y w h raw) (b.put bpp x y w h raw) := by
  intro px py hp
  simp only [Image.put, hab px py hp]

/-- A block that covers all pixels of `P` leaves nothing of the picture under it. -/
lemma Image.put_agreeOn (hP : ∀ px py, P px py → x ≤ px ∧ px < x + w ∧ y ≤ py ∧ py < y + h) :
    Image.AgreeOn P (a.put bpp x y w h raw) (b.put bpp x y w h raw) := by
  intro px py hp
  simp only [Image.put, if_pos (hP px py hp)]

/-- A block of one row. -/
lemma Image.put_row (img : Image) (bpp x y w : ℕ) (row : List UInt8) (px py : ℕ) :
    img.put bpp x y w 1 row px py =
      if py = y ∧ x ≤ px ∧ px < x + w then (row.drop ((px - x) * bpp)).take bpp else img px py := by
  simp only [Image.put]
  by_cases hin : py = y ∧ x ≤ px ∧ px < x + w
  · rw [if_pos hin, if_pos (by omega), hin.1, Nat.sub_self, Nat.zero_mul, Nat.zero_add]
  · rw [if_neg hin, if_neg (by omega)]

/-- The last row of a block can be put on its own. -/
lemma Image.put_succ (img : Image) (bpp x y w h : ℕ) (raw : List UInt8) :
    img.put bpp x y w (h + 1) raw =
      (img.put bpp x y w h raw).put bpp x (y + h) w 1 (piece raw (w * bpp) h) := by
  funext px py
  simp only [Image.put]
  by_cases hlast : x ≤ px ∧ px < x + w ∧ py = y + h
  · obtain ⟨hx, hw, rfl⟩ := hlast
    have hcell : ((piece raw (w * bpp) h).drop ((px - x) * bpp)).take bpp =
        (raw.drop ((h * w + (px - x)) * bpp)).take bpp := take_drop_piece h (by omega)
    rw [if_pos (by omega), if_pos (by omega), Nat.add_sub_cancel_left, Nat.sub_self, Nat.zero_mul,
      Nat.zero_add]
    exact hcell.symm
  · rw [if_neg (show ¬(x ≤ px ∧ px < x + w ∧ y + h ≤ py ∧ py < y + h + 1) by omega)]
    by_cases hin : x ≤ px ∧ px < x + w ∧ y ≤ py ∧ py < y + h
    · rw [if_pos hin, if_pos (by omega)]
    · rw [if_neg hin, if_neg (by omega)]

/-- **The row loop.**  `view` is what the state shows, `emit s j` copies row `j`. -/
theorem rows_put {σ : Type*} {view : σ → Image} {emit : σ → ℕ → σ}
    (hrow : ∀ s, ∀ j < h, Image.AgreeOn P (view (emit s j))
      ((view s).put bpp x (y + j) w 1 (piece raw (w * bpp) j))) (s : σ) :
    Image.AgreeOn P (view ((List.range h).foldl emit s)) ((view s).put bpp x y w h raw) := by
  induction h with
  | zero =>
      intro px py _
      simp only [Image.put]
      rw [if_neg (by omega)]
      rfl
  | succ h ih =>
      intro px py hp
      rw [List.range_succ, List.foldl_append, List.foldl_cons, List.foldl_nil, Image.put_succ,
        hrow _ h (Nat.lt_succ_self h) px py hp]
      exact (ih fun s j hj => hrow s j (Nat.lt_succ_of_lt hj)).put px py hp

end Rows

/-! ## Rectangle messages -/

/-- The pixels a rectangle message carries.  A block that does not decompress, or not to the
size of the rectangle, is refused. -/
def rectData (z : Lz4) (bpp : ℕ) (hdr : FrameHdr) (payload : List UInt8) : Option (List UInt8) :=
  let rawLen := hdr.w.toNat * hdr.h.toNat * bpp
  let data :=
    if hdr.encoding = Encoding.raw.code then some payload
    else if hdr.encoding = Encoding.lz4.code then z.decompressSafe payload rawLen
    else none
  data.filter fun raw => raw.length == rawLen

/-- The picture after a rectangle message. -/
def Image.rect (img : Image) (z : Lz4) (bpp : ℕ) (hdr : FrameHdr) (payload : List UInt8) : Image :=
  match rectData z bpp hdr payload with
  | some raw => img.put bpp hdr.x.toNat hdr.y.toNat hdr.w.toNat hdr.h.toNat raw
  | none => img

end Sremfb
