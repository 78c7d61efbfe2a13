import Sremfb.Client.PageFlip

/-!
# Centring and clipping (`blit_stream_row`)

The stream is centred on the panel: `hello_exchange` halves the difference of the sizes, rounding
toward zero, so an offset is negative where the stream is larger.  The rows of a rectangle are cut
to the panel on both sides.  `rect_centred` says which bytes of the panel's buffer the rows of an
accepted rectangle are written to, and what they hold afterwards.

The source computes in `int` and `unsigned`; `SbcStream.ints` lists what it computes.  The
framebuffer's line length is 32 bits wide, so that a panel has fewer than `2 ^ 31` columns.
-/

namespace Sremfb

open Lib

/-- Byte `i` of a buffer belongs to the panel's pixel at `(px, py)`. -/
def Panel.HasByte (p : Panel) (px py i : ℕ) : Prop :=
  px < p.w ∧ py < p.h ∧ py * p.stride + px * p.pixfmt.bytespp ≤ i ∧
    i < py * p.stride + px * p.pixfmt.bytespp + p.pixfmt.bytespp

/-- The stream's pixel at `(sx, sy)` is in the rectangle. -/
def FrameHdr.Has (hdr : FrameHdr) (sx sy : ℕ) : Prop :=
  hdr.x.toNat ≤ sx ∧ sx < hdr.x.toNat + hdr.w.toNat ∧
    hdr.y.toNat ≤ sy ∧ sy < hdr.y.toNat + hdr.h.toNat

namespace SbcStream

/-- `frame_loop` accepts the rectangle. -/
def Accepts (k : SbcStream) (hdr : FrameHdr) : Prop :=
  hdr.w.toNat ≠ 0 ∧ hdr.h.toNat ≠ 0 ∧ hdr.x.toNat + hdr.w.toNat ≤ k.streamW ∧
    hdr.y.toNat + hdr.h.toNat ≤ k.streamH

instance (k : SbcStream) (hdr : FrameHdr) : Decidable (k.Accepts hdr) :=
  inferInstanceAs (Decidable (_ ∧ _))

/-- What `hello_exchange` and `blit_stream_row` compute in `int` for a row at `(sx, sy)`. -/
def ints (k : SbcStream) (sx sy : ℕ) : List ℤ :=
  [(k.panel.w : ℤ) - k.streamW, (k.panel.h : ℤ) - k.streamH, k.offX, k.offY,
    (sy : ℤ) + k.offY, (sx : ℤ) + k.offX, -((sx : ℤ) + k.offX)]

/-- The sum `dx + w` that `blit_stream_row` compares with the panel's width, in `unsigned`. -/
def rowEnd (k : SbcStream) (sx w : ℕ) : ℕ :=
  ((sx : ℤ) + k.offX).toNat + (w - (-((sx : ℤ) + k.offX)).toNat)

variable {k : SbcStream} {z : Lz4}

/-- A rectangle that the loop goes on after was accepted, and its rows were blitted between
`out_begin` and `out_present`. -/
lemma accepts_of_frameRect (ht : k.testMode = false) {o : SbcWorld} {hdr : FrameHdr}
    {s : SbcState} {inp : List UInt8} {r : SbcState × List UInt8}
    (h : k.frameRect z o hdr s inp = .ok r) :
    k.Accepts hdr ∧ ∃ full, r.1.out =
      (k.blitRows hdr.x.toNat hdr.y.toNat hdr.w.toNat hdr.h.toNat
        (piece (k.rectRaw z hdr inp) (hdr.w.toNat * k.pixfmt.bytespp))
        (s.out.beginBatch full)).present o.display.flip := by
  -- of the world outside only the display matters to a rectangle
  have hrect : k.frameRect z { display := o.display } hdr s inp = .ok r := h
  constructor
  · unfold frameRect at h
    dsimp only at h
    split at h
    · cases h
    rename_i hin
    unfold Accepts
    omega
  · have hdraw : k.draw z o.display s (.rect hdr inp) = r.1 := by
      unfold draw
      dsimp only
      rw [hrect]
    have htaken : Batch.Taken k z (.rect hdr inp) := ⟨_, s, r, hrect⟩
    have hout : (k.draw z o.display s (.rect hdr inp)).out = _ := draw_out ht htaken s
    rw [hdraw] at hout
    refine ⟨Batch.full k (.rect hdr inp), ?_⟩
    rw [hout, Batch.copies, blitRows_eq]

/-- The rows of a rectangle replace the pixels of theirs that are on the panel, each by its own
source pixel. -/
lemma cell_blitRows {x y w h px py : ℕ} {row : ℕ → List UInt8}
    (hrow : ∀ j < h, (row j).length = w * k.panel.pixfmt.bytespp) (hp : k.OnPanel px py)
    (o : Output) :
    cell (k.blitRows x y w h row o).written k.panel.stride k.panel.pixfmt.bytespp
        ((px : ℤ) + k.offX).toNat ((py : ℤ) + k.offY).toNat =
      if x ≤ px ∧ px < x + w ∧ y ≤ py ∧ py < y + h then
        ((row (py - y)).drop ((px - x) * k.panel.pixfmt.bytespp)).take k.panel.pixfmt.bytespp
      else cell o.written k.panel.stride k.panel.pixfmt.bytespp
        ((px : ℤ) + k.offX).toNat ((py : ℤ) + k.offY).toNat := by
  induction h with
  | zero => rw [if_neg (by omega)]; rfl
  | succ h ih =>
      have hstep : k.blitRows x y w (h + 1) row o =
          k.blitStreamRow x (y + h) w (row h) (k.blitRows x y w h row o) := by
        simp only [blitRows]
        rw [List.range_succ, List.foldl_append, List.foldl_cons, List.foldl_nil]
      rw [hstep, k.cell_blitStreamRow _ (hrow h (by omega)) hp]
      by_cases hlast : py = y + h ∧ x ≤ px ∧ px < x + w
      · rw [if_pos hlast, if_pos (by omega), show py - y = h by omega]
      · rw [if_neg hlast, ih fun j hj => hrow j (by omega)]
        by_cases hbefore : x ≤ px ∧ px < x + w ∧ y ≤ py ∧ py < y + h
        · rw [if_pos hbefore, if_pos (by omega)]
        · rw [if_neg hbefore, if_neg (by omega)]

/-- The bytes of a stream pixel are those of a panel pixel. -/
lemma inPixel_iff {sx sy i : ℕ} :
    k.InPixel sx sy i ↔ ∃ px py : ℕ, k.panel.HasByte px py i ∧ (px : ℤ) = sx + k.offX ∧
      (py : ℤ) = sy + k.offY := by
  unfold InPixel OnPanel Panel.HasByte
  constructor
  · rintro ⟨⟨hx0, hxw, hy0, hyh⟩, hlo, hhi⟩
    exact ⟨((sx : ℤ) + k.offX).toNat, ((sy : ℤ) + k.offY).toNat, ⟨by omega, by omega, hlo, hhi⟩,
      Int.toNat_of_nonneg hx0, Int.toNat_of_nonneg hy0⟩
  · rintro ⟨px, py, ⟨hw, hh, hlo, hhi⟩, hx, hy⟩
    rw [← hx, ← hy, Int.toNat_natCast, Int.toNat_natCast]
    exact ⟨by omega, hlo, hhi⟩

/-- The stream's size is 16 bits wide, so on a panel whose size fits an `int` everything does. -/
lemma ints_fit {k' : Sbc} {sh : ServerHello} (hello : k'.helloExchange sh = some k)
    (hw : k.panel.w < 2 ^ 31) (hh : k.panel.h < 2 ^ 31) {sx sy w : ℕ} (hx : sx + w ≤ k.streamW)
    (hy : sy < k.streamH) :
    (∀ v ∈ k.ints sx sy, -2 ^ 31 ≤ v ∧ v < 2 ^ 31) ∧ k.rowEnd sx w < 2 ^ 32 := by
  have hstream : k.streamW < 2 ^ 16 ∧ k.streamH < 2 ^ 16 ∧ k.offX.natAbs < 2 ^ 30 + 1 ∧
      k.offY.natAbs < 2 ^ 30 + 1 := by
    have hsw := sh.width.toNat_lt
    have hsh := sh.height.toNat_lt
    unfold Sbc.helloExchange at hello
    split_ifs at hello
    · obtain rfl := Option.some.inj hello
      exact ⟨hsw, hsh, by norm_num, by norm_num⟩
    · obtain rfl := Option.some.inj hello
      dsimp only at hw hh ⊢
      have hhalf : ∀ a : ℤ, (a.tdiv 2).natAbs = a.natAbs / 2 := fun a => Int.natAbs_tdiv a 2
      rw [hhalf, hhalf]
      omega
  unfold ints rowEnd
  simp only [List.forall_mem_cons]
  have hnil : ∀ v ∈ ([] : List ℤ), -2 ^ 31 ≤ v ∧ v < 2 ^ 31 := fun v hv =>
    absurd hv List.not_mem_nil
  refine ⟨⟨?_, ?_, ?_, ?_, ?_, ?_, ?_, hnil⟩, ?_⟩ <;> omega

/-- **Centring and clipping.**  The rows of an accepted rectangle are written to the bytes of
the panel's pixels `(sx + off_x, sy + off_y)`, `(sx, sy)` in the rectangle, and to no others, and
each of these pixels then holds its own source pixel. -/
theorem rect_centred {k' : Sbc} {sh : ServerHello} (hello : k'.helloExchange sh = some k)
    {hdr : FrameHdr} (hin : k.Accepts hdr) {row : ℕ → List UInt8}
    (hrow : ∀ j < hdr.h.toNat, (row j).length = hdr.w.toNat * k.panel.pixfmt.bytespp)
    (o : Output) :
    k.blitRows hdr.x.toNat hdr.y.toNat hdr.w.toNat hdr.h.toNat row o =
        o.patch (k.rowCopies hdr.x.toNat hdr.y.toNat hdr.w.toNat hdr.h.toNat row) ∧
      (∀ i, Covers (k.rowCopies hdr.x.toNat hdr.y.toNat hdr.w.toNat hdr.h.toNat row) i ↔
        ∃ px py : ℕ, k.panel.HasByte px py i ∧
          ∃ sx sy, hdr.Has sx sy ∧ (px : ℤ) = sx + k.offX ∧ (py : ℤ) = sy + k.offY) ∧
      (∀ px py sx sy : ℕ, px < k.panel.w → py < k.panel.h → hdr.Has sx sy →
        (px : ℤ) = sx + k.offX → (py : ℤ) = sy + k.offY →
        cell (k.blitRows hdr.x.toNat hdr.y.toNat hdr.w.toNat hdr.h.toNat row o).written
            k.panel.stride k.panel.pixfmt.bytespp px py =
          ((row (sy - hdr.y.toNat)).drop ((sx - hdr.x.toNat) * k.panel.pixfmt.bytespp)).take
            k.panel.pixfmt.bytespp) ∧
      (k.panel.w < 2 ^ 31 → k.panel.h < 2 ^ 31 → ∀ j < hdr.h.toNat,
        (∀ v ∈ k.ints hdr.x.toNat (hdr.y.toNat + j), -2 ^ 31 ≤ v ∧ v < 2 ^ 31) ∧
          k.rowEnd hdr.x.toNat hdr.w.toNat < 2 ^ 32) := by
  obtain ⟨-, -, hw, hh⟩ := hin
  refine ⟨blitRows_eq .., fun i => ?_, ?_, fun hpw hph j hj => ?_⟩
  · rw [covers_rowCopies fun j hj => (hrow j hj).ge]
    simp only [inPixel_iff]
    constructor
    · rintro ⟨sx, sy, hx, hxw, hy, hyh, px, py, hbyte, hpx, hpy⟩
      exact ⟨px, py, hbyte, sx, sy, ⟨hx, hxw, hy, hyh⟩, hpx, hpy⟩
    · rintro ⟨px, py, hbyte, sx, sy, ⟨hx, hxw, hy, hyh⟩, hpx, hpy⟩
      exact ⟨sx, sy, hx, hxw, hy, hyh, px, py, hbyte, hpx, hpy⟩
  · intro px py sx sy hpw hph hhas hpx hpy
    have hon : k.OnPanel sx sy := by
      unfold OnPanel
      omega
    have hcell := cell_blitRows (w := hdr.w.toNat) (x := hdr.x.toNat) (y := hdr.y.toNat) hrow hon o
    rw [← hpx, ← hpy, Int.toNat_natCast, Int.toNat_natCast] at hcell
    exact hcell.trans (if_pos hhas)
  · exact ints_fit hello hpw hph hw (by omega)

/-- A stream of five by three pixels on a panel of two by two: both differences are odd. -/
def cropped : SbcStream where
  toSbc := { Sbc.tiny with panel := ⟨2, 2, .rgb565, 4, by decide⟩ }
  streamW := 5
  streamH := 3
  offX := -1
  offY := 0

/-- The panel's last pixel shows the stream's pixel at `(2, 1)`. -/
theorem rect_centred_cropped :
    cell (cropped.blitRows 0 0 5 3 (fun j => (List.range 10).map fun i => UInt8.ofNat (10 * j + i))
      (.fb fun _ => 0)).written 4 2 1 1 = [14, 15] :=
  (rect_centred (show Sbc.helloExchange cropped.toSbc
      { width := 5, height := 3, pixfmt := PixFmt.rgb565.code, flags := 0 } = some cropped from rfl)
    (show cropped.Accepts { encoding := Encoding.raw.code, w := 5, h := 3 } by decide)
    (fun _ _ => rfl) (.fb fun _ => 0)).2.2.1 1 1 2 1 (by decide) (by decide)
    ⟨by decide, by decide, by decide, by decide⟩ (by decide) (by decide)

end SbcStream

end Sremfb
