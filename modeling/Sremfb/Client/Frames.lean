import Sremfb.Agreement
import Sremfb.Lib.Patch

/-!
# Batches of rows (`frame_to_fb`, the rectangle path of `frame_loop`)

The client writes to the panel in batches: `out_begin`, rows, `out_present`.  A batch comes from a
rectangle message (`SbcStream.frameRect`) or from a decoded picture (`frameToFb`); the first says
that it is full when its rectangle is the whole stream, the second always.

`SbcStream.copies` is what a row turns into on the panel: one `memcpy`, or none when centring and
clipping leave nothing of it.  `SbcStream.draw_eq` brings both kinds to one form, the copies of a
`Batch` between `begin` and `present`.
-/

namespace Sremfb

open Lib

/-! ## Decoded pictures -/

/-- The pixel formats the decoder hands out. -/
inductive DecFourcc
  | rgb565
  | nv12
  | yu12
  deriving DecidableEq, Repr

/-- `struct v4l2dec_frame`.  For the planar formats the chroma follows the luma. -/
structure DecFrame where
  data : Buf
  fourcc : DecFourcc
  w : ℕ
  h : ℕ
  stride : ℕ
  codedH : ℕ

/-- `clamp255u`. -/
def clamp255u (v : ℤ) : ℕ := if v < 0 then 0 else if v > 255 then 255 else v.toNat

/-- One pixel of `yuv_row_to_fb`: BT.601, limited range. -/
def yuvPixel (fmt : PixFmt) (y u v : UInt8) : List UInt8 :=
  let c : ℤ := 298 * ((y.toNat : ℤ) - 16)
  let du : ℤ := (u.toNat : ℤ) - 128
  let dv : ℤ := (v.toNat : ℤ) - 128
  let r := clamp255u ((c + 409 * dv + 128) >>> (8 : ℕ))
  let g := clamp255u ((c - 100 * du - 208 * dv + 128) >>> (8 : ℕ))
  let b := clamp255u ((c + 516 * du + 128) >>> (8 : ℕ))
  match fmt with
  | .rgb565 => leBytes 2 (((r >>> 3) <<< 11) ||| ((g >>> 2) <<< 5) ||| (b >>> 3))
  | .xrgb8888 => leBytes 4 ((r <<< 16) ||| (g <<< 8) ||| b)

/-- `yuv_row_to_fb`. -/
def yuvRowToFb (fmt : PixFmt) (yrow urow vrow : Buf) (uvStep w : ℕ) : List UInt8 :=
  (List.range w).flatMap fun i =>
    yuvPixel fmt (yrow i) (urow (i / 2 * uvStep)) (vrow (i / 2 * uvStep))

/-- The rows go to the panel as they are. -/
def DecFrame.Direct (f : DecFrame) (fmt : PixFmt) : Prop := f.fourcc = .rgb565 ∧ fmt = .rgb565

instance (f : DecFrame) (fmt : PixFmt) : Decidable (f.Direct fmt) :=
  inferInstanceAs (Decidable (_ ∧ _))

/-- Row `y` as `frame_to_fb` emits it. -/
def DecFrame.row (f : DecFrame) (fmt : PixFmt) (w y : ℕ) : List UInt8 :=
  let luma : Buf := fun i => f.data (y * f.stride + i)
  let chroma := f.stride * f.codedH
  if f.Direct fmt then (List.range (w * 2)).map luma
  else if f.fourcc = .nv12 then
    let uv := chroma + y / 2 * f.stride
    yuvRowToFb fmt luma (fun i => f.data (uv + i)) (fun i => f.data (uv + 1 + i)) 2 w
  else
    let cs := f.stride / 2
    let u := chroma + y / 2 * cs
    let v := chroma + f.codedH / 2 * cs + y / 2 * cs
    yuvRowToFb fmt luma (fun i => f.data (u + i)) (fun i => f.data (v + i)) 1 w

namespace SbcStream

variable (k : SbcStream)

/-- `h` rows blitted below each other, the first one on stream row `sy`. -/
def blitRows (sx sy w h : ℕ) (row : ℕ → List UInt8) (o : Output) : Output :=
  (List.range h).foldl (fun o j => k.blitStreamRow sx (sy + j) w (row j) o) o

/-- `frame_to_fb`; `rowbuf` is there unless its allocation failed. -/
def frameToFb (rowbuf : Bool) (disp : Display) (f : DecFrame) (s : SbcState) : SbcState :=
  let w := min f.w k.streamW
  let h := min f.h k.streamH
  -- decoded frames cover the whole stream
  let s := s.outBegin k.toSbc true
  let s :=
    if f.Direct k.panel.pixfmt ∨ rowbuf = true then
      { s with out := k.blitRows 0 0 w h (f.row k.panel.pixfmt w) s.out }
    else s
  (s.outPresent k.toSbc disp).setBlank k.toSbc disp false

end SbcStream

/-! ## What a batch copies -/

namespace Output

/-- Copies into the current target. -/
def patch (ws : List (ℕ × List UInt8)) : Output → Output
  | .fb mem => .fb (Lib.patch mem ws)
  | .drm d => .drm { d with buf := Function.update d.buf d.target (Lib.patch (d.buf d.target) ws) }

@[simp] lemma patch_nil (o : Output) : o.patch [] = o := by
  cases o <;> simp [patch]

lemma patch_append (o : Output) (ws ws' : List (ℕ × List UInt8)) :
    (o.patch ws).patch ws' = o.patch (ws ++ ws') := by
  cases o <;> simp [patch, Lib.patch_append]

lemma writeRow_eq (p : Panel) (dx dy : ℕ) (src : List UInt8) (npix : ℕ) (o : Output) :
    o.writeRow p dx dy src npix = o.patch
      [(dy * p.stride + dx * p.pixfmt.bytespp, src.take (npix * p.pixfmt.bytespp))] := by
  cases o <;> rfl

end Output

namespace SbcStream

variable (k : SbcStream)

/-- The copy `blit_stream_row` makes of a row, if any of it is on the panel. -/
def copies (sx sy w : ℕ) (row : List UInt8) : List (ℕ × List UInt8) :=
  let dy := (sy : ℤ) + k.offY
  let dx := (sx : ℤ) + k.offX
  let skip := (-dx).toNat
  let bpp := k.panel.pixfmt.bytespp
  if dy < 0 ∨ dy ≥ k.panel.h ∨ dx < 0 ∧ skip ≥ w ∨ dx.toNat ≥ k.panel.w then []
  else [(dy.toNat * k.panel.stride + dx.toNat * bpp,
    (row.drop (skip * bpp)).take (min (w - skip) (k.panel.w - dx.toNat) * bpp))]

lemma blitStreamRow_eq (sx sy w : ℕ) (row : List UInt8) (o : Output) :
    k.blitStreamRow sx sy w row o = o.patch (k.copies sx sy w row) := by
  unfold blitStreamRow copies
  dsimp only
  by_cases hdy : (sy : ℤ) + k.offY < 0 ∨ (sy : ℤ) + k.offY ≥ k.panel.h
  · rw [if_pos hdy, if_pos (by omega), Output.patch_nil]
  rw [if_neg hdy]
  set dx := (sx : ℤ) + k.offX with hdx
  have hskip : (if dx < 0 then (-dx).toNat else 0) = (-dx).toNat := by
    split_ifs
    · rfl
    · omega
  have hstart : (if dx < 0 then 0 else dx.toNat) = dx.toNat := by
    split_ifs
    · omega
    · rfl
  rw [hskip, hstart]
  by_cases hout : dx < 0 ∧ (-dx).toNat ≥ w
  · rw [if_pos hout, if_pos (by omega), Output.patch_nil]
  rw [if_neg hout]
  by_cases hright : dx.toNat ≥ k.panel.w
  · rw [if_pos hright, if_pos (by omega), Output.patch_nil]
  rw [if_neg hright]
  have hcut : (if dx.toNat + (w - (-dx).toNat) > k.panel.w then k.panel.w - dx.toNat
      else w - (-dx).toNat) = min (w - (-dx).toNat) (k.panel.w - dx.toNat) := by
    split_ifs
    · omega
    · omega
  have hon : ¬((sy : ℤ) + k.offY < 0 ∨ (sy : ℤ) + k.offY ≥ k.panel.h ∨
      dx < 0 ∧ (-dx).toNat ≥ w ∨ dx.toNat ≥ k.panel.w) := by
    omega
  rw [hcut, if_neg hon, Output.writeRow_eq]

/-- The copies of `h` rows. -/
def rowCopies (sx sy w h : ℕ) (row : ℕ → List UInt8) : List (ℕ × List UInt8) :=
  (List.range h).flatMap fun j => k.copies sx (sy + j) w (row j)

lemma blitRows_eq (sx sy w h : ℕ) (row : ℕ → List UInt8) (o : Output) :
    k.blitRows sx sy w h row o = o.patch (k.rowCopies sx sy w h row) := by
  induction h with
  | zero => simp [blitRows, rowCopies]
  | succ h ih =>
      simp only [blitRows, rowCopies] at ih ⊢
      rw [List.range_succ, List.foldl_append, ih, List.foldl_cons, List.foldl_nil,
        List.flatMap_append, List.flatMap_cons, List.flatMap_nil, List.append_nil,
        ← Output.patch_append, blitStreamRow_eq]

/-- A write batch: a rectangle message, from behind its header on, or a decoded picture. -/
inductive Batch
  | rect (hdr : FrameHdr) (inp : List UInt8)
  | picture (f : DecFrame) (rowbuf : Bool)

/-- One batch.  A message that `frame_loop` breaks off leaves the state it has reached. -/
def draw (z : Lz4) (disp : Display) (s : SbcState) : Batch → SbcState
  | .rect hdr inp =>
      match k.frameRect z { display := disp } hdr s inp with
      | .ok (s, _) => s
      | .error s => s
  | .picture f rowbuf => k.frameToFb rowbuf disp f s

/-- The loop takes the message. -/
def Batch.Taken (z : Lz4) : Batch → Prop
  | .rect hdr inp => ∃ disp s r, k.frameRect z { display := disp } hdr s inp = .ok r
  | .picture _ _ => True

/-- The batch is announced as full. -/
def Batch.full : Batch → Bool
  | .rect hdr _ => hdr.x.toNat == 0 && hdr.y.toNat == 0 && hdr.w.toNat == k.streamW &&
      hdr.h.toNat == k.streamH
  | .picture _ _ => true

/-- The pixels of a rectangle message that is taken. -/
def rectRaw (z : Lz4) (hdr : FrameHdr) (inp : List UInt8) : List UInt8 :=
  if hdr.encoding = Encoding.raw.code then inp
  else
    (z.decompressSafe (inp.take hdr.payloadLen.toNat)
      (intOfSize (hdr.w.toNat * hdr.h.toNat * k.pixfmt.bytespp))).getD []

/-- What the batch copies. -/
def Batch.copies (z : Lz4) : Batch → List (ℕ × List UInt8)
  | .rect hdr inp =>
      k.rowCopies hdr.x.toNat hdr.y.toNat hdr.w.toNat hdr.h.toNat
        (piece (k.rectRaw z hdr inp) (hdr.w.toNat * k.pixfmt.bytespp))
  | .picture f rowbuf =>
      if f.Direct k.panel.pixfmt ∨ rowbuf = true then
        k.rowCopies 0 0 (min f.w k.streamW) (min f.h k.streamH)
          (f.row k.panel.pixfmt (min f.w k.streamW))
      else []

end SbcStream

namespace SbcStream

variable {k : SbcStream} {z : Lz4} {disp : Display}

/-! ## One batch -/

/-- Rows emitted by the loop are rows on the panel. -/
lemma foldl_emitRow (ht : k.testMode = false) (x y w h : ℕ) (row : ℕ → List UInt8)
    (s : SbcState) :
    (List.range h).foldl (fun s j => k.emitRow x (y + j) w (row j) s) s =
      { s with out := k.blitRows x y w h row s.out } := by
  induction h with
  | zero => rfl
  | succ h ih =>
      simp only [blitRows] at ih ⊢
      rw [List.range_succ, List.foldl_append, ih]
      simp [emitRow, ht]

/-- RAW rows are only emitted to the end when they are all there. -/
lemma rawRows_length {x y w n row : ℕ} {s : SbcState} {inp : List UInt8}
    {r : SbcState × List UInt8} (h : k.rawRows x y w n row s inp = .ok r) :
    n * (w * k.pixfmt.bytespp) ≤ inp.length := by
  induction n generalizing row s inp with
  | zero => omega
  | succ n ih =>
      rw [rawRows] at h
      cases hread : readn (w * k.pixfmt.bytespp) inp with
      | none => simp [hread] at h
      | some q =>
          rw [hread] at h
          have hrest := ih h
          obtain ⟨hlen, rfl⟩ := readn_eq_some.mp hread
          rw [List.length_drop] at hrest
          rw [Nat.succ_mul]
          omega

lemma blitRows_congr {sx sy w h : ℕ} {row row' : ℕ → List UInt8}
    (hrow : ∀ j < h, row j = row' j) (o : Output) :
    k.blitRows sx sy w h row o = k.blitRows sx sy w h row' o := by
  refine List.foldl_ext _ _ _ fun o j hj => ?_
  rw [hrow j (List.mem_range.mp hj)]

/-- What is taken from one state is taken from every other, and draws the same rows. -/
lemma framePixels_taken (ht : k.testMode = false) {hdr : FrameHdr} {inp : List UInt8}
    {s : SbcState} {r : SbcState × List UInt8} (h : k.framePixels z hdr s inp = .ok r)
    (t : SbcState) :
    ∃ rest, k.framePixels z hdr t inp = .ok ({ t with
      out := k.blitRows hdr.x.toNat hdr.y.toNat hdr.w.toNat hdr.h.toNat
        (piece (k.rectRaw z hdr inp) (hdr.w.toNat * k.pixfmt.bytespp)) t.out }, rest) := by
  unfold framePixels at h ⊢
  dsimp only at h ⊢
  unfold rectRaw
  by_cases hraw : hdr.encoding = Encoding.raw.code
  · rw [if_pos hraw] at h ⊢
    rw [if_pos hraw]
    by_cases hlen : hdr.payloadLen.toNat ≠ hdr.w.toNat * hdr.h.toNat * k.pixfmt.bytespp
    · rw [if_pos hlen] at h
      cases h
    rw [if_neg hlen] at h ⊢
    set c := hdr.w.toNat * k.pixfmt.bytespp with hc
    have hall := rawRows_length h
    rw [← hc] at hall
    have htake : (inp.take (hdr.h.toNat * c)).length = hdr.h.toNat * c := by
      rw [List.length_take]
      omega
    have heq := rawRows_eq (k := k) hdr.x.toNat hdr.y.toNat hdr.w.toNat 0 t
      (inp.drop (hdr.h.toNat * c)) htake
    rw [List.take_append_drop] at heq
    simp only [Nat.zero_add] at heq
    rw [foldl_emitRow ht, ← hc, blitRows_congr fun j hj => piece_take hj] at heq
    exact ⟨_, heq⟩
  · rw [if_neg hraw] at h ⊢
    rw [if_neg hraw]
    by_cases hlz4 : hdr.encoding = Encoding.lz4.code ∧ k.noLz4 = false
    · rw [if_pos hlz4] at h ⊢
      split at h
      · cases h
      rename_i hfits
      rw [if_neg hfits]
      cases hread : readn hdr.payloadLen.toNat inp with
      | none => simp [hread] at h
      | some q =>
          obtain ⟨-, rfl⟩ := readn_eq_some.mp hread
          rw [hread] at h
          dsimp only at h ⊢
          cases hdec : z.decompressSafe (inp.take hdr.payloadLen.toNat)
              (intOfSize (hdr.w.toNat * hdr.h.toNat * k.pixfmt.bytespp)) with
          | none => simp [hdec] at h
          | some raw =>
              rw [hdec] at h
              dsimp only at h ⊢
              split at h
              · cases h
              rename_i hlen
              rw [if_neg hlen]
              simp only [Nat.mul_assoc]
              rw [foldl_emitRow ht]
              exact ⟨_, rfl⟩
    · rw [if_neg hlz4] at h
      cases h

lemma framePixels_state (ht : k.testMode = false) {hdr : FrameHdr} {inp : List UInt8}
    {s : SbcState} {r : SbcState × List UInt8} (h : k.framePixels z hdr s inp = .ok r) :
    r.1 = { s with
      out := k.blitRows hdr.x.toNat hdr.y.toNat hdr.w.toNat hdr.h.toNat
        (piece (k.rectRaw z hdr inp) (hdr.w.toNat * k.pixfmt.bytespp)) s.out } := by
  obtain ⟨rest, heq⟩ := framePixels_taken ht h s
  exact congrArg Prod.fst (Except.ok.inj (h.symm.trans heq))

/-- **One form for all batches.** -/
theorem draw_out (ht : k.testMode = false) {b : Batch} (hb : b.Taken k z) (s : SbcState) :
    (k.draw z disp s b).out =
      ((s.out.beginBatch (b.full k)).patch (b.copies k z)).present disp.flip := by
  have hblank : ∀ s : SbcState, (s.setBlank k.toSbc disp false).out = s.out := by
    intro s
    unfold SbcState.setBlank
    split_ifs
    · rfl
    · rfl
    · cases s.out <;> simp [Output.blank]
  cases b with
  | rect hdr inp =>
      obtain ⟨disp', s', r, hr⟩ := hb
      unfold draw frameRect at *
      dsimp only at hr ⊢
      split at hr
      · cases hr
      rename_i hin
      rw [if_neg hin]
      split at hr
      · cases hr
      rename_i q hpix
      obtain ⟨rest, heq⟩ := framePixels_taken ht hpix
        (s.outBegin k.toSbc (Batch.full k (.rect hdr inp)))
      unfold Batch.full at heq
      simp only [heq]
      rw [hblank]
      simp [SbcState.outPresent, SbcState.outBegin, ht, blitRows_eq, Batch.full, Batch.copies]
  | picture f rowbuf =>
      unfold draw frameToFb
      dsimp only
      rw [hblank]
      simp only [SbcState.outPresent, SbcState.outBegin, ht, Bool.false_eq_true, if_false,
        Batch.full, Batch.copies]
      split_ifs
      · rw [blitRows_eq]
      · rw [Output.patch_nil]

end SbcStream

end Sremfb
