import Sremfb.Client.Frames

/-!
# Two buffers behave like one (`output_drm.c`)

DRM shows one of two buffers.  Seen from outside it should be one: after every batch the panel
shows what writing all batches in place would give, which is what the framebuffer backend shows.
`output.h` promises it ("the back buffer only ever receives full frames, so no stale-region
reconciliation is needed"), and so does the remark in `frame_to_fb` that decoded frames cover the
whole stream.

Neither is checked.  A decoded picture can be smaller than the stream, and there may be no memory
to convert it, yet it is flipped to; and a full batch that the driver refuses to show stays behind
in the back buffer.  `Drm.Shows` is the condition on one batch, `page_flip_refines_iff` says that
it is exact along every run, and `shows_of_whole` that rectangles, and pictures of the stream's
size, meet it on a driver that shows what it is given.
-/

namespace Sremfb

open Lib

/-! ## Exactly when a batch is as good as one in place -/

/-- The condition on a batch, in the state before it.  A batch in the back buffer that the driver
brings to the panel shows what is there besides it; one that the driver refuses is not shown. -/
def Drm.Shows (d : Drm) (full : Bool) (ws : List (ℕ × List UInt8)) (r : Flip) : Prop :=
  full = true → d.noFlip = false →
    if r = .refused then Lib.patch (d.buf d.front) ws = d.buf d.front
    else ∀ i, ¬Covers ws i → d.buf (!d.front) i = d.buf d.front i

/-- **One batch.** -/
theorem Drm.shows_iff (d : Drm) (full : Bool) (ws : List (ℕ × List UInt8)) (r : Flip) :
    ((((Output.drm d).beginBatch full).patch ws).present r).visible =
      Lib.patch (d.buf d.front) ws ↔ d.Shows full ws r := by
  unfold Drm.Shows
  by_cases hback : full = true ∧ d.noFlip = false
  · obtain ⟨rfl, hflip⟩ := hback
    cases r with
    | refused =>
        simp [Output.beginBatch, Output.patch, Output.present, Output.visible, hflip, eq_comm]
    | landed | eventLost | modeset =>
        simp [Output.beginBatch, Output.patch, Output.present, Output.visible, hflip,
          patch_eq_patch_iff]
  · have hplace : (full && !d.noFlip) = false := by
      cases full <;> cases hn : d.noFlip <;> simp_all
    refine iff_of_true ?_ fun h h' => absurd ⟨h, h'⟩ hback
    simp [Output.beginBatch, Output.patch, Output.present, Output.visible, hplace]

/-! ## Runs -/

/-- Showing a buffer writes to none. -/
lemma Output.present_drm (d : Drm) (r : Flip) :
    ∃ d', (Output.drm d).present r = .drm d' ∧ d'.buf = d.buf ∧ d'.dpmsProp = d.dpmsProp := by
  simp only [present]
  split_ifs
  · exact ⟨_, rfl, rfl, rfl⟩
  · cases r <;> exact ⟨_, rfl, rfl, rfl⟩

/-- The condition as a predicate on outputs: one buffer needs none. -/
def Output.Shows (full : Bool) (ws : List (ℕ × List UInt8)) (r : Flip) : Output → Prop
  | .fb _ => True
  | .drm d => d.Shows full ws r

namespace SbcStream

/-- A batch and what the display answers to it. -/
def drawStep (k : SbcStream) (z : Lz4) (s : SbcState) (e : Batch × Display) : SbcState :=
  k.draw z e.2 s e.1

/-- The batch, in the state before it, is shown whole and with nothing else. -/
def Shows (k : SbcStream) (z : Lz4) (s : SbcState) (e : Batch × Display) : Prop :=
  s.out.Shows (e.1.full k) (e.1.copies k z) e.2.flip

/-- The same client on two outputs. -/
def drawBoth (k : SbcStream) (z : Lz4) (p : SbcState × SbcState) (e : Batch × Display) :
    SbcState × SbcState :=
  (k.drawStep z p.1 e, k.drawStep z p.2 e)

variable {k : SbcStream} {z : Lz4}

lemma draw_fb (ht : k.testMode = false) {b : Batch} (hb : b.Taken k z) {disp : Display}
    {s : SbcState} {mem : Buf} (hs : s.out = .fb mem) :
    (k.draw z disp s b).out = .fb (Lib.patch mem (b.copies k z)) := by
  rw [draw_out ht hb, hs]
  rfl

lemma draw_drm (ht : k.testMode = false) {b : Batch} (hb : b.Taken k z) {disp : Display}
    {s : SbcState} {d : Drm} (hs : s.out = .drm d) :
    ∃ d', (k.draw z disp s b).out = .drm d' ∧
      ∀ j i, ¬Covers (b.copies k z) i → d'.buf j i = d.buf j i := by
  rw [draw_out ht hb, hs]
  obtain ⟨d', hd', hbuf, -⟩ := Output.present_drm _ disp.flip
  refine ⟨d', hd', fun j i hi => ?_⟩
  rw [hbuf]
  dsimp only
  generalize (if b.full k && !d.noFlip then !d.front else d.front) = target
  by_cases hj : j = target
  · rw [hj, Function.update_self, patch_of_not_covers hi]
  · rw [Function.update_of_ne hj]

/-- **Page flipping refines one buffer**, exactly when every batch is shown whole. -/
theorem page_flip_refines_iff (k : SbcStream) (z : Lz4) (ht : k.testMode = false) (s : SbcState)
    (d : Drm) (hs : s.out = .drm d) (es : List (Batch × Display))
    (htaken : ∀ e ∈ es, e.1.Taken k z) :
    (∀ n, (run (k.drawStep z) s (es.take n)).out.visible =
        (run (k.drawStep z) { s with out := .fb (d.buf d.front) } (es.take n)).out.visible) ↔
      Along (k.Shows z) (k.drawStep z) s es := by
  set u : SbcState := { s with out := .fb (d.buf d.front) } with hu
  have hboth : (∀ n, (run (k.drawBoth z) (s, u) (es.take n)).1.out.visible =
      (run (k.drawBoth z) (s, u) (es.take n)).2.out.visible) ↔
      Along (fun p e => k.Shows z p.1 e) (k.drawBoth z) (s, u) es := by
    refine forall_run_iff_along
      (J := fun p : SbcState × SbcState => (∃ d, p.1.out = .drm d) ∧ ∃ mem, p.2.out = .fb mem)
      (P := fun p : SbcState × SbcState => p.1.out.visible = p.2.out.visible)
      (fun p e he hp => ?_) (fun p e he hp heq => ?_) ⟨⟨d, hs⟩, ⟨_, rfl⟩⟩ ?_ htaken
    · obtain ⟨⟨d, hd⟩, mem, hmem⟩ := hp
      obtain ⟨d', hd', -⟩ := draw_drm ht he hd
      exact ⟨⟨d', hd'⟩, _, draw_fb ht he hmem⟩
    · obtain ⟨⟨d', hd⟩, mem, hmem⟩ := hp
      dsimp only [drawBoth, drawStep, Shows] at heq ⊢
      rw [hd, hmem] at heq
      rw [draw_fb ht he hmem, draw_out ht he, hd]
      have hmem' : mem = d'.buf d'.front := heq.symm
      rw [hmem']
      exact d'.shows_iff ..
    · rw [hs]
      rfl
  unfold drawBoth at hboth
  simp only [run_prod] at hboth
  exact hboth.trans (along_prod (k.drawStep z) u)

/-- A stream of two pixels on a panel of the same size. -/
def tiny : SbcStream := { Sbc.tiny with streamW := 2, streamH := 1, offX := 0, offY := 0 }

/-- A rectangle that paints all of it blue. -/
def Batch.blue : Batch :=
  .rect { encoding := Encoding.raw.code, w := 2, h := 1, payloadLen := 8 }
    [255, 0, 0, 0, 255, 0, 0, 0]

/-- A decoded picture of one white pixel. -/
def Batch.white : Batch := .picture ⟨fun i => if i = 0 then 235 else 128, .nv12, 1, 1, 1, 1⟩ true

/-- A black panel with two buffers. -/
def blackDrm : SbcState := { out := .drm { buf := fun _ _ => 0 } }

lemma blue_taken : Batch.blue.Taken tiny Lz4.literal := ⟨{}, blackDrm, _, rfl⟩

/-- The blue frame is shown by a flip; the smaller picture then flips to the other buffer, where
the pixel besides it is still black. -/
theorem stale_pixel_of_small_picture :
    ¬∀ n, (run (tiny.drawStep Lz4.literal) blackDrm
        ([(Batch.blue, {}), (Batch.white, {})].take n)).out.visible =
      (run (tiny.drawStep Lz4.literal) { blackDrm with out := .fb fun _ => 0 }
        ([(Batch.blue, {}), (Batch.white, {})].take n)).out.visible := by
  intro h
  exact absurd (congrFun (h 2) 4) (by decide +kernel)

/-- One blue frame, flipped. -/
theorem page_flip_refines_blue :
    (run (tiny.drawStep Lz4.literal) blackDrm [(Batch.blue, {})]).out.visible =
        (run (tiny.drawStep Lz4.literal) { blackDrm with out := .fb fun _ => 0 }
          [(Batch.blue, {})]).out.visible ∧
      (run (tiny.drawStep Lz4.literal) blackDrm [(Batch.blue, {})]).out.visible 0 = 255 := by
  refine ⟨(page_flip_refines_iff tiny Lz4.literal rfl blackDrm _ rfl [(Batch.blue, {})] ?_).mpr
    ⟨?_, trivial⟩ 1, by decide +kernel⟩
  · intro e he
    rw [List.mem_singleton.mp he]
    exact blue_taken
  · intro _ _
    rw [if_neg (by decide)]
    exact fun i _ => rfl

/-! ## Batches that cover the stream -/

/-- Byte `i` of a panel buffer belongs to the stream's pixel at `(x, y)`. -/
def InPixel (k : SbcStream) (x y i : ℕ) : Prop :=
  k.OnPanel x y ∧
    ((y : ℤ) + k.offY).toNat * k.panel.stride +
      ((x : ℤ) + k.offX).toNat * k.panel.pixfmt.bytespp ≤ i ∧
    i < ((y : ℤ) + k.offY).toNat * k.panel.stride +
      ((x : ℤ) + k.offX).toNat * k.panel.pixfmt.bytespp + k.panel.pixfmt.bytespp

/-- What a row covers. -/
lemma covers_copies {sx sy w i : ℕ} {row : List UInt8}
    (hrow : w * k.panel.pixfmt.bytespp ≤ row.length) :
    Covers (k.copies sx sy w row) i ↔ ∃ x, sx ≤ x ∧ x < sx + w ∧ k.InPixel x sy i := by
  unfold copies InPixel OnPanel
  dsimp only
  have hpos : 0 < k.panel.pixfmt.bytespp := by
    cases k.panel.pixfmt <;> decide
  set bpp := k.panel.pixfmt.bytespp with hbpp
  set skip := (-((sx : ℤ) + k.offX)).toNat with hskip
  set dx := ((sx : ℤ) + k.offX).toNat with hdx
  set base := ((sy : ℤ) + k.offY).toNat * k.panel.stride with hbase
  split_ifs with hoff
  · constructor
    · rintro ⟨c, hc, -⟩
      exact absurd hc List.not_mem_nil
    · rintro ⟨x, hle, hlt, ⟨hx0, hxw, hy0, hyh⟩, -⟩
      omega
  set n := min (w - skip) (k.panel.w - dx) with hn
  have hlen : ((row.drop (skip * bpp)).take (n * bpp)).length = n * bpp := by
    have hle : n * bpp ≤ (w - skip) * bpp := Nat.mul_le_mul_right bpp (min_le_left _ _)
    rw [Nat.sub_mul] at hle
    rw [List.length_take, List.length_drop]
    omega
  constructor
  · rintro ⟨c, hc, hle, hlt⟩
    obtain rfl := List.mem_singleton.mp hc
    dsimp only at hle hlt
    rw [hlen] at hlt
    -- the pixel the byte lies in
    obtain ⟨q, r, hr, hi⟩ : ∃ q r, r < bpp ∧ i = base + dx * bpp + (q * bpp + r) := by
      refine ⟨(i - (base + dx * bpp)) / bpp, (i - (base + dx * bpp)) % bpp, Nat.mod_lt _ hpos, ?_⟩
      rw [Nat.div_add_mod']
      omega
    have hq : q < n := by
      by_contra hge
      have hmul : n * bpp ≤ q * bpp := Nat.mul_le_mul_right bpp (not_lt.mp hge)
      omega
    have hcol : ((sx + skip + q : ℕ) : ℤ) + k.offX = ((dx + q : ℕ) : ℤ) := by
      omega
    refine ⟨sx + skip + q, by omega, by omega, ⟨by omega, by omega, by omega, by omega⟩, ?_⟩
    rw [hcol, Int.toNat_natCast, Nat.add_mul]
    omega
  · rintro ⟨x, hle, hlt, ⟨hx0, hxw, hy0, hyh⟩, hi0, hi1⟩
    refine ⟨_, List.mem_singleton.mpr rfl, ?_⟩
    dsimp only
    rw [hlen]
    have hcol : ((x : ℤ) + k.offX).toNat = dx + (x - sx - skip) := by omega
    rw [hcol, Nat.add_mul] at hi0 hi1
    have hroom : (x - sx - skip + 1) * bpp ≤ n * bpp := Nat.mul_le_mul_right bpp (by omega)
    rw [Nat.succ_mul] at hroom
    omega

lemma covers_rowCopies {x y w h i : ℕ} {r : ℕ → List UInt8}
    (hrow : ∀ j < h, w * k.panel.pixfmt.bytespp ≤ (r j).length) :
    Covers (k.rowCopies x y w h r) i ↔
      ∃ px py, x ≤ px ∧ px < x + w ∧ y ≤ py ∧ py < y + h ∧ k.InPixel px py i := by
  have hflat : Covers (k.rowCopies x y w h r) i ↔
      ∃ j < h, Covers (k.copies x (y + j) w (r j)) i := by
    simp only [Covers, rowCopies, List.mem_flatMap, List.mem_range]
    constructor
    · rintro ⟨c, ⟨j, hj, hc⟩, hi⟩
      exact ⟨j, hj, c, hc, hi⟩
    · rintro ⟨j, hj, c, hc, hi⟩
      exact ⟨c, ⟨j, hj, hc⟩, hi⟩
  rw [hflat]
  constructor
  · rintro ⟨j, hj, hcov⟩
    obtain ⟨px, hx, hxw, hin⟩ := (covers_copies (hrow j hj)).mp hcov
    exact ⟨px, y + j, hx, hxw, by omega, by omega, hin⟩
  · rintro ⟨px, py, hx, hxw, hy, hyh, hin⟩
    obtain ⟨j, rfl⟩ := Nat.exists_eq_add_of_le hy
    exact ⟨j, by omega, (covers_copies (hrow j (by omega))).mpr ⟨px, hx, hxw, hin⟩⟩

/-- A message that is taken carries all its rows. -/
lemma rectRaw_length (hsize : k.streamW * k.streamH * k.pixfmt.bytespp ≤ 0x7E000000)
    {hdr : FrameHdr} {inp : List UInt8} {s : SbcState} {r : SbcState × List UInt8}
    (h : k.framePixels z hdr s inp = .ok r) :
    hdr.h.toNat * (hdr.w.toNat * k.pixfmt.bytespp) ≤ (k.rectRaw z hdr inp).length := by
  unfold framePixels at h
  unfold rectRaw
  dsimp only at h
  by_cases hraw : hdr.encoding = Encoding.raw.code
  · rw [if_pos hraw] at h ⊢
    split at h
    · cases h
    · exact rawRows_length h
  rw [if_neg hraw] at h ⊢
  by_cases hlz4 : hdr.encoding = Encoding.lz4.code ∧ k.noLz4 = false
  swap
  · rw [if_neg hlz4] at h
    cases h
  rw [if_pos hlz4] at h
  set bytes := hdr.w.toNat * hdr.h.toNat * k.pixfmt.bytespp with hbytes
  split at h
  · cases h
  rename_i hfits
  cases hread : readn hdr.payloadLen.toNat inp with
  | none => simp [hread] at h
  | some q =>
      obtain ⟨-, rfl⟩ := readn_eq_some.mp hread
      rw [hread] at h
      dsimp only at h
      cases hdec : z.decompressSafe (inp.take hdr.payloadLen.toNat) (intOfSize bytes) with
      | none => simp [hdec] at h
      | some raw =>
          rw [hdec] at h
          dsimp only at h
          split at h
          · cases h
          rename_i hlen
          have hint : intOfSize bytes = bytes := intOfSize_of_lt (by norm_num; omega)
          rw [hint] at hlen
          have hrows : hdr.h.toNat * (hdr.w.toNat * k.pixfmt.bytespp) = bytes := by
            rw [hbytes]
            ring
          rw [hrows, Option.getD_some]
          omega

@[simp] lemma length_yuvRowToFb (fmt : PixFmt) (yrow urow vrow : Buf) (uvStep w : ℕ) :
    (yuvRowToFb fmt yrow urow vrow uvStep w).length = w * fmt.bytespp := by
  refine length_flatMap_range fun i => ?_
  cases fmt <;> simp [yuvPixel, PixFmt.bytespp]

lemma length_row (f : DecFrame) (fmt : PixFmt) (w y : ℕ) :
    (f.row fmt w y).length = w * fmt.bytespp := by
  unfold DecFrame.row
  dsimp only
  split_ifs with hdirect
  · simp [hdirect.2, PixFmt.bytespp]
  · simp
  · simp

/-- Byte `i` of a panel buffer shows something of the stream. -/
def PanelByte (k : SbcStream) (i : ℕ) : Prop :=
  ∃ x y, x < k.streamW ∧ y < k.streamH ∧ k.InPixel x y i

/-- A decoded picture has the size of the stream, and there is memory to convert it.  Rectangle
messages need no such condition. -/
def Batch.Whole (k : SbcStream) : Batch → Prop
  | .rect _ _ => True
  | .picture f rowbuf => k.streamW ≤ f.w ∧ k.streamH ≤ f.h ∧
      (f.Direct k.panel.pixfmt ∨ rowbuf = true)

section Coverage

variable (ht : k.testMode = false)
  (hsize : k.streamW * k.streamH * k.pixfmt.bytespp ≤ 0x7E000000)
include ht hsize

/-- A batch stays inside the stream, and one that is announced as full covers it. -/
lemma covers_batch {b : Batch} (hb : b.Taken k z) (hwhole : b.Whole k) (i : ℕ) :
    (Covers (b.copies k z) i → k.PanelByte i) ∧
      (b.full k = true → k.PanelByte i → Covers (b.copies k z) i) := by
  have hfmt : k.pixfmt = k.panel.pixfmt := by simp [Sbc.pixfmt, ht]
  cases b with
  | rect hdr inp =>
      obtain ⟨disp, s, r, hr⟩ := hb
      unfold frameRect at hr
      dsimp only at hr
      split at hr
      · cases hr
      rename_i hin
      split at hr
      · cases hr
      rename_i q hpix
      have hroom := rectRaw_length hsize hpix
      have hcov := covers_rowCopies (k := k) (x := hdr.x.toNat) (y := hdr.y.toNat)
        (w := hdr.w.toNat) (h := hdr.h.toNat) (i := i)
        (r := piece (k.rectRaw z hdr inp) (hdr.w.toNat * k.pixfmt.bytespp)) fun j hj => by
          rw [length_piece hroom hj, hfmt]
      simp only [Batch.copies, Batch.full, PanelByte]
      rw [hcov]
      constructor
      · rintro ⟨x, y, hx, hxw, hy, hyh, hpx⟩
        exact ⟨x, y, by omega, by omega, hpx⟩
      · rintro hfull ⟨x, y, hx, hy, hpx⟩
        simp only [Bool.and_eq_true, beq_iff_eq] at hfull
        exact ⟨x, y, by omega, by omega, by omega, by omega, hpx⟩
  | picture f rowbuf =>
      obtain ⟨hw, hh, hdraw⟩ := hwhole
      have hcov := covers_rowCopies (k := k) (x := 0) (y := 0) (w := min f.w k.streamW)
        (h := min f.h k.streamH) (i := i) (r := f.row k.panel.pixfmt (min f.w k.streamW))
        fun j _ => (length_row ..).ge
      simp only [Batch.copies, PanelByte, if_pos hdraw]
      rw [hcov]
      constructor
      · rintro ⟨x, y, hx, hxw, hy, hyh, hpx⟩
        exact ⟨x, y, by omega, by omega, hpx⟩
      · rintro - ⟨x, y, hx, hy, hpx⟩
        exact ⟨x, y, by omega, by omega, by omega, by omega, hpx⟩

/-- **Whole batches on a driver that shows them.**  From buffers that agree outside the stream,
pictures of the stream's size and rectangles of any size meet the condition at every step. -/
theorem shows_of_whole {s : SbcState} {d : Drm} (hs : s.out = .drm d)
    (hmargin : ∀ i, ¬k.PanelByte i → d.buf (!d.front) i = d.buf d.front i)
    {es : List (Batch × Display)}
    (hes : ∀ e ∈ es, e.1.Taken k z ∧ e.1.Whole k ∧ e.2.flip ≠ .refused) :
    Along (k.Shows z) (k.drawStep z) s es := by
  refine along_of_invariant
    (P := fun s : SbcState => ∃ d, s.out = .drm d ∧
      ∀ i, ¬k.PanelByte i → d.buf true i = d.buf false i)
    (fun s e he hd => ?_) (fun s e he hd => ?_) ⟨d, hs, ?_⟩ hes
  · obtain ⟨hb, hwhole, -⟩ := he
    obtain ⟨d, hd, hm⟩ := hd
    obtain ⟨d', hd', hbuf⟩ := draw_drm ht hb hd
    refine ⟨d', hd', fun i hi => ?_⟩
    have hcov : ¬Covers (e.1.copies k z) i := fun hc =>
      hi ((covers_batch ht hsize hb hwhole i).1 hc)
    rw [hbuf _ i hcov, hbuf _ i hcov, hm i hi]
  · obtain ⟨hb, hwhole, hflip⟩ := he
    obtain ⟨d, hd, hm⟩ := hd
    unfold Shows
    rw [hd]
    intro hfull hn
    rw [if_neg hflip]
    intro i hi
    have hpx : ¬k.PanelByte i := fun hpx =>
      hi ((covers_batch ht hsize hb hwhole i).2 hfull hpx)
    cases d.front with
    | false => exact hm i hpx
    | true => exact (hm i hpx).symm
  · intro i hi
    have := hmargin i hi
    cases hf : d.front with
    | false => simpa [hf] using this
    | true => simpa [hf] using this.symm

end Coverage

end SbcStream

end Sremfb
