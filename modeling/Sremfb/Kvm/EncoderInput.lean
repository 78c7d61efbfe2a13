import Sremfb.Kvm.Encoder
import Sremfb.Server.I420

/-!
# From the screen to the hardware encoder (`kvm/encoder_v4l2.c`, `core/convert.c`)

`build_h264_frame` hands the planes of its buffer to `sremfb_enc_encode`, which copies them to the
stride and the plane height of the driver.  The geometry that `sremfb_enc_open` has checked is what
keeps the planes apart, and inside the buffer.
-/

namespace Sremfb

open Lib

namespace EncGeometry

variable (g : EncGeometry)

/-- Where the driver has the sample `i` of a packed plane. -/
def place (g : EncGeometry) (p : Plane) (i : ℕ) : ℕ :=
  match p with
  | .y => i / g.w * g.bpl + i % g.w
  | .u => g.uoff + i / (g.w / 2) * (g.bpl / 2) + i % (g.w / 2)
  | .v => g.voff + i / (g.w / 2) * (g.bpl / 2) + i % (g.w / 2)

/-- The planes lie one behind the other. -/
lemma planes_apart (hsize : g.bpl * g.planeH * 3 < 2 ^ 64) :
    g.h * g.bpl ≤ g.uoff ∧ g.uoff + g.h / 2 * (g.bpl / 2) ≤ g.voff ∧
      g.voff + g.h / 2 * (g.bpl / 2) ≤ g.outSize := by
  obtain ⟨b, hb⟩ : ∃ b, g.bpl = 2 * b := ⟨g.bpl / 2, by have := g.bpl_even; omega⟩
  obtain ⟨k, hk⟩ : ∃ k, g.planeH = 2 * k := ⟨g.planeH / 2, by have := g.planeH_even; omega⟩
  have hheight := g.h_le
  have hfits := g.fits
  have hy : g.h * g.bpl ≤ g.planeH * g.bpl := Nat.mul_le_mul_right _ hheight
  have hc : g.h / 2 * (g.bpl / 2) ≤ k * b := by
    rw [hb, Nat.mul_div_cancel_left b (by decide)]
    exact Nat.mul_le_mul_right b (by omega)
  have hvoff : g.bpl / 2 * (g.planeH / 2) = k * b := by
    rw [hb, hk, Nat.mul_div_cancel_left b (by decide), Nat.mul_div_cancel_left k (by decide),
      Nat.mul_comm]
  have hall : g.bpl * g.planeH = 4 * (k * b) := by
    rw [hb, hk]
    ring
  have hend : g.bpl * g.planeH * 3 / 2 = 6 * (k * b) := by
    rw [hall]
    omega
  rw [Nat.mod_eq_of_lt hsize, hend] at hfits
  refine ⟨?_, ?_, ?_⟩
  · rw [uoff, Nat.mul_comm g.bpl]
    exact hy
  · rw [voff, hvoff]
    omega
  · rw [voff, hvoff, uoff, hall]
    omega

/-- **The frame in the driver's layout.** -/
lemma fill_spec (hsize : g.bpl * g.planeH * 3 < 2 ^ 64) (f : EncFrame) (dst : ℕ → UInt8) :
    (∀ y < g.h, ∀ x < g.w, g.fill f dst (y * g.bpl + x) = f.y (y * g.w + x)) ∧
      (∀ y < g.h / 2, ∀ x < g.w / 2,
        g.fill f dst (g.uoff + y * (g.bpl / 2) + x) = f.u (y * (g.w / 2) + x) ∧
          g.fill f dst (g.voff + y * (g.bpl / 2) + x) = f.v (y * (g.w / 2) + x)) ∧
      ∀ a, g.outSize ≤ a → g.fill f dst a = dst a := by
  obtain ⟨hy, hu, hv⟩ := g.planes_apart hsize
  have hhalf : g.w / 2 ≤ g.bpl / 2 := Nat.div_le_div_right g.w_le
  -- a sample lies in the rows of its plane
  have hrow {y x w h stride : ℕ} (hy : y < h) (hx : x < w) (hw : w ≤ stride) :
      y * stride + x < h * stride := by
    have hroom : (y + 1) * stride ≤ h * stride := Nat.mul_le_mul_right stride hy
    rw [Nat.succ_mul] at hroom
    omega
  obtain ⟨hin₁, hout₁⟩ := copyPlane_spec g.w_le dst 0 f.y g.h
  set d₁ := copyPlane dst 0 g.bpl f.y g.w g.h
  obtain ⟨hin₂, hout₂⟩ := copyPlane_spec hhalf d₁ g.uoff f.u (g.h / 2)
  set d₂ := copyPlane d₁ g.uoff (g.bpl / 2) f.u (g.w / 2) (g.h / 2)
  obtain ⟨hin₃, hout₃⟩ := copyPlane_spec hhalf d₂ g.voff f.v (g.h / 2)
  have hfill : g.fill f dst = copyPlane d₂ g.voff (g.bpl / 2) f.v (g.w / 2) (g.h / 2) := rfl
  rw [hfill]
  refine ⟨fun y hy' x hx => ?_, fun y hy' x hx => ⟨?_, hin₃ y hy' x hx⟩, fun a ha => ?_⟩
  · have hlt := hrow hy' hx g.w_le
    rw [hout₃ _ (.inl (by omega)), hout₂ _ (.inl (by omega))]
    have hsample := hin₁ y hy' x hx
    rwa [Nat.zero_add] at hsample
  · have hlt := hrow hy' hx hhalf
    rw [hout₃ _ (.inl (by omega))]
    exact hin₂ y hy' x hx
  · rw [hout₃ a (.inr (by omega)), hout₂ a (.inr (by omega)), hout₁ a (.inr (by omega))]

end EncGeometry

/-- The planes of the buffer of `build_h264_frame`. -/
def EncFrame.ofBuf (buf : ℕ → UInt8) (w h : ℕ) : EncFrame where
  y i := buf (planeBase w h .y + i)
  u i := buf (planeBase w h .u + i)
  v i := buf (planeBase w h .v + i)

namespace Encoder

variable {e e' : Encoder} {forceIdr : Bool} {o : EncWorld}

/-- A sample that is written belongs to its plane. -/
lemma write_lt {bgrx : ℕ → UInt32} {w h i : ℕ} {p : Plane} {val : ℤ} (hw : w % 2 = 0)
    (hh : h % 2 = 0) (hw' : w < 2 ^ 32) (hh' : h < 2 ^ 32)
    (hwrite : I420Access.write p i val ∈ convertBgrxToI420 bgrx w h) :
    i < if p = .y then h * w else h / 2 * (w / 2) := by
  have hhalf {n : ℕ} (hn : n % 2 = 0) (hn' : n < 2 ^ 32) : halfUp n = n / 2 := by
    unfold halfUp
    omega
  rw [← mem_writesTo] at hwrite
  by_cases hp : p = .y
  · rw [if_pos hp]
    rw [hp, writesTo_y, List.mem_map] at hwrite
    obtain ⟨n, hn, heq⟩ := hwrite
    obtain ⟨rfl, -⟩ := Prod.mk.inj heq
    exact List.mem_range.mp hn
  · rw [if_neg hp]
    rw [writesTo_of_ne hp, List.mem_map] at hwrite
    obtain ⟨n, hn, heq⟩ := hwrite
    obtain ⟨rfl, -⟩ := Prod.mk.inj heq
    have hn := List.mem_range.mp hn
    rwa [hhalf hw hw', hhalf hh hh'] at hn

/-- **From the screen to the driver.**  When a frame is queued, a buffer that the driver did not have
holds every sample that the conversion computed, at the driver's place for it; no other buffer
changed, and nothing was written behind `sizeimage`. -/
theorem screen_to_driver (bgrx : ℕ → UInt32) (buf : ℕ → UInt8)
    (hsize : e.geo.bpl * e.geo.planeH * 3 < 2 ^ 64)
    (h : e.prepare (.ofBuf (yuvBuf bgrx e.geo.w e.geo.h buf) e.geo.w e.geo.h) forceIdr o =
      .ok e') :
    ∃ bi < e.nOut, (e.outQueued bi = false ∨ bi ∈ o.reclaimed) ∧ e'.outQueued bi = true ∧
      (∀ i, i ≠ bi → e'.outMem i = e.outMem i) ∧
      (∀ p i val, I420Access.write p i val ∈ convertBgrxToI420 bgrx e.geo.w e.geo.h →
        ((e'.outMem bi (e.geo.place p i)).toNat : ℤ) = val) ∧
      ∀ a, e.geo.outSize ≤ a → e'.outMem bi a = e.outMem bi a := by
  obtain ⟨held, queued, lost, hback⟩ := returnHeld_same e o.requeues
  obtain ⟨q, hq⟩ := reclaimOut_same o.reclaimed (e.returnHeld o.requeues)
  unfold prepare at h
  split at h
  · cases h
  have hfree' {i : ℕ} := @free_of_reclaimOut (e.returnHeld o.requeues) o.reclaimed i
  rw [hq] at h hfree'
  rw [hback] at h hfree'
  obtain ⟨bi, hbi, hfree, rfl⟩ := queueFrame_ok h
  obtain ⟨hy, hc, hrest⟩ := e.geo.fill_spec hsize
    (.ofBuf (yuvBuf bgrx e.geo.w e.geo.h buf) e.geo.w e.geo.h) (e.outMem bi)
  refine ⟨bi, hbi, hfree' hfree, Function.update_self .., fun i hi => Function.update_of_ne hi ..,
    fun p i val hwrite => ?_, fun a ha => ?_⟩
  · have hlt := write_lt e.geo.w_even e.geo.h_even (e.geo.w_le.trans_lt e.geo.bpl_lt)
      (e.geo.h_le.trans_lt e.geo.planeH_lt) hwrite
    have hval := (yuvBuf_holds bgrx e.geo.w e.geo.h buf).1 p i val hwrite
    have hplace : e.geo.fill (.ofBuf (yuvBuf bgrx e.geo.w e.geo.h buf) e.geo.w e.geo.h)
        (e.outMem bi) (e.geo.place p i) =
          yuvBuf bgrx e.geo.w e.geo.h buf (planeBase e.geo.w e.geo.h p + i) := by
      -- the row and the column of the sample
      have hsplit {m n : ℕ} (hi : i < n * m) : i / m < n ∧ i % m < m ∧ i / m * m + i % m = i := by
        have hm : 0 < m := Nat.pos_of_ne_zero (by rintro rfl; simp at hi)
        exact ⟨Nat.div_lt_of_lt_mul (by rwa [Nat.mul_comm]), Nat.mod_lt i hm, Nat.div_add_mod' i m⟩
      cases p with
      | y =>
          obtain ⟨hrow, hcol, hsum⟩ := hsplit hlt
          have hsample := hy _ hrow _ hcol
          rwa [hsum] at hsample
      | u =>
          obtain ⟨hrow, hcol, hsum⟩ := hsplit hlt
          have hsample := (hc _ hrow _ hcol).1
          rwa [hsum] at hsample
      | v =>
          obtain ⟨hrow, hcol, hsum⟩ := hsplit hlt
          have hsample := (hc _ hrow _ hcol).2
          rwa [hsum] at hsample
    dsimp only
    rw [Function.update_self, hplace, hval]
  · dsimp only
    rw [Function.update_self]
    exact hrest a ha

/-- A blue screen of two by two pixels: the only sample of the second plane is behind sixteen rows
of 64 bytes. -/
theorem screen_to_driver_blue :
    let d : EncSetup := { capW := 2, capH := 2, outW := 2, bpl := 64, planeH := 16, outSize := 1536
                          nCap := 1, nOut := 2, capLen := fun _ => 8, outLen := fun _ => 4096 }
    ∃ e e', encOpen 2 2 8000 d = some e ∧
      e.prepare (.ofBuf (yuvBuf (fun _ => 0xFF) e.geo.w e.geo.h fun _ => 0) e.geo.w e.geo.h) false
        { rounds := [] } = .ok e' ∧
      ∃ bi < e.nOut, e'.outQueued bi = true ∧ ((e'.outMem bi 1024).toNat : ℤ) = 240 := by
  intro d
  set e := (encOpen 2 2 8000 d).get (by decide +kernel) with he
  have hopen : encOpen 2 2 8000 d = some e := (Option.some_get _).symm
  obtain ⟨e', hprep⟩ : ∃ e', e.prepare (.ofBuf (yuvBuf (fun _ => 0xFF) e.geo.w e.geo.h fun _ => 0)
      e.geo.w e.geo.h) false { rounds := [] } = .ok e' := by
    have hok : (e.prepare (.ofBuf (yuvBuf (fun _ => 0xFF) e.geo.w e.geo.h fun _ => 0) e.geo.w
        e.geo.h) false { rounds := [] }).toBool = true := by
      rw [he]
      decide +kernel
    revert hok
    cases e.prepare (.ofBuf (yuvBuf (fun _ => 0xFF) e.geo.w e.geo.h fun _ => 0) e.geo.w e.geo.h)
        false { rounds := [] } with
    | error _ => exact fun hok => absurd hok Bool.false_ne_true
    | ok e' => exact fun _ => ⟨e', rfl⟩
  refine ⟨e, e', hopen, hprep, ?_⟩
  obtain ⟨bi, hbi, -, hqueued, -, hplace, -⟩ :=
    screen_to_driver (fun _ => 0xFF) (fun _ => 0) (by rw [he]; decide +kernel) hprep
  have hwrite : I420Access.write .u 0 240 ∈ convertBgrxToI420 (fun _ => 0xFF) e.geo.w e.geo.h := by
    rw [he]
    decide +kernel
  have hat : e.geo.place .u 0 = 1024 := by
    rw [he]
    decide +kernel
  exact ⟨bi, hbi, hqueued, hat ▸ hplace .u 0 240 hwrite⟩

end Encoder

end Sremfb
