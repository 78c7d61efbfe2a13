import Sremfb.Kvm.Hid
import Sremfb.Kvm.Letterbox
import Sremfb.Lib.Doubles

/-!
# Pointing at the letterbox (`input_hid.c`)

A position in the stream is sent to the target as a place on its screen, from 0 to 32767 on each
axis.  `sremfb_kvm_abs_map` turns the letterbox around and takes the centre of the source pixel; the
target reads the pixel `h * size / 32768` back (`KvmFit.decode`).

What it should read is the pixel that is shown there, and for the bars and beyond the edge of the
source (`PointsAt`).  The first half always holds, since sources have at most 16384 pixels on an axis
and the grid has two steps for each (`Lib.centre_mul_ediv`).  The second half is decided by clamping
the source pixel; a scaled size that is rounded down can leave the last source pixel out of the useful
rectangle and more, and then the bar next to it does not lead to the edge.  `pointsAt_iff` is the
exact condition.
-/

namespace Sremfb

open Lib

/-- One axis of `sremfb_kvm_abs_map`, with `p` the source pixel before it is clamped. -/
def absPlace (size p : ℤ) : ℤ :=
  let p := max 0 (min p (size - 1))
  max 0 (min (((p : ℚ) + 1 / 2) * 32768 / size).floor hidAbsMax)

/-- `sremfb_kvm_abs_map`. -/
def kvmAbsMap (f : KvmFit) (x y : ℤ) : ℤ × ℤ :=
  let s := if 0 < f.s then f.s else 1
  if f.srcW ≤ 0 ∨ f.srcH ≤ 0 then
    (absPlace (if 0 < f.dstW then f.dstW else 1) x, absPlace (if 0 < f.dstH then f.dstH else 1) y)
  else
    (absPlace f.srcW (((x - f.ox : ℤ) : ℚ) / s).floor, absPlace f.srcH (((y - f.oy : ℤ) : ℚ) / s).floor)

/-- A source of 1024 by 768 on 1600 by 900: the top left corner, and a place in the left bar. -/
example : kvmAbsMap (kvmFit 1024 768 1600 900) 200 0 = (16, 21) ∧
    (kvmAbsMap (kvmFit 1024 768 1600 900) 0 450).1 = 16 := by decide +kernel

/-- The pixel of the source that the target reads from a position. -/
def KvmFit.decode (f : KvmFit) (h : ℤ × ℤ) : ℤ × ℤ := (h.1 * f.srcW / 32768, h.2 * f.srcH / 32768)

/-- The pixel that is shown at a place, or the pixel at the edge of the source. -/
def KvmFit.shows (f : KvmFit) (x y : ℤ) : ℤ × ℤ := (f.xAxis.ends x, f.yAxis.ends y)

/-- `HID_ABS_MAX` bounds every place. -/
lemma absPlace_range (size p : ℤ) : 0 ≤ absPlace size p ∧ absPlace size p ≤ hidAbsMax := by
  have hmax : (0 : ℤ) ≤ hidAbsMax := by decide
  rw [absPlace]
  omega

/-- **The place of a source pixel** is its centre. -/
lemma absPlace_eq {size : ℤ} (hsize : 0 < size) (p : ℤ) :
    absPlace size p = centre 16384 size (max 0 (min p (size - 1))) := by
  set q := max 0 (min p (size - 1)) with hq
  have hbounds := centre_bounds (m := 16384) (n := size) (p := q) (by omega) (by decide)
  have hfloor : (((q : ℚ) + 1 / 2) * 32768 / size).floor = centre 16384 size q := by
    have hscale : ((q : ℚ) + 1 / 2) * 32768 / size = (((2 * q + 1) * 16384 : ℤ) : ℚ) / size := by
      push_cast
      ring
    rw [hscale]
    exact Doubles.floor_div hsize
  rw [absPlace, ← hq, hfloor, hidAbsMax]
  omega

/-- **The target reads back** the source pixel that the position was clamped to. -/
lemma absPlace_decode {size : ℤ} (hsize : 0 < size) (hsmall : size ≤ 16384) (p : ℤ) :
    absPlace size p * size / 32768 = max 0 (min p (size - 1)) := by
  rw [absPlace_eq hsize]
  exact centre_mul_ediv (by omega) hsmall

/-- With a source, both axes are scaled. -/
lemma kvmAbsMap_letterbox {fit : KvmFit} (hfit : fit.Letterbox) (x y : ℤ) :
    kvmAbsMap fit x y =
      (absPlace fit.srcW (fit.xAxis.near x), absPlace fit.srcH (fit.yAxis.near y)) := by
  have hw : 0 < fit.srcW := hfit.x.size_pos
  have hh : 0 < fit.srcH := hfit.y.size_pos
  have hs : 0 < fit.s := hfit.x.s_pos
  have hx : (((x - fit.ox : ℤ) : ℚ) / fit.s).floor = fit.xAxis.near x := by
    rw [Int.cast_sub]
    rfl
  have hy : (((y - fit.oy : ℤ) : ℚ) / fit.s).floor = fit.yAxis.near y := by
    rw [Int.cast_sub]
    rfl
  rw [kvmAbsMap, if_pos hs, if_neg (by omega), hx, hy]

/-- **The pointer hits what is shown**: a position is read back as the pixel that is shown there,
whatever the source shows, and elsewhere as the pixel at the edge. -/
def KvmState.PointsAt (st : KvmState) (fit : KvmFit) : Prop :=
  ∀ x y, (0 ≤ (kvmAbsMap fit x y).1 ∧ (kvmAbsMap fit x y).1 ≤ 32767) ∧
    (0 ≤ (kvmAbsMap fit x y).2 ∧ (kvmAbsMap fit x y).2 ≤ 32767) ∧
    (fit.Useful x y → ∀ master grab, st.repaintPicture master fit grab x y =
      master (fit.decode (kvmAbsMap fit x y)).1 (fit.decode (kvmAbsMap fit x y)).2) ∧
    (¬fit.Useful x y → fit.decode (kvmAbsMap fit x y) = fit.shows x y)

/-- The useful extent of an axis reaches its last source pixel. -/
def ExtentReaches (s : ℚ) (size : ℤ) : Prop :=
  ((size - 1 : ℤ) : ℚ) * s ≤ ⌊(size : ℚ) * s + 1 / 2⌋

/-- An axis that is not shown at less than half its size loses less than a source pixel. -/
lemma extentReaches_of_half_le {s : ℚ} (hs : 1 / 2 ≤ s) (size : ℤ) : ExtentReaches s size := by
  have hlt := Int.lt_floor_add_one ((size : ℚ) * s + 1 / 2)
  rw [ExtentReaches]
  push_cast
  linarith

section points

variable {st : KvmState} {fit : KvmFit}

lemma decode_kvmAbsMap (hfit : fit.Letterbox) (hw : fit.srcW ≤ 16384) (hh : fit.srcH ≤ 16384)
    (x y : ℤ) : fit.decode (kvmAbsMap fit x y) =
      (max 0 (min (fit.xAxis.near x) (fit.srcW - 1)),
        max 0 (min (fit.yAxis.near y) (fit.srcH - 1))) := by
  rw [kvmAbsMap_letterbox hfit]
  exact Prod.ext (absPlace_decode hfit.x.size_pos hw _) (absPlace_decode hfit.y.size_pos hh _)

/-- A useful pixel is read back as what is shown. -/
lemma shown_decode (hfit : fit.Letterbox) (hsw : fit.srcW = st.fmt.srcW)
    (hsh : fit.srcH = st.fmt.srcH) (hw : fit.srcW ≤ 16384) (hh : fit.srcH ≤ 16384) {x y : ℤ}
    (huse : fit.Useful x y) (master grab : Frame) :
    st.repaintPicture master fit grab x y =
      master (fit.decode (kvmAbsMap fit x y)).1 (fit.decode (kvmAbsMap fit x y)).2 := by
  have hx : 0 ≤ fit.xAxis.near x ∧ fit.xAxis.near x < fit.srcW := hfit.x.near_bounds huse.1
  have hy : 0 ≤ fit.yAxis.near y ∧ fit.yAxis.near y < fit.srcH := hfit.y.near_bounds huse.2
  rw [KvmState.repaintPicture_apply hfit hsw hsh, if_pos huse, decode_kvmAbsMap hfit hw hh]
  congr 1 <;> omega

/-- The bars lead to the edges exactly when the extents reach them. -/
lemma ends_decode_iff (hfit : fit.Letterbox) (hw : fit.srcW ≤ 16384) (hh : fit.srcH ≤ 16384) :
    (∀ x y, ¬fit.Useful x y → fit.decode (kvmAbsMap fit x y) = fit.shows x y) ↔
      ExtentReaches fit.s fit.srcW ∧ ExtentReaches fit.s fit.srcH := by
  have hx := hfit.x.clamp_near_iff
  have hy := hfit.y.clamp_near_iff
  rw [hfit.x.extent_eq] at hx
  rw [hfit.y.extent_eq] at hy
  have hall : (∀ x y, ¬fit.Useful x y → fit.decode (kvmAbsMap fit x y) = fit.shows x y) ↔
      (∀ x, max 0 (min (fit.xAxis.near x) (fit.xAxis.size - 1)) = fit.xAxis.ends x) ∧
        ∀ y, max 0 (min (fit.yAxis.near y) (fit.yAxis.size - 1)) = fit.yAxis.ends y := by
    constructor
    · intro h
      -- beside the picture nothing is useful
      refine ⟨fun x => ?_, fun y => ?_⟩
      · have hoff : ¬fit.Useful x (fit.oy - 1) := fun huse => by
          have hle : fit.oy ≤ fit.oy - 1 := huse.2.1
          omega
        have heq := h x _ hoff
        rw [decode_kvmAbsMap hfit hw hh] at heq
        exact congrArg Prod.fst heq
      · have hoff : ¬fit.Useful (fit.ox - 1) y := fun huse => by
          have hle : fit.ox ≤ fit.ox - 1 := huse.1.1
          omega
        have heq := h _ y hoff
        rw [decode_kvmAbsMap hfit hw hh] at heq
        exact congrArg Prod.snd heq
    · rintro ⟨h, h'⟩ x y -
      rw [decode_kvmAbsMap hfit hw hh]
      exact Prod.ext (h x) (h' y)
  rw [hall, hx, hy]
  rfl

lemma ends_kvmFit_iff {dw dh : ℤ} (hw : 0 < st.fmt.srcW ∧ st.fmt.srcW ≤ 16384)
    (hh : 0 < st.fmt.srcH ∧ st.fmt.srcH ≤ 16384) (hdw : 0 < dw) (hdh : 0 < dh) :
    (∀ x y, ¬(kvmFit st.fmt.srcW st.fmt.srcH dw dh).Useful x y →
      (kvmFit st.fmt.srcW st.fmt.srcH dw dh).decode
          (kvmAbsMap (kvmFit st.fmt.srcW st.fmt.srcH dw dh) x y) =
        (kvmFit st.fmt.srcW st.fmt.srcH dw dh).shows x y) ↔
      ExtentReaches (kvmScale st.fmt.srcW st.fmt.srcH dw dh) st.fmt.srcW ∧
        ExtentReaches (kvmScale st.fmt.srcW st.fmt.srcH dw dh) st.fmt.srcH := by
  have hfit := letterbox_kvmFit hw.1 hh.1 hdw hdh
  have heq := kvmFit_eq hw.1 hh.1 hdw hdh
  have hends := ends_decode_iff hfit (by rw [heq]; exact hw.2) (by rw [heq]; exact hh.2)
  rw [hends, heq]

end points

/-- **The pointer hits the pixel that is shown**, and the edge from the bars, exactly when both
extents reach the last source pixel. -/
theorem pointsAt_iff (st : KvmState) (dw dh : ℤ) (hw : 0 < st.fmt.srcW ∧ st.fmt.srcW ≤ 16384)
    (hh : 0 < st.fmt.srcH ∧ st.fmt.srcH ≤ 16384) (hdw : 0 < dw) (hdh : 0 < dh) :
    st.PointsAt (kvmFit st.fmt.srcW st.fmt.srcH dw dh) ↔
      ExtentReaches (kvmScale st.fmt.srcW st.fmt.srcH dw dh) st.fmt.srcW ∧
        ExtentReaches (kvmScale st.fmt.srcW st.fmt.srcH dw dh) st.fmt.srcH := by
  rw [← ends_kvmFit_iff hw hh hdw hdh]
  constructor
  · exact fun h x y => (h x y).2.2.2
  · intro hends x y
    have hfit := letterbox_kvmFit hw.1 hh.1 hdw hdh
    have heq := kvmFit_eq hw.1 hh.1 hdw hdh
    have hsw : (kvmFit st.fmt.srcW st.fmt.srcH dw dh).srcW = st.fmt.srcW := by rw [heq]
    have hsh : (kvmFit st.fmt.srcW st.fmt.srcH dw dh).srcH = st.fmt.srcH := by rw [heq]
    refine ⟨?_, ?_, fun huse => ?_, hends x y⟩
    · rw [kvmAbsMap_letterbox hfit]
      exact absPlace_range _ _
    · rw [kvmAbsMap_letterbox hfit]
      exact absPlace_range _ _
    · exact shown_decode hfit hsw hsh (hsw.trans_le hw.2) (hsh.trans_le hh.2) huse

/-- A source shown larger than it is. -/
theorem pointsAt_enlarged :
    KvmState.PointsAt { fmt := { srcW := 1024, srcH := 768 } } (kvmFit 1024 768 1600 900) := by
  have hs : kvmScale 1024 768 1600 900 = 75 / 64 := by norm_num [kvmScale]
  refine (pointsAt_iff { fmt := { srcW := 1024, srcH := 768 } } 1600 900 (by decide) (by decide)
    (by decide) (by decide)).mpr ⟨?_, ?_⟩
  all_goals exact extentReaches_of_half_le (by norm_num [hs]) _

/-- **A click below the picture**: 3840 by 1600 on 800 by 480 is 333 and a third rows high, and the
first black row below them is read back as the last row but one. -/
theorem exists_not_pointsAt : ¬∀ (st : KvmState) (dw dh : ℤ),
    0 < st.fmt.srcW ∧ st.fmt.srcW ≤ 16384 → 0 < st.fmt.srcH ∧ st.fmt.srcH ≤ 16384 →
    0 < dw → 0 < dh → st.PointsAt (kvmFit st.fmt.srcW st.fmt.srcH dw dh) := by
  intro h
  have hs : kvmScale 3840 1600 800 480 = 5 / 24 := by norm_num [kvmScale]
  have hpoints := h { fmt := { srcW := 3840, srcH := 1600 } } 800 480 (by decide) (by decide)
    (by decide) (by decide)
  have hreach := ((ends_kvmFit_iff (by decide) (by decide) (by decide) (by decide)).mp
    fun x y => (hpoints x y).2.2.2).2
  norm_num [ExtentReaches, hs] at hreach

end Sremfb
