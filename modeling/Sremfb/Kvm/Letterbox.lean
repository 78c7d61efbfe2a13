import Sremfb.Kvm.Capture
import Sremfb.Lib.Nearest
import Mathlib.Data.Rat.Floor

/-!
# The letterbox (`capture.c`)

A fit shows the source at one scale in the middle of the picture, the rest being black.
`blit_rect` copies a rectangle of the master there, by rows at scale 1 and by the nearest neighbour
otherwise; both are one rule, the rule of `Lib.Axis` on each axis (`blitRect_letterbox`).

A frame copies its dirty rectangles alone.  `Refreshes` says that this is as good as a full
repaint: the picture of the old master, with the rectangle copied from the new one, is the picture
of the new master, and what changed lies in the rectangle that is reported.  The rectangle is meant
to be rounded outwards, but its end is rounded up by adding `0.999`.  A destination pixel that
begins less than a thousandth before the scaled end of the rectangle shows its last row or column
and is left out: `refreshes_iff` says that these pixels are all that is ever lost.
-/

namespace Sremfb

open Lib

/-! ## The axes of a fit -/

/-- The scale of a fit. -/
def kvmScale (sw sh dw dh : ℤ) : ℚ := min ((dw : ℚ) / sw) ((dh : ℚ) / sh)

namespace KvmFit

variable (fit : KvmFit)

def xAxis : Axis ℚ := ⟨fit.srcW, fit.s, fit.ox, fit.dw⟩

def yAxis : Axis ℚ := ⟨fit.srcH, fit.s, fit.oy, fit.dh⟩

/-- The source is shown scaled, inside the destination. -/
structure Letterbox : Prop where
  x : fit.xAxis.Fits
  y : fit.yAxis.Fits
  ox : 0 ≤ fit.ox ∧ fit.ox + fit.dw ≤ fit.dstW
  oy : 0 ≤ fit.oy ∧ fit.oy + fit.dh ≤ fit.dstH

/-- The rectangle that `blit_rect` reports. -/
def touched (r : Rect) : Rect :=
  ⟨fit.xAxis.first r.x1, fit.yAxis.first r.y1,
    fit.xAxis.stop (999 / 1000) r.x2, fit.yAxis.stop (999 / 1000) r.y2⟩

end KvmFit

section fits

variable {sw sh dw dh : ℤ}

lemma kvmScale_le (dw dh : ℤ) (hw : 0 < sw) (hh : 0 < sh) :
    sw * kvmScale sw sh dw dh ≤ dw ∧ sh * kvmScale sw sh dw dh ≤ dh := by
  have hwq : (0 : ℚ) < sw := Int.cast_pos.mpr hw
  have hhq : (0 : ℚ) < sh := Int.cast_pos.mpr hh
  rw [← le_div_iff₀' hwq, ← le_div_iff₀' hhq]
  exact ⟨min_le_left _ _, min_le_right _ _⟩

lemma kvmScale_pos (hw : 0 < sw) (hh : 0 < sh) :
    0 < kvmScale sw sh dw dh ↔ 0 < dw ∧ 0 < dh := by
  have hwq : (0 : ℚ) < sw := Int.cast_pos.mpr hw
  have hhq : (0 : ℚ) < sh := Int.cast_pos.mpr hh
  rw [kvmScale, lt_min_iff, div_pos_iff_of_pos_right hwq, div_pos_iff_of_pos_right hhq,
    Int.cast_pos, Int.cast_pos]

lemma kvmScale_self (hw : 0 < sw) (hh : 0 < sh) : kvmScale sw sh sw sh = 1 := by
  rw [kvmScale, div_self (Int.cast_ne_zero.mpr hw.ne'), div_self (Int.cast_ne_zero.mpr hh.ne'),
    min_self]

lemma floor_add_half (n : ℤ) : ⌊(n : ℚ) + 1 / 2⌋ = n := by
  rw [Int.floor_intCast_add]
  norm_num

/-- A scaled size that is no larger than the destination is not cut to it. -/
lemma round_le {x : ℚ} {n : ℤ} (h : x ≤ n) : ⌊x + 1 / 2⌋ ≤ n :=
  calc ⌊x + 1 / 2⌋ ≤ ⌊(n : ℚ) + 1 / 2⌋ := Int.floor_le_floor (by linarith)
    _ = n := floor_add_half n

/-- **`sremfb_kvm_fit`**, without its special case. -/
lemma kvmFit_eq (hw : 0 < sw) (hh : 0 < sh) (hdw : 0 < dw) (hdh : 0 < dh) :
    kvmFit sw sh dw dh =
      let s := kvmScale sw sh dw dh
      ⟨sw, sh, dw, dh, s, (dw - ⌊sw * s + 1 / 2⌋) / 2, (dh - ⌊sh * s + 1 / 2⌋) / 2,
        ⌊sw * s + 1 / 2⌋, ⌊sh * s + 1 / 2⌋⟩ := by
  obtain ⟨hle, hle'⟩ := kvmScale_le dw dh hw hh
  unfold kvmFit
  by_cases hsame : sw = dw ∧ sh = dh
  · obtain ⟨rfl, rfl⟩ := hsame
    rw [if_pos (by omega)]
    simp only [kvmScale_self hw hh, mul_one, floor_add_half, sub_self, Int.zero_ediv]
  · rw [if_neg (by omega)]
    have hs : (if (dw : ℚ) / sw < dh / sh then (dw : ℚ) / sw else dh / sh) =
        kvmScale sw sh dw dh := by
      rw [kvmScale, min_def]
      split_ifs <;> linarith
    dsimp only
    have hw' : min (sw * kvmScale sw sh dw dh + 1 / 2).floor dw =
        ⌊sw * kvmScale sw sh dw dh + 1 / 2⌋ := min_eq_left (round_le hle)
    have hh' : min (sh * kvmScale sw sh dw dh + 1 / 2).floor dh =
        ⌊sh * kvmScale sw sh dw dh + 1 / 2⌋ := min_eq_left (round_le hle')
    rw [hs, hw', hh']

lemma letterbox_kvmFit (hw : 0 < sw) (hh : 0 < sh) (hdw : 0 < dw) (hdh : 0 < dh) :
    (kvmFit sw sh dw dh).Letterbox := by
  have hs := (kvmScale_pos hw hh).mpr ⟨hdw, hdh⟩
  obtain ⟨hle, hle'⟩ := kvmScale_le dw dh hw hh
  have hround := round_le hle
  have hround' := round_le hle'
  rw [kvmFit_eq hw hh hdw hdh]
  exact ⟨⟨hw, hs, rfl⟩, ⟨hh, hs, rfl⟩, ⟨by dsimp only; omega, by dsimp only; omega⟩,
    ⟨by dsimp only; omega, by dsimp only; omega⟩⟩

end fits

/-! ## What `blit_rect` copies -/

section blit

variable {f : KvmFormat} {fit : KvmFit} {r : Rect}

/-- Where a scaled copy starts. -/
lemma max_floor (a : Axis ℚ) (hs : 0 < a.s) {p : ℤ} (hp : 0 ≤ p) :
    max (a.off + p * a.s).floor a.off = a.first p := by
  have hfloor : (a.off + p * a.s).floor = a.off + ⌊p * a.s⌋ := Int.floor_intCast_add a.off (p * a.s)
  have hpos : 0 ≤ ⌊p * a.s⌋ := Int.floor_nonneg.mpr (mul_nonneg (Int.cast_nonneg hp) hs.le)
  rw [hfloor, max_eq_left (by omega), Axis.first]

/-- Where a scaled copy ends. -/
lemma min_floor (a : Axis ℚ) (q : ℤ) :
    min (a.off + q * a.s + 999 / 1000).floor (a.off + a.extent) = a.stop (999 / 1000) q := by
  have hfloor : (a.off + q * a.s + 999 / 1000).floor = a.off + ⌊q * a.s + 999 / 1000⌋ := by
    rw [add_assoc]
    exact Int.floor_intCast_add a.off (q * a.s + 999 / 1000)
  rw [hfloor, min_add_add_left, Axis.stop]

/-- **`blit_rect`** is one rule at every scale. -/
lemma blitRect_letterbox (hfit : fit.Letterbox) (hw : fit.srcW = f.srcW) (hh : fit.srcH = f.srcH)
    (hr : r.Inside f.srcW f.srcH) (master grab : Frame) :
    blitRect f master fit r grab =
      if (fit.touched r).x2 ≤ (fit.touched r).x1 ∨ (fit.touched r).y2 ≤ (fit.touched r).y1 then none
      else some (overlay grab (fit.touched r) fun x y _ =>
        master (fit.xAxis.near x) (fit.yAxis.near y), fit.touched r) := by
  obtain ⟨hx1, hx, hx2, hy1, hy, hy2⟩ := hr
  unfold blitRect
  dsimp only
  rw [max_eq_left hx1, max_eq_left hy1, min_eq_left hx2, min_eq_left hy2, if_neg (by omega)]
  by_cases hs : fit.s = 1
  · -- the rectangle of the copied rows is the scaled one
    have hdw : fit.dw = fit.srcW := hfit.x.extent_of_one hs
    have hdh : fit.dh = fit.srcH := hfit.y.extent_of_one hs
    have hox := hfit.ox
    have hoy := hfit.oy
    have htouched : fit.touched r =
        ⟨fit.ox + r.x1, fit.oy + r.y1, fit.ox + r.x2, fit.oy + r.y2⟩ := by
      rw [KvmFit.touched, Axis.first_of_one hs, Axis.first_of_one hs,
        Axis.stop_of_one hs (by norm_num) (by norm_num) (hx2.trans (hdw.trans hw).ge),
        Axis.stop_of_one hs (by norm_num) (by norm_num) (hy2.trans (hdh.trans hh).ge)]
      rfl
    have hcutx : min r.x2 (r.x1 + (fit.dstW - (fit.ox + r.x1))) = r.x2 := min_eq_left (by omega)
    have hcuty : min r.y2 (r.y1 + (fit.dstH - (fit.oy + r.y1))) = r.y2 := min_eq_left (by omega)
    have hright : fit.ox + r.x1 + (r.x2 - r.x1) = fit.ox + r.x2 := by omega
    have hbelow : fit.oy + r.y1 + (r.y2 - r.y1) = fit.oy + r.y2 := by omega
    rw [if_pos hs, hcutx, hcuty, htouched, if_neg (by omega), if_neg (by dsimp only; omega),
      hright, hbelow]
    congr 2
    funext x y
    have hnearx : r.x1 + (x - (fit.ox + r.x1)) = fit.xAxis.near x := by
      rw [Axis.near_of_one hs]
      dsimp only [KvmFit.xAxis]
      omega
    have hneary : r.y1 + (y - (fit.oy + r.y1)) = fit.yAxis.near y := by
      rw [Axis.near_of_one hs]
      dsimp only [KvmFit.yAxis]
      omega
    rw [overlay, overlay, hnearx, hneary]
  · have hx1' : max (fit.ox + r.x1 * fit.s).floor fit.ox = (fit.touched r).x1 :=
      max_floor fit.xAxis hfit.x.s_pos hx1
    have hy1' : max (fit.oy + r.y1 * fit.s).floor fit.oy = (fit.touched r).y1 :=
      max_floor fit.yAxis hfit.y.s_pos hy1
    have hx2' : min (fit.ox + r.x2 * fit.s + 999 / 1000).floor (fit.ox + fit.dw) =
        (fit.touched r).x2 := min_floor fit.xAxis r.x2
    have hy2' : min (fit.oy + r.y2 * fit.s + 999 / 1000).floor (fit.oy + fit.dh) =
        (fit.touched r).y2 := min_floor fit.yAxis r.y2
    rw [if_neg hs, hx1', hy1', hx2', hy2']
    congr 3
    funext x y
    refine if_ctx_congr Iff.rfl (fun hm => ?_) fun _ => rfl
    -- no source pixel is clamped
    have hnearx := hfit.x.near_bounds (hfit.x.useful_of_mem hx1 hm.1 hm.2.1)
    have hneary := hfit.y.near_bounds (hfit.y.useful_of_mem hy1 hm.2.2.1 hm.2.2.2)
    have hclamp (n size : ℤ) (hn : 0 ≤ n ∧ n < size) : max 0 (min n (size - 1)) = n := by omega
    have hx' : max 0 (min ((x - fit.ox) / fit.s).floor (f.srcW - 1)) = fit.xAxis.near x :=
      hclamp _ _ (hw ▸ hnearx)
    have hy' : max 0 (min ((y - fit.oy) / fit.s).floor (f.srcH - 1)) = fit.yAxis.near y :=
      hclamp _ _ (hh ▸ hneary)
    exact congrArg₂ master hx' hy'

/-- The picture after a copy. -/
lemma blitRect_apply (hfit : fit.Letterbox) (hw : fit.srcW = f.srcW) (hh : fit.srcH = f.srcH)
    (hr : r.Inside f.srcW f.srcH) (master grab : Frame) (x y : ℤ) :
    (blitRect f master fit r grab).elim grab Prod.fst x y =
      if (fit.touched r).Mem x y then master (fit.xAxis.near x) (fit.yAxis.near y) else grab x y := by
  rw [blitRect_letterbox hfit hw hh hr]
  split_ifs with hempty hm hm
  · obtain ⟨hx, hx', hy, hy'⟩ := hm
    omega
  · rfl
  · exact if_pos hm
  · exact if_neg hm

/-- The rectangle that a copy reports. -/
lemma blitRect_reports (hfit : fit.Letterbox) (hw : fit.srcW = f.srcW) (hh : fit.srcH = f.srcH)
    (hr : r.Inside f.srcW f.srcH) (master grab : Frame) {x y : ℤ} (hm : (fit.touched r).Mem x y) :
    (blitRect f master fit r grab).map Prod.snd = some (fit.touched r) := by
  obtain ⟨hx, hx', hy, hy'⟩ := hm
  rw [blitRect_letterbox hfit hw hh hr, if_neg (by omega)]
  rfl

/-- The pixels that show the source. -/
def KvmFit.Useful (fit : KvmFit) (x y : ℤ) : Prop := fit.xAxis.Useful x ∧ fit.yAxis.Useful y

instance (x y : ℤ) : Decidable (fit.Useful x y) := inferInstanceAs (Decidable (_ ∧ _))

/-- The whole source covers the useful pixels. -/
lemma mem_touched_full (hfit : fit.Letterbox) {x y : ℤ} :
    (fit.touched (Rect.full fit.srcW fit.srcH)).Mem x y ↔ fit.Useful x y := by
  have hx := hfit.x.mem_full_iff x (show (1 / 2 : ℚ) ≤ 999 / 1000 by norm_num)
  have hy := hfit.y.mem_full_iff y (show (1 / 2 : ℚ) ≤ 999 / 1000 by norm_num)
  rw [KvmFit.Useful, ← hx, ← hy, and_assoc]
  rfl

end blit

/-! ## The incremental copy and the full one -/

namespace KvmState

variable {st : KvmState} {fit : KvmFit} {r : Rect}

/-- **The full picture**: the source in the useful pixels, and the bars. -/
lemma repaintPicture_apply (hfit : fit.Letterbox) (hw : fit.srcW = st.fmt.srcW)
    (hh : fit.srcH = st.fmt.srcH) (master grab : Frame) (x y : ℤ) :
    st.repaintPicture master fit grab x y =
      if fit.Useful x y then master (fit.xAxis.near x) (fit.yAxis.near y)
      else if fit.identity then grab x y else 0 := by
  have hr : (Rect.full st.fmt.srcW st.fmt.srcH).Inside st.fmt.srcW st.fmt.srcH :=
    Rect.inside_full (hw ▸ hfit.x.size_pos) (hh ▸ hfit.y.size_pos)
  rw [repaintPicture, blitRect_apply hfit hw hh hr, ← hw, ← hh]
  refine if_congr (mem_touched_full hfit) rfl ?_
  split_ifs <;> rfl

/-- Copying a changed rectangle into the old picture makes the new one, and what changed is
reported. -/
def Refreshes (st : KvmState) (fit : KvmFit) (r : Rect) : Prop :=
  ∀ master master' grab : Frame, (∀ x y, ¬r.Mem x y → master' x y = master x y) →
    let old := st.repaintPicture master fit grab
    let new := st.repaintPicture master' fit grab
    let copy := blitRect st.fmt master' fit r old
    copy.elim old Prod.fst = new ∧
      ∀ x y, new x y ≠ old x y → ∃ out, copy.map Prod.snd = some out ∧ out.Mem x y

/-- A changed pixel of the picture is copied when it lies in the rectangle that is touched. -/
lemma refreshes_iff_mem (hfit : fit.Letterbox) (hw : fit.srcW = st.fmt.srcW)
    (hh : fit.srcH = st.fmt.srcH) (hr : r.Inside st.fmt.srcW st.fmt.srcH) :
    st.Refreshes fit r ↔ ∀ x y, fit.Useful x y →
      r.Mem (fit.xAxis.near x) (fit.yAxis.near y) → (fit.touched r).Mem x y := by
  constructor
  · intro h x y huse hm
    by_contra hout
    -- a master that is black, and one that is white in the rectangle
    have hnew := congrFun (congrFun (h (fun _ _ => 0) (fun x y => if r.Mem x y then 1 else 0)
      (fun _ _ => 0) fun x y hn => if_neg hn).1 x) y
    rw [blitRect_apply hfit hw hh hr, if_neg hout, repaintPicture_apply hfit hw hh, if_pos huse,
      repaintPicture_apply hfit hw hh, if_pos huse, if_pos hm] at hnew
    exact absurd hnew (by decide)
  · intro h master master' grab hsame
    -- a useful pixel outside the rectangle is left alone
    have hkeep (x y : ℤ) (hn : ¬(fit.touched r).Mem x y) :
        st.repaintPicture master' fit grab x y = st.repaintPicture master fit grab x y := by
      rw [repaintPicture_apply hfit hw hh, repaintPicture_apply hfit hw hh]
      exact if_ctx_congr Iff.rfl (fun huse => hsame _ _ fun hm => hn (h x y huse hm)) fun _ => rfl
    refine ⟨?_, fun x y hne => ?_⟩
    · funext x y
      rw [blitRect_apply hfit hw hh hr]
      split_ifs with hm
      · obtain ⟨hx, hx', hy, hy'⟩ := hm
        have huse : fit.Useful x y :=
          ⟨hfit.x.useful_of_mem hr.1 hx hx', hfit.y.useful_of_mem hr.2.2.2.1 hy hy'⟩
        rw [repaintPicture_apply hfit hw hh, if_pos huse]
      · exact (hkeep x y hm).symm
    · have hm : (fit.touched r).Mem x y := not_not.mp fun hn => hne (hkeep x y hn)
      exact ⟨_, blitRect_reports hfit hw hh hr _ _ hm, hm⟩

end KvmState

/-- A rectangle made of tiles, cut to the source. -/
def KvmFormat.TileAligned (f : KvmFormat) (t : TileSize) (r : Rect) : Prop :=
  r.Inside f.srcW f.srcH ∧ (t.size : ℤ) ∣ r.x1 ∧ (t.size : ℤ) ∣ r.y1 ∧
    ((t.size : ℤ) ∣ r.x2 ∨ r.x2 = f.srcW) ∧ ((t.size : ℤ) ∣ r.y2 ∨ r.y2 = f.srcH)

/-- No pixel that shows the rectangle begins less than a thousandth before the scaled end of it. -/
def EdgesReached (sw sh dw dh : ℤ) (r : Rect) : Prop :=
  let s := kvmScale sw sh dw dh
  ∀ k l : ℤ, Axis.Shown s sw r.x1 r.x2 k → Axis.Shown s sh r.y1 r.y2 l →
    (k : ℚ) + 1 / 1000 ≤ r.x2 * s ∧ (l : ℚ) + 1 / 1000 ≤ r.y2 * s

section edges

variable {fit : KvmFit} {r : Rect}

/-- What is touched, among the pixels that show the rectangle. -/
lemma mem_touched_iff (hfit : fit.Letterbox) {x y : ℤ} (huse : fit.Useful x y)
    (hm : r.Mem (fit.xAxis.near x) (fit.yAxis.near y)) :
    (fit.touched r).Mem x y ↔ ((x - fit.ox : ℤ) : ℚ) + 1 / 1000 ≤ r.x2 * fit.s ∧
      ((y - fit.oy : ℤ) : ℚ) + 1 / 1000 ≤ r.y2 * fit.s := by
  have hx := Axis.lt_stop_iff (999 / 1000) r.x2 huse.1
  have hy := Axis.lt_stop_iff (999 / 1000) r.y2 huse.2
  rw [show (1 : ℚ) - 999 / 1000 = 1 / 1000 by norm_num] at hx hy
  constructor
  · rintro ⟨-, hx', -, hy'⟩
    exact ⟨hx.mp hx', hy.mp hy'⟩
  · rintro ⟨hx', hy'⟩
    exact ⟨hfit.x.first_le hm.1, hx.mpr hx', hfit.y.first_le hm.2.2.1, hy.mpr hy'⟩

lemma edgesReached_iff (dw dh : ℤ) (hfit : fit.Letterbox) (hx1 : 0 ≤ r.x1) (hy1 : 0 ≤ r.y1)
    (hs : fit.s = kvmScale fit.srcW fit.srcH dw dh) :
    EdgesReached fit.srcW fit.srcH dw dh r ↔ ∀ x y, fit.Useful x y →
      r.Mem (fit.xAxis.near x) (fit.yAxis.near y) → (fit.touched r).Mem x y := by
  have hshown (x y : ℤ) : Axis.Shown fit.s fit.srcW r.x1 r.x2 (x - fit.ox) ∧
      Axis.Shown fit.s fit.srcH r.y1 r.y2 (y - fit.oy) ↔
      fit.Useful x y ∧ r.Mem (fit.xAxis.near x) (fit.yAxis.near y) := by
    have hx := hfit.x.shown_iff (d := x) (q := r.x2) hx1
    have hy := hfit.y.shown_iff (d := y) (q := r.y2) hy1
    constructor
    · rintro ⟨hsx, hsy⟩
      obtain ⟨hux, hm⟩ := hx.mp hsx
      obtain ⟨huy, hm'⟩ := hy.mp hsy
      exact ⟨⟨hux, huy⟩, hm.1, hm.2, hm'.1, hm'.2⟩
    · rintro ⟨⟨hux, huy⟩, hm₁, hm₂, hm₃, hm₄⟩
      exact ⟨hx.mpr ⟨hux, hm₁, hm₂⟩, hy.mpr ⟨huy, hm₃, hm₄⟩⟩
  rw [EdgesReached, ← hs]
  constructor
  · intro h x y huse hm
    obtain ⟨hsx, hsy⟩ := (hshown x y).mpr ⟨huse, hm⟩
    exact (mem_touched_iff hfit huse hm).mpr (h _ _ hsx hsy)
  · intro h k l hk hl
    have hk' : fit.ox + k - fit.ox = k := by omega
    have hl' : fit.oy + l - fit.oy = l := by omega
    obtain ⟨huse, hm⟩ := (hshown (fit.ox + k) (fit.oy + l)).mp ⟨hk'.symm ▸ hk, hl'.symm ▸ hl⟩
    have hreach := (mem_touched_iff hfit huse hm).mp (h _ _ huse hm)
    rwa [hk', hl'] at hreach

/-- Nothing shows on a picture without pixels. -/
lemma edgesReached_of_empty {sw sh dw dh : ℤ} (hr : r.Inside sw sh) (hd : ¬(0 < dw ∧ 0 < dh)) :
    EdgesReached sw sh dw dh r := by
  obtain ⟨hx1, hx, hx2, hy1, hy, hy2⟩ := hr
  have hs : kvmScale sw sh dw dh ≤ 0 :=
    not_lt.mp fun hpos => hd ((kvmScale_pos (by omega) (by omega)).mp hpos)
  intro k l hk
  have hlt : (r.x1 : ℚ) * kvmScale sw sh dw dh < r.x2 * kvmScale sw sh dw dh :=
    hk.1.trans_lt hk.2.1
  have hle : (r.x2 : ℚ) * kvmScale sw sh dw dh ≤ r.x1 * kvmScale sw sh dw dh :=
    mul_le_mul_of_nonpos_right (Int.cast_le.mpr hx.le) hs
  exact absurd hlt (not_lt.mpr hle)

lemma blitRect_of_empty {f : KvmFormat} {dw dh : ℤ} (hr : r.Inside f.srcW f.srcH)
    (hd : ¬(0 < dw ∧ 0 < dh)) (master grab : Frame) :
    blitRect f master (kvmFit f.srcW f.srcH dw dh) r grab = none := by
  obtain ⟨hx1, hx, hx2, hy1, hy, hy2⟩ := hr
  rw [kvmFit, if_pos (by omega), blitRect]
  dsimp only
  rw [if_neg (by omega), if_pos rfl, if_pos (by omega)]

/-- At scale 1 every edge is reached. -/
lemma edgesReached_of_scale_one {sw sh dw dh : ℤ} (hs : kvmScale sw sh dw dh = 1) (r : Rect) :
    EdgesReached sw sh dw dh r := by
  have hstep {k q : ℤ} (h : (k : ℚ) < q * kvmScale sw sh dw dh) :
      (k : ℚ) + 1 / 1000 ≤ q * kvmScale sw sh dw dh := by
    rw [hs, mul_one] at h ⊢
    have hle : ((k + 1 : ℤ) : ℚ) ≤ q := Int.cast_le.mpr (Int.cast_lt.mp h)
    push_cast at hle
    linarith
  exact fun k l hk hl => ⟨hstep hk.2.1, hstep hl.2.1⟩

/-- On a picture with pixels. -/
lemma refreshes_kvmFit {st : KvmState} {dw dh : ℤ} (hr : r.Inside st.fmt.srcW st.fmt.srcH)
    (hdw : 0 < dw) (hdh : 0 < dh) :
    st.Refreshes (kvmFit st.fmt.srcW st.fmt.srcH dw dh) r ↔
      EdgesReached st.fmt.srcW st.fmt.srcH dw dh r := by
  have hw : 0 < st.fmt.srcW := hr.1.trans_lt (hr.2.1.trans_le hr.2.2.1)
  have hh : 0 < st.fmt.srcH := hr.2.2.2.1.trans_lt (hr.2.2.2.2.1.trans_le hr.2.2.2.2.2)
  have hfit := letterbox_kvmFit hw hh hdw hdh
  have hsw : (kvmFit st.fmt.srcW st.fmt.srcH dw dh).srcW = st.fmt.srcW := by
    rw [kvmFit_eq hw hh hdw hdh]
  have hsh : (kvmFit st.fmt.srcW st.fmt.srcH dw dh).srcH = st.fmt.srcH := by
    rw [kvmFit_eq hw hh hdw hdh]
  have hs : (kvmFit st.fmt.srcW st.fmt.srcH dw dh).s = kvmScale st.fmt.srcW st.fmt.srcH dw dh := by
    rw [kvmFit_eq hw hh hdw hdh]
  have hedges := edgesReached_iff (r := r) dw dh hfit hr.1 hr.2.2.2.1
    (by rw [hsw, hsh, hs])
  rw [hsw, hsh] at hedges
  rw [KvmState.refreshes_iff_mem hfit hsw hsh hr, hedges]

end edges

/-- **The incremental copy of a rectangle** is as good as a full repaint exactly when its scaled
edges are reached. -/
theorem refreshes_iff (st : KvmState) (dw dh : ℤ) (r : Rect) (hr : r.Inside st.fmt.srcW st.fmt.srcH) :
    st.Refreshes (kvmFit st.fmt.srcW st.fmt.srcH dw dh) r ↔
      EdgesReached st.fmt.srcW st.fmt.srcH dw dh r := by
  by_cases hd : 0 < dw ∧ 0 < dh
  · exact refreshes_kvmFit hr hd.1 hd.2
  · refine iff_of_true (fun master master' grab _ => ?_) (edgesReached_of_empty hr hd)
    have hw : 0 < st.fmt.srcW := hr.1.trans_lt (hr.2.1.trans_le hr.2.2.1)
    have hh : 0 < st.fmt.srcH := hr.2.2.2.1.trans_lt (hr.2.2.2.2.1.trans_le hr.2.2.2.2.2)
    have hpicture (m : Frame) :
        st.repaintPicture m (kvmFit st.fmt.srcW st.fmt.srcH dw dh) grab =
          if (kvmFit st.fmt.srcW st.fmt.srcH dw dh).identity then grab else fun _ _ => 0 := by
      rw [KvmState.repaintPicture, blitRect_of_empty (Rect.inside_full hw hh) hd]
      rfl
    dsimp only
    rw [blitRect_of_empty hr hd, hpicture, hpicture]
    exact ⟨rfl, fun x y hne => absurd rfl hne⟩

/-- A tile of a source that is as large as the picture. -/
theorem refreshes_unscaled :
    KvmState.Refreshes { fmt := { srcW := 1920, srcH := 1080 } } (kvmFit 1920 1080 1920 1080)
      ⟨32, 64, 64, 96⟩ :=
  (refreshes_iff { fmt := { srcW := 1920, srcH := 1080 } } 1920 1080 ⟨32, 64, 64, 96⟩
    (by decide)).mpr (edgesReached_of_scale_one (kvmScale_self (by decide) (by decide)) _)

/-- **A lost column**: on 854 by 480 pixels, the column 108 shows the last column of the tiles
`[444, 518)` of a source of 4096 by 2160, whose scaled end is 108 and 1/1024. -/
theorem exists_not_refreshes : ¬∀ (st : KvmState) (dw dh : ℤ) (t : TileSize) (r : Rect),
    st.fmt.TileAligned t r → st.Refreshes (kvmFit st.fmt.srcW st.fmt.srcH dw dh) r := by
  intro h
  have hr : (⟨444, 0, 518, 74⟩ : Rect).Inside 4096 2160 := by decide
  have hedges := (refreshes_kvmFit hr (by decide) (by decide)).mp
    (h { fmt := { srcW := 4096, srcH := 2160 } } 854 480 ⟨74, by decide, rfl⟩ _
      ⟨hr, by decide, by decide, .inl (by decide), .inl (by decide)⟩)
  have hs : kvmScale 4096 2160 854 480 = 427 / 2048 := by norm_num [kvmScale]
  have hlost := (hedges 108 0 (by norm_num [Axis.Shown, hs]) (by norm_num [Axis.Shown, hs])).1
  norm_num [hs] at hlost

end Sremfb
