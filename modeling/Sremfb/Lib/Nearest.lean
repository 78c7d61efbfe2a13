import Mathlib.Algebra.Order.Floor.Ring
import Mathlib.Algebra.Order.Field.Basic
import Mathlib.Tactic.Linarith
import Mathlib.Tactic.NormNum
import Mathlib.Tactic.Push
import Mathlib.Tactic.Ring

/-!
# Nearest-neighbour scaling along one axis

An axis shows `size` source pixels at scale `s` in the `extent` destination pixels from `off` on.
The destination pixel `d` shows the source pixel `near d`, the one that the corner of `d` falls
into; `near_lt_iff` and `le_near_iff` turn this around without a division.

A range `[p, q)` of source pixels is repainted over the destination pixels from `first p` up to
`stop slack q`.  `first` rounds down, so nothing is lost there; `stop` rounds up by adding `slack`
before it rounds down, which is a true ceiling only for what lies `1 - slack` or more above an
integer.  `lt_stop_iff` says exactly which pixels are reached.

The way back clamps: a destination pixel outside the axis is sent to the source pixel at that end
(`ends`).  Clamping the source pixel instead of the destination pixel does the same exactly when the
extent leaves no source pixel before the last one out (`clamp_near_iff`).  `centre` places a source
pixel on a finer grid, from which it can be read back.
-/

namespace Lib

/-- One axis of a picture that is shown at another scale. -/
structure Axis (K : Type*) where
  size : ℤ
  s : K
  off : ℤ
  extent : ℤ

namespace Axis

variable {K : Type*} [Field K] [LinearOrder K] [IsStrictOrderedRing K] [FloorRing K]

/-- The source pixel that `d` shows. -/
def near (a : Axis K) (d : ℤ) : ℤ := ⌊((d : K) - a.off) / a.s⌋

/-- The destination pixel that the source pixel `p` begins in. -/
def first (a : Axis K) (p : ℤ) : ℤ := a.off + ⌊(p : K) * a.s⌋

/-- Where the source pixels below `q` end, rounded up by `slack` and cut to the axis. -/
def stop (a : Axis K) (slack : K) (q : ℤ) : ℤ := a.off + min ⌊(q : K) * a.s + slack⌋ a.extent

/-- `d` shows something. -/
def Useful (a : Axis K) (d : ℤ) : Prop := a.off ≤ d ∧ d < a.off + a.extent

/-- The source pixel that `d` shows, or the one at the end of the axis that `d` lies beyond. -/
def ends (a : Axis K) (d : ℤ) : ℤ :=
  if d < a.off then 0 else if d < a.off + a.extent then a.near d else a.size - 1

instance (a : Axis K) (d : ℤ) : Decidable (a.Useful d) := inferInstanceAs (Decidable (_ ∧ _))

/-- The destination pixel `k` of a scaled axis shows a source pixel of `[p, q)`, and at least half of
it lies before the end of the axis. -/
def Shown (s : K) (size p q k : ℤ) : Prop :=
  (p : K) * s ≤ k ∧ (k : K) < q * s ∧ (k : K) + 1 / 2 ≤ size * s

/-- The axis has pixels, and its extent is its size, scaled and rounded. -/
structure Fits (a : Axis K) : Prop where
  size_pos : 0 < a.size
  s_pos : 0 < a.s
  extent_eq : a.extent = ⌊(a.size : K) * a.s + 1 / 2⌋

variable {a : Axis K} {d p q : ℤ} {slack : K}

lemma near_lt_iff (h : 0 < a.s) : a.near d < q ↔ ((d - a.off : ℤ) : K) < q * a.s := by
  rw [near, Int.floor_lt, div_lt_iff₀ h]
  push_cast
  rfl

lemma le_near_iff (h : 0 < a.s) : p ≤ a.near d ↔ (p : K) * a.s ≤ ((d - a.off : ℤ) : K) := by
  rw [near, Int.le_floor, le_div_iff₀ h]
  push_cast
  rfl

/-- What is reached at the end of a range. -/
lemma lt_stop_iff (slack : K) (q : ℤ) (hd : a.Useful d) :
    d < a.stop slack q ↔ ((d - a.off : ℤ) : K) + (1 - slack) ≤ q * a.s := by
  have hfloor : d - a.off + 1 ≤ ⌊(q : K) * a.s + slack⌋ ↔
      ((d - a.off : ℤ) : K) + (1 - slack) ≤ q * a.s := by
    rw [Int.le_floor]
    push_cast
    constructor <;> intro hle <;> linarith
  rw [← hfloor, stop]
  have hlt := hd.2
  omega

/-! ### Scale 1 -/

lemma near_of_one (hs : a.s = 1) : a.near d = d - a.off := by
  rw [near, hs, div_one, ← Int.cast_sub, Int.floor_intCast]

lemma first_of_one (hs : a.s = 1) : a.first p = a.off + p := by
  rw [first, hs, mul_one, Int.floor_intCast]

lemma stop_of_one (hs : a.s = 1) (h₀ : 0 ≤ slack) (h₁ : slack < 1) (hq : q ≤ a.extent) :
    a.stop slack q = a.off + q := by
  have hslack : ⌊slack⌋ = 0 := Int.floor_eq_zero_iff.mpr ⟨h₀, h₁⟩
  rw [stop, hs, mul_one, Int.floor_intCast_add, hslack, add_zero, min_eq_left hq]

lemma Fits.extent_of_one (h : a.Fits) (hs : a.s = 1) : a.extent = a.size := by
  have hhalf : ⌊(1 / 2 : K)⌋ = 0 := Int.floor_eq_zero_iff.mpr ⟨by norm_num, by norm_num⟩
  rw [h.extent_eq, hs, mul_one, Int.floor_intCast_add, hhalf, add_zero]

/-! ### Any scale -/

namespace Fits

variable (h : a.Fits)

include h

omit [IsStrictOrderedRing K] in
lemma extent_le_iff {n : ℤ} : n ≤ a.extent ↔ (n : K) ≤ a.size * a.s + 1 / 2 := by
  rw [h.extent_eq, Int.le_floor]

/-- A pixel of the axis shows a source pixel. -/
lemma near_bounds (hd : a.Useful d) : 0 ≤ a.near d ∧ a.near d < a.size := by
  constructor
  · rw [le_near_iff h.s_pos]
    have hpos : ((0 : ℤ) : K) ≤ ((d - a.off : ℤ) : K) := Int.cast_le.mpr (by have := hd.1; omega)
    simpa using hpos
  · rw [near_lt_iff h.s_pos]
    have hroom := h.extent_le_iff.mp (show d - a.off + 1 ≤ a.extent by have := hd.2; omega)
    push_cast at hroom ⊢
    linarith

/-- A pixel before the end of the source pixel `q` lies on the axis when half of it does. -/
lemma useful_iff (hp : 0 ≤ p) (hle : p ≤ a.near d) :
    a.Useful d ↔ ((d - a.off : ℤ) : K) + 1 / 2 ≤ a.size * a.s := by
  rw [le_near_iff h.s_pos] at hle
  have hnonneg : (0 : K) ≤ p * a.s := mul_nonneg (Int.cast_nonneg hp) h.s_pos.le
  have hle0 : 0 ≤ d - a.off := Int.cast_nonneg_iff.mp (hnonneg.trans hle)
  have hext := h.extent_le_iff (n := d - a.off + 1)
  push_cast at hext ⊢
  constructor
  · intro hd
    have hroom := hext.mp (by have := hd.2; omega)
    linarith
  · intro hroom
    have hlt := hext.mpr (by linarith)
    exact ⟨by omega, by omega⟩

lemma shown_iff (hp : 0 ≤ p) :
    Shown a.s a.size p q (d - a.off) ↔ a.Useful d ∧ p ≤ a.near d ∧ a.near d < q := by
  rw [Shown, ← le_near_iff h.s_pos, ← near_lt_iff h.s_pos]
  constructor
  · rintro ⟨hle, hlt, hroom⟩
    exact ⟨(h.useful_iff hp hle).mpr hroom, hle, hlt⟩
  · rintro ⟨hd, hle, hlt⟩
    exact ⟨hle, hlt, (h.useful_iff hp hle).mp hd⟩

/-- Nothing is lost at the start of a range. -/
lemma first_le (hle : p ≤ a.near d) : a.first p ≤ d := by
  rw [le_near_iff h.s_pos] at hle
  have hfloor : ⌊(p : K) * a.s⌋ ≤ d - a.off := Int.floor_le_iff.mpr (hle.trans_lt (by simp))
  rw [first]
  omega

lemma useful_of_mem (hp : 0 ≤ p) (hfirst : a.first p ≤ d) (hstop : d < a.stop slack q) :
    a.Useful d := by
  have hfloor : 0 ≤ ⌊(p : K) * a.s⌋ :=
    Int.floor_nonneg.mpr (mul_nonneg (Int.cast_nonneg hp) h.s_pos.le)
  rw [first] at hfirst
  rw [stop] at hstop
  exact ⟨by omega, by omega⟩

/-- The whole axis is reached from its first source pixel to its last. -/
lemma mem_full_iff (d : ℤ) (hslack : 1 / 2 ≤ slack) :
    a.first 0 ≤ d ∧ d < a.stop slack a.size ↔ a.Useful d := by
  constructor
  · rintro ⟨hfirst, hstop⟩
    exact h.useful_of_mem le_rfl hfirst hstop
  · intro hd
    refine ⟨by simpa [first] using hd.1, (lt_stop_iff _ _ hd).mpr ?_⟩
    have hroom := h.extent_le_iff.mp (show d - a.off + 1 ≤ a.extent by have := hd.2; omega)
    push_cast at hroom ⊢
    linarith

/-- Clamping to the source sends a pixel to the end it lies beyond, when the pixel behind the axis
goes there. -/
lemma clamp_near_iff : (∀ d, max 0 (min (a.near d) (a.size - 1)) = a.ends d) ↔
    ((a.size - 1 : ℤ) : K) * a.s ≤ (a.extent : K) := by
  have hsize := h.size_pos
  constructor
  · intro hall
    have hext : 0 ≤ a.extent := h.extent_le_iff.mpr (by
      have hpos : (0 : K) ≤ a.size * a.s :=
        mul_nonneg (Int.cast_nonneg hsize.le) h.s_pos.le
      push_cast
      linarith)
    have hlast := hall (a.off + a.extent)
    rw [ends, if_neg (by omega), if_neg (by omega)] at hlast
    by_cases hone : a.size = 1
    · rw [hone]
      simpa using hext
    · have hle : a.size - 1 ≤ a.near (a.off + a.extent) := by omega
      rw [le_near_iff h.s_pos] at hle
      simpa using hle
  · intro hle d
    rw [ends]
    split_ifs with hbefore hon
    · have hneg : a.near d < 0 := by
        rw [near_lt_iff h.s_pos, Int.cast_zero, zero_mul]
        exact Int.cast_lt_zero.mpr (by omega)
      omega
    · have hnear := h.near_bounds ⟨not_lt.mp hbefore, hon⟩
      omega
    · have hlast : a.size - 1 ≤ a.near d := by
        rw [le_near_iff h.s_pos]
        exact hle.trans (Int.cast_le.mpr (by omega))
      omega

end Fits

end Axis

/-! ## A finer grid -/

/-- The centre of the pixel `p` of `n`, on a grid of `2 * m`. -/
def centre (m n p : ℤ) : ℤ := (2 * p + 1) * m / n

section grid

variable {m n p : ℤ}

lemma centre_bounds (hp : 0 ≤ p ∧ p < n) (hm : 0 < m) : 0 ≤ centre m n p ∧ centre m n p < 2 * m := by
  have hn : 0 < n := by omega
  constructor
  · exact Int.ediv_nonneg (mul_nonneg (by omega) hm.le) hn.le
  · refine Int.ediv_lt_of_lt_mul hn ?_
    calc (2 * p + 1) * m < 2 * n * m := mul_lt_mul_of_pos_right (by omega) hm
      _ = 2 * m * n := by ring

/-- On a grid that is fine enough the pixel can be read back. -/
lemma centre_mul_ediv (hp : 0 ≤ p ∧ p < n) (hm : n ≤ m) : centre m n p * n / (2 * m) = p := by
  have hn : 0 < n := by omega
  have hle : centre m n p * n ≤ (2 * p + 1) * m := Int.ediv_mul_le _ hn.ne'
  have hlt : (2 * p + 1) * m < (centre m n p + 1) * n := Int.lt_ediv_add_one_mul_self _ hn
  rw [Int.ediv_eq_iff_of_pos (by omega)]
  constructor <;> nlinarith

end grid

end Lib
