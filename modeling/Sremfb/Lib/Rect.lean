import Mathlib.Data.Int.Basic
import Mathlib.Order.Lattice
import Mathlib.Tactic.Linarith

/-!
# Half-open integer rectangles

A rectangle is `[x1, x2) × [y1, y2)` over the integers.  The operations here are the ones a
damage region is kept with: `union` is the smallest rectangle around two others (not their
set union, which need not be a rectangle), `touches` asks whether two rectangles overlap or
share an edge, and `clamp` cuts a coordinate to an interval.

What a region is for is coverage, so the results are about `Mem`: a hull covers both its
arguments (`mem_union_left`, `mem_union_right`), folding hulls over a list covers everything
folded (`mem_foldl_union`), and two hulls of rectangles that lie in a frame lie in it again
(`Inside.union`).  `trimTop` and `trimBottom` shrink a range of rows from either end while a
test accepts the row; `trimTop_le` and the lemmas after it say that only accepted rows are
lost.
-/

namespace Lib

/-- The half-open rectangle `[x1, x2) × [y1, y2)`. -/
structure Rect where
  x1 : ℤ
  y1 : ℤ
  x2 : ℤ
  y2 : ℤ
  deriving DecidableEq, Repr

namespace Rect

/-- The pixel `(x, y)` lies in the rectangle. -/
def Mem (r : Rect) (x y : ℤ) : Prop :=
  r.x1 ≤ x ∧ x < r.x2 ∧ r.y1 ≤ y ∧ y < r.y2

instance (r : Rect) (x y : ℤ) : Decidable (r.Mem x y) :=
  inferInstanceAs (Decidable (_ ∧ _ ∧ _ ∧ _))

/-- The rectangle is non-empty and lies in the frame `[0, w) × [0, h)`. -/
def Inside (r : Rect) (w h : ℤ) : Prop :=
  0 ≤ r.x1 ∧ r.x1 < r.x2 ∧ r.x2 ≤ w ∧ 0 ≤ r.y1 ∧ r.y1 < r.y2 ∧ r.y2 ≤ h

instance (r : Rect) (w h : ℤ) : Decidable (r.Inside w h) :=
  inferInstanceAs (Decidable (_ ∧ _ ∧ _ ∧ _ ∧ _ ∧ _))

/-- The two rectangles have no pixel in common. -/
def Apart (a b : Rect) : Prop := ∀ x y, a.Mem x y → ¬ b.Mem x y

lemma Apart.symm {a b : Rect} (h : a.Apart b) : b.Apart a :=
  fun x y hb ha => h x y ha hb

/-- The two rectangles overlap or share an edge or a corner. -/
def touches (a b : Rect) : Bool :=
  decide (a.x1 ≤ b.x2) && decide (b.x1 ≤ a.x2) && decide (a.y1 ≤ b.y2) && decide (b.y1 ≤ a.y2)

/-- The smallest rectangle around both. -/
def union (a b : Rect) : Rect where
  x1 := min a.x1 b.x1
  y1 := min a.y1 b.y1
  x2 := max a.x2 b.x2
  y2 := max a.y2 b.y2

/-- The whole frame `[0, w) × [0, h)`. -/
def full (w h : ℤ) : Rect := ⟨0, 0, w, h⟩

lemma mem_full {w h x y : ℤ} : (full w h).Mem x y ↔ 0 ≤ x ∧ x < w ∧ 0 ≤ y ∧ y < h := Iff.rfl

lemma inside_full {w h : ℤ} (hw : 0 < w) (hh : 0 < h) : (full w h).Inside w h :=
  ⟨le_rfl, hw, le_rfl, le_rfl, hh, le_rfl⟩

lemma mem_union_left {a b : Rect} {x y : ℤ} (h : a.Mem x y) : (a.union b).Mem x y := by
  obtain ⟨h1, h2, h3, h4⟩ := h
  exact ⟨(min_le_left _ _).trans h1, h2.trans_le (le_max_left _ _),
    (min_le_left _ _).trans h3, h4.trans_le (le_max_left _ _)⟩

lemma mem_union_right {a b : Rect} {x y : ℤ} (h : b.Mem x y) : (a.union b).Mem x y := by
  obtain ⟨h1, h2, h3, h4⟩ := h
  exact ⟨(min_le_right _ _).trans h1, h2.trans_le (le_max_right _ _),
    (min_le_right _ _).trans h3, h4.trans_le (le_max_right _ _)⟩

lemma Inside.union {a b : Rect} {w h : ℤ} (ha : a.Inside w h) (hb : b.Inside w h) :
    (a.union b).Inside w h := by
  simp only [Inside, Rect.union] at *
  omega

/-- Folding hulls over a list covers the start and every element. -/
lemma mem_foldl_union {rs : List Rect} {a r : Rect} {x y : ℤ} (hr : r = a ∨ r ∈ rs)
    (h : r.Mem x y) : (rs.foldl Rect.union a).Mem x y := by
  induction rs generalizing a r with
  | nil =>
      rcases hr with rfl | hr
      · exact h
      · simp at hr
  | cons b rs ih =>
      rw [List.foldl_cons]
      rcases hr with rfl | hr
      · exact ih (.inl rfl) (mem_union_left h)
      · rcases List.mem_cons.mp hr with rfl | hr
        · exact ih (.inl rfl) (mem_union_right h)
        · exact ih (.inr hr) h

lemma Inside.foldl_union {rs : List Rect} {a : Rect} {w h : ℤ} (ha : a.Inside w h)
    (hrs : ∀ r ∈ rs, r.Inside w h) : (rs.foldl Rect.union a).Inside w h := by
  induction rs generalizing a with
  | nil => exact ha
  | cons b rs ih =>
      rw [List.foldl_cons]
      exact ih (ha.union (hrs b (List.mem_cons_self ..)))
        (fun r hr => hrs r (List.mem_cons_of_mem _ hr))

end Rect

/-! ## Clamping and trimming -/

/-- `v` cut to `[lo, hi]`, the upper bound tested first. -/
def clamp (v lo hi : ℤ) : ℤ := if v > hi then hi else if v < lo then lo else v

lemma le_clamp {v lo hi : ℤ} (h : lo ≤ hi) : lo ≤ clamp v lo hi := by
  unfold clamp; split_ifs <;> omega

lemma clamp_le {v lo hi : ℤ} (h : lo ≤ hi) : clamp v lo hi ≤ hi := by
  unfold clamp; split_ifs <;> omega

/-- Clamping keeps a half-open comparison with a point of the frame. -/
lemma clamp_le_of_le {v p hi : ℤ} (hp : 0 ≤ p) (h : v ≤ p) (hpw : p < hi) :
    clamp v 0 hi ≤ p := by
  unfold clamp; split_ifs <;> omega

lemma lt_clamp_of_lt {v p hi : ℤ} (h : p < v) (hpw : p < hi) : p < clamp v 0 hi := by
  unfold clamp; split_ifs <;> omega

/-- Moves `y` up past at most `n` rows that the test accepts. -/
def trimTop (same : ℤ → Bool) : ℕ → ℤ → ℤ
  | 0, y => y
  | n + 1, y => if same y then trimTop same n (y + 1) else y

/-- Moves `y` down past at most `n` rows that the test accepts; row `y - 1` is tested. -/
def trimBottom (same : ℤ → Bool) : ℕ → ℤ → ℤ
  | 0, y => y
  | n + 1, y => if same (y - 1) then trimBottom same n (y - 1) else y

lemma le_trimTop (same : ℤ → Bool) (n : ℕ) (y : ℤ) :
    y ≤ trimTop same n y ∧ trimTop same n y ≤ y + n := by
  induction n generalizing y with
  | zero => simp [trimTop]
  | succ n ih =>
      rw [trimTop]
      split
      · have := ih (y + 1); push_cast; omega
      · push_cast; omega

lemma same_of_lt_trimTop {same : ℤ → Bool} {n : ℕ} {y z : ℤ} (h₁ : y ≤ z)
    (h₂ : z < trimTop same n y) : same z = true := by
  induction n generalizing y with
  | zero => simp only [trimTop] at h₂; omega
  | succ n ih =>
      rw [trimTop] at h₂
      split at h₂ <;> rename_i hy
      · rcases eq_or_lt_of_le h₁ with rfl | hlt
        · exact hy
        · exact ih (by omega) h₂
      · omega

/-- A trim that stops early stops at a row the test refuses. -/
lemma not_same_trimTop {same : ℤ → Bool} {n : ℕ} {y : ℤ} (h : trimTop same n y < y + n) :
    same (trimTop same n y) = false := by
  induction n generalizing y with
  | zero => simp [trimTop] at h
  | succ n ih =>
      rw [trimTop] at h ⊢
      split at h <;> rename_i hy
      · rw [if_pos hy]
        exact ih (by push_cast at h; omega)
      · rw [if_neg hy]
        simpa using hy

lemma trimBottom_le (same : ℤ → Bool) (n : ℕ) (y : ℤ) :
    trimBottom same n y ≤ y ∧ y - n ≤ trimBottom same n y := by
  induction n generalizing y with
  | zero => simp [trimBottom]
  | succ n ih =>
      rw [trimBottom]
      split
      · have := ih (y - 1); push_cast; omega
      · push_cast; omega

lemma same_of_trimBottom_le {same : ℤ → Bool} {n : ℕ} {y z : ℤ} (h₁ : z < y)
    (h₂ : trimBottom same n y ≤ z) : same z = true := by
  induction n generalizing y with
  | zero => simp only [trimBottom] at h₂; omega
  | succ n ih =>
      rw [trimBottom] at h₂
      split at h₂ <;> rename_i hy
      · rcases eq_or_lt_of_le (show z ≤ y - 1 by omega) with rfl | hlt
        · exact hy
        · exact ih hlt h₂
      · omega

lemma not_same_trimBottom {same : ℤ → Bool} {n : ℕ} {y : ℤ} (h : y - n < trimBottom same n y) :
    same (trimBottom same n y - 1) = false := by
  induction n generalizing y with
  | zero => simp [trimBottom] at h
  | succ n ih =>
      rw [trimBottom] at h ⊢
      split at h <;> rename_i hy
      · rw [if_pos hy]
        exact ih (by push_cast at h; omega)
      · rw [if_neg hy]
        simpa using hy

end Lib
