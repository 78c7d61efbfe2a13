import Mathlib.Data.List.Basic
import Mathlib.Algebra.BigOperators.Group.List.Basic
import Mathlib.Tactic.Ring

/-!
# Packed blocks and linear buffers

A *block* of `n` cells of `c` entries is `(List.range n).flatMap g` with every `g i` of length
`c`.  `take_drop_flatMap` reads cell `i` back; used twice it reads one cell out of rows of
cells (`take_drop_rows`), which is the address arithmetic of every tightly packed image.

A *buffer* is a total function from offsets, and `blit` is `memcpy` into it: it changes the
offsets it covers (`blit_add`) and no others (`blit_of_lt`, `blit_of_le`).
-/

namespace Lib

variable {α : Type*}

/-! ## Blocks of equal cells -/

lemma length_flatMap_range {n c : ℕ} {g : ℕ → List α} (hg : ∀ i, (g i).length = c) :
    ((List.range n).flatMap g).length = n * c := by
  rw [List.length_flatMap]
  simp [hg, List.map_const']

lemma take_drop_flatMap {n c : ℕ} {g : ℕ → List α} (hg : ∀ i, (g i).length = c) {i : ℕ}
    (hi : i < n) : (((List.range n).flatMap g).drop (i * c)).take c = g i := by
  induction n generalizing g i with
  | zero => omega
  | succ n ih =>
      rw [List.range_succ_eq_map, List.flatMap_cons, List.flatMap_map]
      cases i with
      | zero => simp [hg]
      | succ i =>
          have hd : (i + 1) * c = (g 0).length + i * c := by rw [hg]; ring
          rw [hd, List.drop_length_add_append]
          exact ih (fun j => hg (j + 1)) (by omega)

/-- Cell `(i, j)` of `h` rows of `w` cells. -/
lemma take_drop_rows {w h c : ℕ} {g : ℕ → ℕ → List α} (hg : ∀ j i, (g j i).length = c)
    {i j : ℕ} (hi : i < w) (hj : j < h) :
    (((List.range h).flatMap fun j => (List.range w).flatMap (g j)).drop
      ((j * w + i) * c)).take c = g j i := by
  have hrow : ∀ j, ((List.range w).flatMap (g j)).length = w * c := fun j =>
    length_flatMap_range (hg j)
  have hic : i * c + c ≤ w * c := by
    calc i * c + c = (i + 1) * c := by ring
      _ ≤ w * c := Nat.mul_le_mul_right c hi
  have hj' := take_drop_flatMap hrow hj
  have hi' := take_drop_flatMap (hg j) hi
  rw [← hj', List.drop_take, List.take_take, List.drop_drop] at hi'
  rw [← hi', show min c (w * c - i * c) = c by omega]
  congr 2
  ring

/-! ## Buffers -/

/-- `memcpy` of `src` into a buffer at `off`. -/
def blit (buf : ℕ → α) (off : ℕ) (src : List α) : ℕ → α := fun i =>
  if off ≤ i then src.getD (i - off) (buf i) else buf i

lemma blit_of_lt {buf : ℕ → α} {off i : ℕ} {src : List α} (h : i < off) :
    blit buf off src i = buf i := by
  simp [blit, not_le.mpr h]

lemma blit_of_le {buf : ℕ → α} {off i : ℕ} {src : List α} (h : off + src.length ≤ i) :
    blit buf off src i = buf i := by
  have hlen : src.length ≤ i - off := by omega
  simp [blit, List.getElem?_eq_none hlen]

lemma blit_add {buf : ℕ → α} {off j : ℕ} {src : List α} (h : j < src.length) :
    blit buf off src (off + j) = src[j] := by
  simp [blit, h]

end Lib
