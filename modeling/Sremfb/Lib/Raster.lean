import Sremfb.Lib.Block

/-!
# Pixel rasters in linear buffers

A raster of cells of `c` entries lies in a buffer with `stride` entries a row; `cell` reads the
cell in column `x` of row `y`.  A `memcpy` of `n` cells that stays in its row changes these
cells and no others (`cell_blit`).  When the rows leave no gap, one `memcpy` of several of them
is a copy row by row (`blit_rows`, with `piece` for the rows of a packed block), and a raster that
is filled row by row is filled in the order of its entries (`flatMap_range_rows`).
-/

namespace Lib

variable {α : Type*}

/-- The cell in column `x` of row `y`. -/
def cell (buf : ℕ → α) (stride c x y : ℕ) : List α :=
  (List.range c).map fun i => buf (y * stride + x * c + i)

@[simp] lemma length_cell (buf : ℕ → α) (stride c x y : ℕ) : (cell buf stride c x y).length = c := by
  simp [cell]

lemma cell_congr {buf buf' : ℕ → α} {stride c x y : ℕ}
    (h : ∀ i < c, buf' (y * stride + x * c + i) = buf (y * stride + x * c + i)) :
    cell buf' stride c x y = cell buf stride c x y := by
  refine List.map_congr_left fun i hi => ?_
  exact h i (List.mem_range.mp hi)

/-- A copy of `n` cells inside row `y` replaces these cells and no others. -/
lemma cell_blit {buf : ℕ → α} {stride c x y n px py : ℕ} {src : List α}
    (hsrc : src.length = n * c) (hx : (x + n) * c ≤ stride) (hp : (px + 1) * c ≤ stride) :
    cell (blit buf (y * stride + x * c) src) stride c px py =
      if py = y ∧ x ≤ px ∧ px < x + n then (src.drop ((px - x) * c)).take c
      else cell buf stride c px py := by
  have hpx : px * c + c ≤ stride := by rwa [Nat.succ_mul] at hp
  have hxn : x * c + n * c ≤ stride := by rwa [Nat.add_mul] at hx
  split_ifs with hin
  · obtain ⟨rfl, hle, hlt⟩ := hin
    have hsplit : px * c = x * c + (px - x) * c := by rw [← Nat.add_mul]; congr 1; omega
    have hroom : (px - x) * c + c ≤ n * c := by
      rw [← Nat.succ_mul]
      exact Nat.mul_le_mul_right c (by omega)
    apply List.ext_getElem
    · simp only [length_cell, List.length_take, List.length_drop, hsrc]
      omega
    · intro i hi _
      rw [length_cell] at hi
      have haddr : py * stride + px * c + i = py * stride + x * c + ((px - x) * c + i) := by omega
      simp only [cell, List.getElem_map, List.getElem_range, List.getElem_take, List.getElem_drop]
      rw [haddr, blit_add (by omega)]
  · refine cell_congr fun i hi => ?_
    rcases lt_trichotomy py y with hy | rfl | hy
    · have hrow : (py + 1) * stride ≤ y * stride := Nat.mul_le_mul_right stride hy
      rw [Nat.succ_mul] at hrow
      exact blit_of_lt (by omega)
    · by_cases hlt : px < x
      · have hcol : (px + 1) * c ≤ x * c := Nat.mul_le_mul_right c hlt
        rw [Nat.succ_mul] at hcol
        exact blit_of_lt (by omega)
      · have hcol : (x + n) * c ≤ px * c := Nat.mul_le_mul_right c (by omega)
        rw [Nat.add_mul] at hcol
        exact blit_of_le (by omega)
    · have hrow : (y + 1) * stride ≤ py * stride := Nat.mul_le_mul_right stride hy
      rw [Nat.succ_mul] at hrow
      exact blit_of_le (by omega)

/-- Row by row, a raster of rows of `w` cells is numbered in order. -/
lemma flatMap_range_rows {β : Type*} (g : ℕ → ℕ → β) (w h : ℕ) :
    ((List.range h).flatMap fun j => (List.range w).map fun i => g j i) =
      (List.range (h * w)).map fun n => g (n / w) (n % w) := by
  induction h with
  | zero => simp
  | succ h ih =>
      rw [List.range_succ, List.flatMap_append, ih, Nat.succ_mul, List.range_add, List.map_append,
        List.map_map, List.flatMap_cons, List.flatMap_nil, List.append_nil]
      congr 1
      refine List.map_congr_left fun i hi => ?_
      have hi := List.mem_range.mp hi
      have hdiv : (h * w + i) / w = h := by
        rw [Nat.mul_comm, Nat.mul_add_div (by omega), Nat.div_eq_of_lt hi, Nat.add_zero]
      rw [Function.comp_apply, hdiv, Nat.mul_add_mod_of_lt hi]

/-- Copying two pieces at once is copying the one behind the other. -/
lemma blit_append (buf : ℕ → α) (off : ℕ) (a b : List α) :
    blit buf off (a ++ b) = blit (blit buf off a) (off + a.length) b := by
  funext i
  by_cases hlt : i < off
  · rw [blit_of_lt hlt, blit_of_lt (by omega), blit_of_lt hlt]
  · simp only [blit, List.getD_eq_getElem?_getD]
    by_cases ha : i - off < a.length
    · simp [ha, show off ≤ i by omega, show ¬off + a.length ≤ i by omega,
        List.getElem?_append_left ha]
    · have hsub : i - (off + a.length) = i - off - a.length := by omega
      simp [show off ≤ i by omega, show off + a.length ≤ i by omega,
        List.getElem?_append_right (not_lt.mp ha), List.getElem?_eq_none (not_lt.mp ha), hsub]

/-- Row `j` of a packed block of rows of `n` entries. -/
def piece (raw : List α) (n j : ℕ) : List α := (raw.drop (j * n)).take n

lemma length_piece {raw : List α} {n h j : ℕ} (hraw : h * n ≤ raw.length) (hj : j < h) :
    (piece raw n j).length = n := by
  have hroom : (j + 1) * n ≤ h * n := Nat.mul_le_mul_right n hj
  rw [Nat.succ_mul] at hroom
  simp only [piece, List.length_take, List.length_drop]
  omega

/-- What lies behind the rows does not matter to them. -/
lemma piece_take {raw : List α} {n h j : ℕ} (hj : j < h) :
    piece (raw.take (h * n)) n j = piece raw n j := by
  have hroom : (j + 1) * n ≤ h * n := Nat.mul_le_mul_right n hj
  rw [Nat.succ_mul] at hroom
  rw [piece, piece, List.drop_take, List.take_take, show min n (h * n - j * n) = n by omega]

/-- A cell of a row is a cell of the block. -/
lemma take_drop_piece {raw : List α} {w c i : ℕ} (j : ℕ) (hi : i < w) :
    ((piece raw (w * c) j).drop (i * c)).take c = (raw.drop ((j * w + i) * c)).take c := by
  have hroom : (i + 1) * c ≤ w * c := Nat.mul_le_mul_right c hi
  rw [Nat.succ_mul] at hroom
  rw [piece, List.drop_take, List.take_take, List.drop_drop,
    show min c (w * c - i * c) = c by omega]
  congr 2
  ring

/-- One copy of a packed block is a copy of its rows. -/
lemma blit_rows (buf : ℕ → α) (off : ℕ) {raw : List α} {n h : ℕ} (hraw : raw.length = h * n) :
    blit buf off raw =
      (List.range h).foldl (fun b j => blit b (off + j * n) (piece raw n j)) buf := by
  induction h generalizing raw with
  | zero =>
      have hnil : raw = [] := List.length_eq_zero_iff.mp (by simpa using hraw)
      funext i
      simp [hnil, blit]
  | succ h ih =>
      have hlen : (raw.take (h * n)).length = h * n := by
        rw [List.length_take, hraw, Nat.succ_mul]
        omega
      have hlast : piece raw n h = raw.drop (h * n) := by
        rw [piece, List.take_of_length_le]
        rw [List.length_drop, hraw, Nat.succ_mul]
        omega
      calc blit buf off raw
          = blit (blit buf off (raw.take (h * n))) (off + h * n) (raw.drop (h * n)) := by
            have happ := blit_append buf off (raw.take (h * n)) (raw.drop (h * n))
            rwa [List.take_append_drop, hlen] at happ
        _ = _ := by
            rw [ih hlen, List.range_succ, List.foldl_append, List.foldl_cons, List.foldl_nil,
              hlast]
            congr 1
            refine List.foldl_ext _ _ _ fun b j hj => ?_
            rw [piece_take (List.mem_range.mp hj)]

/-- Rows of `w` entries copied `stride` apart: each is in its place, and what is in front of them and
behind them stays. -/
lemma foldl_blit_rows {w stride : ℕ} (hw : w ≤ stride) (buf : ℕ → α) (off h : ℕ) (src : ℕ → List α)
    (hsrc : ∀ j < h, (src j).length = w) :
    let b := (List.range h).foldl (fun b j => blit b (off + j * stride) (src j)) buf
    (∀ j < h, ∀ i, ∀ hi : i < (src j).length, b (off + j * stride + i) = (src j).get ⟨i, hi⟩) ∧
      ∀ a, a < off ∨ off + h * stride ≤ a → b a = buf a := by
  induction h with
  | zero => exact ⟨fun j hj => absurd hj (Nat.not_lt_zero j), fun _ _ => rfl⟩
  | succ h ih =>
      obtain ⟨hrows, hrest⟩ := ih fun j hj => hsrc j (hj.trans (Nat.lt_succ_self h))
      have hlen := hsrc h (Nat.lt_succ_self h)
      simp only [List.range_succ, List.foldl_append, List.foldl_cons, List.foldl_nil]
      refine ⟨fun j hj i hi => ?_, fun a ha => ?_⟩
      · obtain hj' | rfl := Nat.lt_succ_iff_lt_or_eq.mp hj
        · have hroom : (j + 1) * stride ≤ h * stride := Nat.mul_le_mul_right stride hj'
          have hwidth := hsrc j hj
          rw [Nat.succ_mul] at hroom
          rw [blit_of_lt (by omega)]
          exact hrows j hj' i hi
        · exact blit_add hi
      · rw [Nat.succ_mul] at ha
        obtain ha | ha := ha
        · rw [blit_of_lt (by omega)]
          exact hrest a (.inl ha)
        · rw [blit_of_le (by omega)]
          exact hrest a (.inr (by omega))

end Lib
