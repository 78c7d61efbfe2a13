import Mathlib.Algebra.BigOperators.Intervals
import Mathlib.Data.Bool.Count
import Mathlib.Data.List.GetD
import Sremfb.Kvm.Diff

/-!
# Dirty tiles, neither more nor fewer (`diff.c`)

The comparison keeps a counter, `clean`, by which a row of tiles is left early and the dirty tiles
are counted (`kvmDiffCounted`); the counter is always the number of clean tiles, so the loops give
the tiles of `kvmDiff` and their number.  A tile is dirty exactly when a byte of one of its pixels
differs (`TileChanged`), the edges of the frame included.

The runs of a row are disjoint and hold dirty tiles only.  A rectangle grows by the run right below
it, so it stays disjoint from the others and what is gathered is, pixel for pixel, what was seen:
that is `Gathered.Exact`, kept until the merge overflows.
-/

namespace Sremfb

open Lib

namespace KvmFormat

section Loops

variable (f : KvmFormat) (t : ℕ)

/-- A tile on one row of pixels; `s` is the row of tiles with `clean`. -/
def diffTile (cur prev : Bytes) (y : ℕ) (s : List Bool × ℤ) (tx : ℕ) : List Bool × ℤ :=
  if s.1.getD tx false then s
  else if f.tileDiffers t cur prev y tx then (s.1.set tx true, s.2 - 1)
  else s

/-- A row of pixels; with `clean` down to zero the loop has ended. -/
def diffPixels (cur prev : Bytes) (s : List Bool × ℤ) (y : ℕ) : List Bool × ℤ :=
  if 0 < s.2 then (List.range (f.tilesX t)).foldl (f.diffTile t cur prev y) s else s

/-- A row of tiles. -/
def diffTiles (cur prev : Bytes) (ty : ℕ) : List Bool × ℤ :=
  let y0 := ty * t
  let y1 := min (y0 + t) f.srcH.toNat
  (List.range' y0 (y1 - y0)).foldl (f.diffPixels t cur prev)
    (List.replicate (f.tilesX t) false, f.tilesX t)

/-- `sremfb_kvm_diff` with its counter: `tile_dirty` and the result. -/
def kvmDiffCounted (cur : Bytes) (prev : Option Bytes) : List (List Bool) × ℤ :=
  if f.tilesX t * f.tilesY t = 0 then ([], 0)
  else
    match prev with
    | none => (List.replicate (f.tilesY t) (List.replicate (f.tilesX t) true),
        f.tilesX t * f.tilesY t)
    | some prev => (List.range (f.tilesY t)).foldl
        (fun s ty =>
          let (row, clean) := f.diffTiles t cur prev ty
          (s.1 ++ [row], s.2 + (f.tilesX t - clean)))
        ([], 0)

/-- Some byte of a pixel of the tile differs. -/
def TileChanged (cur prev : Bytes) (tx ty : ℕ) : Prop :=
  ∃ x y k, (x < f.srcW.toNat ∧ x / t = tx) ∧ (y < f.srcH.toNat ∧ y / t = ty) ∧
    k < f.srcFourcc.srcBpp ∧
    cur (y * f.stride + x * f.srcFourcc.srcBpp + k) ≠
      prev (y * f.stride + x * f.srcFourcc.srcBpp + k)

/-- The pixel lies in the frame, in a dirty tile. -/
def DirtyPixel (dirty : List (List Bool)) (x y : ℤ) : Prop :=
  (Rect.full f.srcW f.srcH).Mem x y ∧ tileAt dirty (x.toNat / t) (y.toNat / t) = true

/-- `overflow` at the end of `sremfb_kvm_rects`. -/
def rectsOverflow (dirty : List (List Bool)) (most : ℕ) : Bool :=
  ((f.runRects t dirty).foldl (Gathered.add most) { bb := ⟨f.srcW, f.srcH, 0, 0⟩ }).overflow

end Loops

variable {f : KvmFormat} {t : ℕ}

/-! ## The counter -/

lemma ext_getD {row row' : List Bool} (hlen : row.length = row'.length)
    (h : ∀ tx < row.length, row.getD tx false = row'.getD tx false) : row = row' := by
  refine List.ext_getElem hlen fun tx h₁ h₂ => ?_
  have := h tx h₁
  rwa [List.getD_eq_getElem _ _ h₁, List.getD_eq_getElem _ _ h₂] at this

/-- The state of a row of tiles: `clean` counts the clean ones. -/
def Counted (s : List Bool × ℤ) : Prop := s.2 = s.1.count false

/-- One tile is compared, and counted when it becomes dirty. -/
lemma diffTile_spec {cur prev : Bytes} {y : ℕ} {s : List Bool × ℤ} (hs : Counted s) {k : ℕ}
    (hk : k < s.1.length) : Counted (f.diffTile t cur prev y s k) ∧
      (f.diffTile t cur prev y s k).1.length = s.1.length ∧
      ∀ tx, (f.diffTile t cur prev y s k).1.getD tx false =
        (s.1.getD tx false || (decide (tx = k) && f.tileDiffers t cur prev y tx)) := by
  have hget : s.1.getD k false = s.1[k] := List.getD_eq_getElem _ _ hk
  unfold diffTile
  split <;> rename_i hset
  · -- dirty already
    refine ⟨hs, rfl, fun tx => ?_⟩
    by_cases htx : tx = k
    · rw [htx, hset, Bool.true_or]
    · rw [decide_eq_false htx, Bool.false_and, Bool.or_false]
  split <;> rename_i hdiff
  · have hclean : s.1[k] = false := by
      rw [hget] at hset
      exact Bool.eq_false_of_not_eq_true hset
    refine ⟨?_, List.length_set, fun tx => ?_⟩
    · have hpos : 0 < s.1.count false := List.count_pos_iff.mpr (hclean ▸ List.getElem_mem hk)
      unfold Counted at hs ⊢
      rw [List.count_set hk, hclean, hs, if_pos (beq_self_eq_true false), if_neg (by decide)]
      omega
    · by_cases htx : tx = k
      · rw [htx, decide_eq_true rfl, hdiff, Bool.true_and, Bool.or_true]
        simp [List.getD_eq_getElem?_getD, hk]
      · rw [decide_eq_false htx, Bool.false_and, Bool.or_false]
        simp [List.getD_eq_getElem?_getD, List.getElem?_set_ne (Ne.symm htx)]
  · refine ⟨hs, rfl, fun tx => ?_⟩
    by_cases htx : tx = k
    · rw [htx, Bool.eq_false_of_not_eq_true hdiff, Bool.and_false, Bool.or_false]
    · rw [decide_eq_false htx, Bool.false_and, Bool.or_false]

/-- The tiles before column `k` have been compared on this row of pixels. -/
lemma foldl_diffTile {cur prev : Bytes} {y : ℕ} {s : List Bool × ℤ} (hs : Counted s) {k : ℕ}
    (hk : k ≤ s.1.length) {s' : List Bool × ℤ}
    (h : s' = (List.range k).foldl (f.diffTile t cur prev y) s) :
    Counted s' ∧ s'.1.length = s.1.length ∧ ∀ tx, s'.1.getD tx false =
      (s.1.getD tx false || (decide (tx < k) && f.tileDiffers t cur prev y tx)) := by
  induction k generalizing s' with
  | zero =>
      subst h
      exact ⟨hs, rfl, fun tx => by simp⟩
  | succ k ih =>
      rw [List.range_succ, List.foldl_append, List.foldl_cons, List.foldl_nil] at h
      obtain ⟨hcount, hlen, hget⟩ := ih (by omega) rfl
      obtain ⟨hcount', hlen', hget'⟩ := diffTile_spec (f := f) (t := t) hcount (k := k) (by omega)
      subst h
      refine ⟨hcount', hlen'.trans hlen, fun tx => ?_⟩
      have hsucc : decide (tx < k + 1) = (decide (tx < k) || decide (tx = k)) := by
        rw [← Bool.decide_or]
        exact decide_eq_decide.mpr Nat.lt_succ_iff_lt_or_eq
      rw [hget', hget, hsucc, Bool.and_or_distrib_right, Bool.or_assoc]

/-- A row of pixels with the counter is `diffLine`. -/
lemma diffPixels_eq (cur prev : Bytes) {s : List Bool × ℤ} (hs : Counted s)
    (hlen : s.1.length = f.tilesX t) (y : ℕ) :
    (f.diffPixels t cur prev s y).1 = f.diffLine t cur prev s.1 y ∧
      Counted (f.diffPixels t cur prev s y) := by
  unfold diffPixels
  split <;> rename_i hclean
  · obtain ⟨hcount, hlen', hget⟩ := foldl_diffTile hs hlen.ge
      (Eq.refl ((List.range (f.tilesX t)).foldl (f.diffTile t cur prev y) s))
    refine ⟨ext_getD ?_ fun tx htx => ?_, hcount⟩
    · rw [hlen', length_diffLine]
    · rw [hlen'] at htx
      rw [hget tx, diffLine_getD htx, decide_eq_true (hlen ▸ htx), Bool.true_and]
  · refine ⟨?_, hs⟩
    unfold Counted at hs
    rw [diffLine, if_pos (by omega)]

lemma foldl_diffPixels {cur prev : Bytes} (ys : List ℕ) {s : List Bool × ℤ} (hs : Counted s)
    (hlen : s.1.length = f.tilesX t) :
    (ys.foldl (f.diffPixels t cur prev) s).1 = ys.foldl (f.diffLine t cur prev) s.1 ∧
      Counted (ys.foldl (f.diffPixels t cur prev) s) := by
  induction ys generalizing s with
  | nil => exact ⟨rfl, hs⟩
  | cons y ys ih =>
      obtain ⟨heq, hcount⟩ := diffPixels_eq cur prev hs hlen y
      rw [List.foldl_cons, List.foldl_cons, ← heq]
      exact ih hcount (by rw [heq, length_diffLine, hlen])

/-- A row of tiles with the counter is `diffRow`. -/
lemma diffTiles_eq (cur prev : Bytes) (ty : ℕ) :
    (f.diffTiles t cur prev ty).1 = f.diffRow t cur prev ty ∧
      Counted (f.diffTiles t cur prev ty) :=
  foldl_diffPixels _ (by simp [Counted]) List.length_replicate

lemma length_diffRow (cur prev : Bytes) (ty : ℕ) :
    (f.diffRow t cur prev ty).length = f.tilesX t := by
  have hfold : ∀ (ys : List ℕ) (row : List Bool),
      (ys.foldl (f.diffLine t cur prev) row).length = row.length := by
    intro ys
    induction ys with
    | nil => exact fun _ => rfl
    | cons y ys ih => exact fun row => (ih _).trans (length_diffLine cur prev row y)
  exact (hfold _ _).trans List.length_replicate

lemma length_of_mem_kvmDiff {cur : Bytes} {prev : Option Bytes} {row : List Bool}
    (h : row ∈ f.kvmDiff t cur prev) : row.length = f.tilesX t := by
  cases prev with
  | none =>
      rw [(List.mem_replicate.mp h).2]
      exact List.length_replicate
  | some prev =>
      obtain ⟨ty, -, rfl⟩ := List.mem_map.mp h
      exact length_diffRow cur prev ty

/-- **The loops with their counter give the dirty tiles and how many they are.** -/
lemma kvmDiffCounted_eq (cur : Bytes) (prev : Option Bytes) (h : f.tilesX t * f.tilesY t ≠ 0) :
    f.kvmDiffCounted t cur prev =
      (f.kvmDiff t cur prev, ((f.kvmDiff t cur prev).flatten.count true : ℤ)) := by
  unfold kvmDiffCounted
  rw [if_neg h]
  cases prev with
  | none =>
      refine Prod.ext rfl ?_
      simp [kvmDiff, Nat.mul_comm]
  | some prev =>
      have hfold : ∀ (tys : List ℕ) (s : List (List Bool) × ℤ),
          tys.foldl (fun s ty =>
            let (row, clean) := f.diffTiles t cur prev ty
            (s.1 ++ [row], s.2 + (f.tilesX t - clean))) s =
          (s.1 ++ tys.map (f.diffRow t cur prev),
            s.2 + ((tys.map (f.diffRow t cur prev)).flatten.count true : ℕ)) := by
        intro tys
        induction tys with
        | nil => exact fun s => by simp
        | cons ty tys ih =>
            intro s
            obtain ⟨hrow, hcount⟩ := diffTiles_eq (f := f) (t := t) cur prev ty
            have htotal := List.count_true_add_count_false (f.diffRow t cur prev ty)
            rw [length_diffRow] at htotal
            unfold Counted at hcount
            rw [hrow] at hcount
            rw [List.foldl_cons, ih]
            refine Prod.ext (by simp [hrow]) ?_
            simp only [List.map_cons, List.flatten_cons, List.count_append]
            push_cast
            omega
      simpa [kvmDiff] using hfold (List.range (f.tilesY t)) ([], 0)

/-! ## A tile is dirty when one of its bytes differs -/

lemma srcBpp_pos (c : Fourcc) : 0 < c.srcBpp := by
  cases c <;> decide

/-- `memcmp` of a tile sees the bytes of its pixels on the row. -/
lemma tileDiffers_iff (ht : 0 < t) {cur prev : Bytes} {y tx : ℕ} :
    f.tileDiffers t cur prev y tx = true ↔
      ∃ x k, (x < f.srcW.toNat ∧ x / t = tx) ∧ k < f.srcFourcc.srcBpp ∧
        cur (y * f.stride + x * f.srcFourcc.srcBpp + k) ≠
          prev (y * f.stride + x * f.srcFourcc.srcBpp + k) := by
  have hbpp := srcBpp_pos f.srcFourcc
  unfold tileDiffers
  dsimp only
  set bpp := f.srcFourcc.srcBpp
  rw [List.any_eq_true]
  simp only [List.mem_range, bne_iff_ne]
  constructor
  · rintro ⟨i, hi, hne⟩
    have hcol : i / bpp < min (tx * t + t) f.srcW.toNat - tx * t :=
      Nat.div_lt_of_lt_mul (by rwa [Nat.mul_comm])
    have hmod := Nat.div_add_mod' i bpp
    generalize i / bpp = q at hcol hmod
    refine ⟨tx * t + q, i % bpp, ⟨by omega, ?_⟩, Nat.mod_lt _ hbpp, ?_⟩
    · exact Nat.div_eq_of_lt_le (by omega) (by rw [Nat.succ_mul]; omega)
    · have hat : y * f.stride + (tx * t + q) * bpp + i % bpp = y * f.stride + tx * t * bpp + i := by
        rw [Nat.add_mul]
        omega
      rwa [hat]
  · rintro ⟨x, k, ⟨hx, rfl⟩, hk, hne⟩
    obtain ⟨-, hlow, hhigh⟩ := tile_of_lt ht hx
    set a := x / t * t
    refine ⟨(x - a) * bpp + k, ?_, ?_⟩
    · calc (x - a) * bpp + k < (x - a) * bpp + bpp := by omega
        _ = (x - a + 1) * bpp := (Nat.succ_mul _ _).symm
        _ ≤ (min (a + t) f.srcW.toNat - a) * bpp := Nat.mul_le_mul_right _ (by omega)
    · have hat : y * f.stride + a * bpp + ((x - a) * bpp + k) = y * f.stride + x * bpp + k := by
        have : a * bpp + (x - a) * bpp = x * bpp := by rw [← Nat.add_mul, Nat.add_sub_cancel' hlow]
        omega
      rwa [hat]

/-- **A tile is dirty when a byte of one of its pixels differs**, or there is no frame before. -/
lemma dirty_iff (ht : 0 < t) {cur : Bytes} {prev : Option Bytes} {tx ty : ℕ}
    (htx : tx < f.tilesX t) (hty : ty < f.tilesY t) :
    tileAt (f.kvmDiff t cur prev) tx ty = true ↔ ∀ p ∈ prev, f.TileChanged t cur p tx ty := by
  cases prev with
  | none =>
      have : tileAt (f.kvmDiff t cur none) tx ty = true := by simp [tileAt, kvmDiff, htx, hty]
      exact iff_of_true this fun p hp => absurd hp (by simp)
  | some prev =>
      rw [tileAt_kvmDiff htx hty, List.any_eq_true]
      constructor
      · rintro ⟨y, hy, hdiff⟩ p hp
        obtain rfl := Option.some.inj hp
        obtain ⟨hlow, hhigh⟩ := List.mem_range'_1.mp hy
        obtain ⟨x, k, hx, hk, hne⟩ := (tileDiffers_iff ht).mp hdiff
        refine ⟨x, y, k, hx, ⟨by omega, ?_⟩, hk, hne⟩
        exact Nat.div_eq_of_lt_le hlow (by rw [Nat.succ_mul]; omega)
      · intro h
        obtain ⟨x, y, k, hx, ⟨hy, rfl⟩, hk, hne⟩ := h prev rfl
        obtain ⟨-, hlow, hhigh⟩ := tile_of_lt ht hy
        exact ⟨y, List.mem_range'_1.mpr (by omega), (tileDiffers_iff ht).mpr ⟨x, k, hx, hk, hne⟩⟩

lemma count_true_eq (row : List Bool) :
    row.count true = ∑ tx ∈ Finset.range row.length, if row.getD tx false = true then 1 else 0 := by
  induction row with
  | nil => rfl
  | cons d row ih =>
      rw [List.length_cons, Finset.sum_range_succ', List.count_cons, ih]
      cases d <;> simp

lemma count_flatten_eq (dirty : List (List Bool)) : dirty.flatten.count true =
    ∑ ty ∈ Finset.range dirty.length, (dirty.getD ty []).count true := by
  induction dirty with
  | nil => rfl
  | cons row dirty ih =>
      rw [List.length_cons, Finset.sum_range_succ', List.flatten_cons, List.count_append, ih]
      simp [Nat.add_comm]

/-- The tiles of the map that are dirty. -/
lemma card_dirty {dirty : List (List Bool)} {m n : ℕ} (hlen : dirty.length = n)
    (hrow : ∀ row ∈ dirty, row.length = m) : dirty.flatten.count true =
      ((Finset.range m ×ˢ Finset.range n).filter fun p => tileAt dirty p.1 p.2 = true).card := by
  rw [Finset.card_filter, Finset.sum_product_right, count_flatten_eq, hlen]
  refine Finset.sum_congr rfl fun ty hty => ?_
  have hty' : ty < dirty.length := hlen ▸ Finset.mem_range.mp hty
  have hmem : dirty.getD ty [] ∈ dirty := by
    rw [List.getD_eq_getElem _ _ hty']
    exact List.getElem_mem hty'
  rw [count_true_eq, hrow _ hmem]
  rfl

/-! ## The runs of a row are disjoint -/

/-- A run is not empty and ends with the row. -/
lemma bounds_of_mem_dirtyRuns {row : List Bool} {tx : ℕ} {start : Option ℕ}
    (hstart : ∀ a ∈ start, a < tx) {run : ℕ × ℕ} (h : run ∈ dirtyRuns tx start row) :
    start.getD tx ≤ run.1 ∧ run.1 < run.2 ∧ run.2 ≤ tx + row.length := by
  induction row generalizing tx start with
  | nil =>
      cases start with
      | none => cases h
      | some a =>
          obtain rfl := List.mem_singleton.mp h
          exact ⟨le_rfl, hstart a rfl, le_rfl⟩
  | cons d row ih =>
      rw [List.length_cons]
      cases d with
      | true =>
          have hopen : ∀ a ∈ some (start.getD tx), a < tx + 1 := by
            intro a ha
            obtain rfl := Option.some.inj ha
            cases start with
            | none => exact Nat.lt_succ_self tx
            | some a => exact Nat.lt_succ_of_lt (hstart a rfl)
          obtain ⟨h₁, h₂, h₃⟩ := ih hopen h
          exact ⟨h₁, h₂, by omega⟩
      | false =>
          have hrest : run ∈ dirtyRuns (tx + 1) none row →
              tx + 1 ≤ run.1 ∧ run.1 < run.2 ∧ run.2 ≤ tx + 1 + row.length :=
            @ih (tx + 1) none (fun a ha => absurd ha (by simp))
          cases start with
          | none =>
              obtain ⟨h₁, h₂, h₃⟩ := hrest h
              exact ⟨(Nat.le_succ tx).trans h₁, h₂, by omega⟩
          | some a =>
              have ha := hstart a rfl
              rcases List.mem_cons.mp h with rfl | h
              · exact ⟨le_rfl, ha, by omega⟩
              · obtain ⟨h₁, h₂, h₃⟩ := hrest h
                exact ⟨by rw [Option.getD_some]; omega, h₂, by omega⟩

/-- A run holds dirty tiles only. -/
lemma dirty_of_mem_dirtyRuns {row : List Bool} {tx : ℕ} {start : Option ℕ} {run : ℕ × ℕ}
    (h : run ∈ dirtyRuns tx start row) {j : ℕ} (hlow : run.1 ≤ tx + j) (hhigh : tx + j < run.2) :
    row.getD j false = true := by
  induction row generalizing tx start j with
  | nil =>
      cases start with
      | none => cases h
      | some a =>
          obtain rfl := List.mem_singleton.mp h
          dsimp only at hhigh
          omega
  | cons d row ih =>
      cases d with
      | true =>
          cases j with
          | zero => rfl
          | succ j =>
              have hrest : run ∈ dirtyRuns (tx + 1) (some (start.getD tx)) row := h
              exact ih hrest (by omega) (by omega)
      | false =>
          have hrest : run ∈ dirtyRuns (tx + 1) none row → (false :: row).getD j false = true := by
            intro hrun
            have hle : tx + 1 ≤ run.1 :=
              (bounds_of_mem_dirtyRuns (fun a ha => absurd ha (by simp)) hrun).1
            cases j with
            | zero => omega
            | succ j => exact ih hrun (by omega) (by omega)
          cases start with
          | none => exact hrest h
          | some a =>
              rcases List.mem_cons.mp h with rfl | h
              · dsimp only at hhigh
                omega
              · exact hrest h

lemma pairwise_dirtyRuns (row : List Bool) (tx : ℕ) (start : Option ℕ) :
    (dirtyRuns tx start row).Pairwise fun a b => a.2 ≤ b.1 := by
  induction row generalizing tx start with
  | nil =>
      cases start with
      | none => exact .nil
      | some a => exact List.pairwise_singleton _ _
  | cons d row ih =>
      cases d with
      | true => exact ih (tx + 1) _
      | false =>
          cases start with
          | none => exact ih (tx + 1) none
          | some a =>
              refine List.pairwise_cons.mpr ⟨fun run hrun => ?_, ih (tx + 1) none⟩
              have : tx + 1 ≤ run.1 :=
                (bounds_of_mem_dirtyRuns (fun a ha => absurd ha (by simp)) hrun).1
              exact (Nat.le_succ tx).trans this

/-- The pixels of a run are those of its tiles in the frame. -/
lemma tile_of_mem_runRect (ht : 0 < t) {ty : ℕ} {run : ℕ × ℕ} {x y : ℤ}
    (h : (f.runRect t ty run).Mem x y) : (Rect.full f.srcW f.srcH).Mem x y ∧
      (run.1 ≤ x.toNat / t ∧ x.toNat / t < run.2) ∧ y.toNat / t = ty := by
  obtain ⟨hx₁, hx₂, hy₁, hy₂⟩ := h
  dsimp only [runRect] at hx₁ hx₂ hy₁ hy₂
  lift x to ℕ using (Int.natCast_nonneg _).trans hx₁
  lift y to ℕ using (Int.natCast_nonneg _).trans hy₁
  rw [Int.toNat_natCast, Int.toNat_natCast]
  refine ⟨Rect.mem_full.mpr (by omega), ⟨?_, ?_⟩, ?_⟩
  · exact (Nat.le_div_iff_mul_le ht).mpr (by omega)
  · exact (Nat.div_lt_iff_lt_mul ht).mpr (by omega)
  · exact Nat.div_eq_of_lt_le (by omega) (by rw [Nat.succ_mul]; omega)

/-- A rectangle of the list is the run of a row. -/
lemma exists_run_of_mem {dirty : List (List Bool)} {r : Rect} (hr : r ∈ f.runRects t dirty) :
    ∃ ty < dirty.length, ∃ run ∈ dirtyRuns 0 none (dirty.getD ty []), r = f.runRect t ty run := by
  obtain ⟨⟨row, ty⟩, hrow, hr⟩ := List.mem_flatMap.mp hr
  obtain ⟨run, hrun, rfl⟩ := List.mem_map.mp hr
  obtain ⟨hty, hget⟩ := List.mem_zipIdx' hrow
  exact ⟨ty, hty, run, by rwa [List.getD_eq_getElem _ _ hty, ← hget], rfl⟩

lemma inside_runRects (ht : 0 < t) {dirty : List (List Bool)} (hlen : dirty.length = f.tilesY t)
    (hrow : ∀ row ∈ dirty, row.length = f.tilesX t) {r : Rect} (hr : r ∈ f.runRects t dirty) :
    r.Inside f.srcW f.srcH := by
  obtain ⟨ty, hty, run, hrun, rfl⟩ := exists_run_of_mem hr
  obtain ⟨-, hlt, hend⟩ := bounds_of_mem_dirtyRuns (fun a ha => absurd ha (by simp)) hrun
  rw [List.getD_eq_getElem _ _ hty, hrow _ (List.getElem_mem hty), Nat.zero_add] at hend
  have hx := mul_lt_of_lt_tiles ht (w := f.srcW) (hlt.trans_le hend)
  have hy := mul_lt_of_lt_tiles ht (w := f.srcH) (hty.trans_eq hlen)
  have hwide : run.1 * t < run.2 * t := Nat.mul_lt_mul_of_pos_right hlt ht
  refine ⟨?_, ?_, ?_, ?_, ?_, ?_⟩ <;> dsimp only [runRect] <;> omega

/-- The rectangles of the runs are the dirty tiles. -/
lemma exists_mem_runRects_iff (ht : 0 < t) {dirty : List (List Bool)} (x y : ℤ) :
    (∃ r ∈ f.runRects t dirty, r.Mem x y) ↔ f.DirtyPixel t dirty x y := by
  constructor
  · rintro ⟨r, hr, hm⟩
    obtain ⟨ty, hty, run, hrun, rfl⟩ := exists_run_of_mem hr
    obtain ⟨hfull, ⟨hlow, hhigh⟩, rfl⟩ := tile_of_mem_runRect ht hm
    refine ⟨hfull, dirty_of_mem_dirtyRuns hrun ?_ ?_⟩
    · rwa [Nat.zero_add]
    · rwa [Nat.zero_add]
  · rintro ⟨hfull, hd⟩
    obtain ⟨hx, hxw, hy, hyh⟩ := Rect.mem_full.mp hfull
    lift x to ℕ using hx
    lift y to ℕ using hy
    exact mem_runRects ht (by omega) (by omega) hd

lemma pairwise_runRects (ht : 0 < t) (dirty : List (List Bool)) :
    (f.runRects t dirty).Pairwise Rect.Apart := by
  rw [runRects, List.pairwise_flatMap]
  constructor
  · -- two runs of one row
    rintro ⟨row, ty⟩ -
    refine List.pairwise_map.mpr ((pairwise_dirtyRuns row 0 none).imp fun hle x y ha hb => ?_)
    obtain ⟨-, ⟨-, ha⟩, -⟩ := tile_of_mem_runRect ht ha
    obtain ⟨-, ⟨hb, -⟩, -⟩ := tile_of_mem_runRect ht hb
    omega
  · -- runs of two rows
    have hidx : dirty.zipIdx.Pairwise fun p q => p.2 < q.2 := by
      rw [← List.pairwise_map (f := Prod.snd) (R := (· < ·)), List.zipIdx_map_snd]
      exact List.pairwise_lt_range'
    refine hidx.imp fun {p q} hlt r hr s hs x y ha hb => ?_
    obtain ⟨run, -, rfl⟩ := List.mem_map.mp hr
    obtain ⟨run', -, rfl⟩ := List.mem_map.mp hs
    obtain ⟨-, -, ha⟩ := tile_of_mem_runRect ht ha
    obtain ⟨-, -, hb⟩ := tile_of_mem_runRect ht hb
    omega

/-! ## What is gathered is what was seen -/

/-- The rectangles are in the frame, and until the merge overflows they are what was seen. -/
structure Gathered.Exact (f : KvmFormat) (most : ℕ) (g : Gathered) (seen : List Rect) : Prop where
  inside : ∀ q ∈ g.out, q.Inside f.srcW f.srcH
  few : g.out.length ≤ most
  box : (seen = [] ∧ g.overflow = false ∧ g.bb = ⟨f.srcW, f.srcH, 0, 0⟩) ∨
    g.bb.Inside f.srcW f.srcH
  inBox : ∀ r ∈ seen, ∀ x y, r.Mem x y → g.bb.Mem x y
  apart : g.overflow = false → g.out.Pairwise Rect.Apart
  same : g.overflow = false → ∀ x y, (∃ q ∈ g.out, q.Mem x y) ↔ ∃ r ∈ seen, r.Mem x y

/-- The grown rectangle is apart from the others when both its parts are. -/
lemma Below.pairwise {q r : Rect} (h : Below q r) (hq : q.y1 ≤ q.y2) (hr : r.y1 ≤ r.y2)
    {pre post : List Rect} (hpair : (pre ++ q :: post).Pairwise Rect.Apart)
    (hfar : ∀ p ∈ pre ++ q :: post, r.Apart p) :
    (pre ++ { q with y2 := r.y2 } :: post).Pairwise Rect.Apart := by
  rw [List.pairwise_middle Rect.Apart.symm, List.pairwise_cons] at hpair ⊢
  obtain ⟨hq', hrest⟩ := hpair
  refine ⟨fun p hp x y hm => ?_, hrest⟩
  rcases (h.mem_iff hq hr x y).mp hm with hm | hm
  · exact hq' p hp x y hm
  · refine hfar p ?_ x y hm
    rcases List.mem_append.mp hp with hp | hp
    · exact List.mem_append_left _ hp
    · exact List.mem_append_right _ (List.mem_cons_of_mem _ hp)

lemma Gathered.Exact.add {most : ℕ} {g : Gathered} {seen : List Rect} (hg : g.Exact f most seen)
    {r : Rect} (hr : r.Inside f.srcW f.srcH) (hnew : ∀ s ∈ seen, s.Apart r) :
    (g.add most r).Exact f most (r :: seen) := by
  obtain ⟨hbb, hcases⟩ := add_cases (rfl : g.add most r = g.add most r)
  set g' := g.add most r
  have hbox : g'.bb.Inside f.srcW f.srcH := by
    rw [hbb]
    rcases hg.box with ⟨-, -, h⟩ | h
    · simp only [h, Rect.union, Rect.Inside] at hr ⊢
      omega
    · exact h.union hr
  have hin : ∀ q ∈ r :: seen, ∀ x y, q.Mem x y → g'.bb.Mem x y := by
    rw [hbb]
    exact mem_box_cons hg.inBox
  -- the new one is apart from what is kept: its pixels have been seen in no other
  have hfar : g.overflow = false → ∀ p ∈ g.out, r.Apart p := by
    intro hover p hp x y hm hm'
    obtain ⟨s, hs, hms⟩ := (hg.same hover x y).mp ⟨p, hp, hm'⟩
    exact hnew s hs x y hms hm
  have hseen : ∀ x y, (∃ s ∈ r :: seen, s.Mem x y) ↔ (∃ s ∈ seen, s.Mem x y) ∨ r.Mem x y := by
    intro x y
    rw [List.exists_mem_cons_iff, or_comm]
  rcases hcases with ⟨-, hover, hout⟩ | ⟨hover, -, pre, q, post, hq, hfit, hout⟩ |
    ⟨hover, -, hroom, hout⟩ | ⟨-, hover, -, hout⟩
  · have hno : ¬ g'.overflow = false := by simp [hover]
    exact ⟨hout ▸ hg.inside, hout ▸ hg.few, .inr hbox, hin, fun h => absurd h hno,
      fun h => absurd h hno⟩
  · -- it prolongs `q`
    have hinside := hg.inside
    have hfew := hg.few
    have hsame := hg.same hover
    have hapart := hg.apart hover
    have hfar := hfar hover
    rw [hq] at hinside hfew hsame hapart hfar
    have hqin := hinside q (by simp)
    have hqtall : q.y1 ≤ q.y2 := hqin.2.2.2.2.1.le
    have hrtall : r.y1 ≤ r.y2 := hr.2.2.2.2.1.le
    refine ⟨?_, by simpa [hout] using hfew, .inr hbox, hin, fun _ => ?_, fun _ x y => ?_⟩
    · rw [hout]
      refine forall_mem_grown hinside fun _ => ?_
      obtain ⟨h₁, h₂, h₃, h₄, h₅, h₆⟩ := hqin
      exact ⟨h₁, h₂, h₃, h₄, (h₅.trans_eq hfit.1).trans hr.2.2.2.2.1, hr.2.2.2.2.2⟩
    · rw [hout]
      exact hfit.pairwise hqtall hrtall hapart hfar
    · rw [hout, hfit.exists_mem_iff hqtall hrtall, hsame, hseen]
  · -- there is room
    refine ⟨?_, ?_, .inr hbox, hin, fun _ => ?_, fun _ x y => ?_⟩
    · rw [hout]
      exact List.forall_mem_cons.mpr ⟨hr, hg.inside⟩
    · rw [hout]
      exact hroom
    · rw [hout]
      exact List.pairwise_cons.mpr ⟨hfar hover, hg.apart hover⟩
    · rw [hout, hseen, List.exists_mem_cons_iff, hg.same hover, or_comm]
  · have hno : ¬ g'.overflow = false := by simp [hover]
    exact ⟨hout ▸ hg.inside, hout ▸ hg.few, .inr hbox, hin, fun h => absurd h hno,
      fun h => absurd h hno⟩

lemma Gathered.Exact.foldl {most : ℕ} {rects : List Rect}
    (hin : ∀ r ∈ rects, r.Inside f.srcW f.srcH) (hpair : rects.Pairwise Rect.Apart) {g : Gathered}
    {seen : List Rect} (hfar : ∀ s ∈ seen, ∀ r ∈ rects, s.Apart r) (hg : g.Exact f most seen) :
    (rects.foldl (Gathered.add most) g).Exact f most (rects.reverse ++ seen) := by
  induction rects generalizing g seen with
  | nil => exact hg
  | cons r rects ih =>
      obtain ⟨hr, hrest⟩ := List.pairwise_cons.mp hpair
      have hnext := hg.add (hin r (List.mem_cons_self ..))
        fun s hs => hfar s hs r (List.mem_cons_self ..)
      have hfar' : ∀ s ∈ r :: seen, ∀ q ∈ rects, s.Apart q :=
        List.forall_mem_cons.mpr
          ⟨hr, fun s hs q hq => hfar s hs q (List.mem_cons_of_mem _ hq)⟩
      simpa using ih (fun q hq => hin q (List.mem_cons_of_mem _ hq)) hrest hfar' hnext

/-- **The rectangles of a dirty map**: few, in the frame, over every dirty tile; and just the dirty
tiles, without overlap, when the merge has not overflowed. -/
lemma kvmRects_exact (ht : 0 < t) {dirty : List (List Bool)} (hlen : dirty.length = f.tilesY t)
    (hrow : ∀ row ∈ dirty, row.length = f.tilesX t) {most : ℕ} (hmost : 0 < most) :
    (f.kvmRects t dirty most).length ≤ most ∧
      (∀ r ∈ f.kvmRects t dirty most, r.Inside f.srcW f.srcH) ∧
      (∀ x y, f.DirtyPixel t dirty x y → ∃ r ∈ f.kvmRects t dirty most, r.Mem x y) ∧
      (f.rectsOverflow t dirty most = false →
        (f.kvmRects t dirty most).Pairwise Rect.Apart ∧
          ∀ x y, (∃ r ∈ f.kvmRects t dirty most, r.Mem x y) ↔ f.DirtyPixel t dirty x y) := by
  have hinit : Gathered.Exact f most { bb := ⟨f.srcW, f.srcH, 0, 0⟩ } [] :=
    ⟨fun q hq => absurd hq List.not_mem_nil, Nat.zero_le _, .inl ⟨rfl, rfl, rfl⟩,
      fun r hr => absurd hr List.not_mem_nil, fun _ => .nil, fun _ _ _ => Iff.rfl⟩
  have hg := hinit.foldl (fun r hr => inside_runRects ht hlen hrow hr) (pairwise_runRects ht dirty)
    fun s hs => absurd hs List.not_mem_nil
  simp only [← exists_mem_runRects_iff ht]
  unfold kvmRects rectsOverflow
  rw [if_neg (by omega)]
  dsimp only
  set g := (f.runRects t dirty).foldl (Gathered.add most) { bb := ⟨f.srcW, f.srcH, 0, 0⟩ }
  have hseen : ∀ r, r ∈ (f.runRects t dirty).reverse ++ [] ↔ r ∈ f.runRects t dirty := by simp
  split <;> rename_i hover
  · -- one box around everything
    have hbox : g.bb.Inside f.srcW f.srcH := by
      rcases hg.box with ⟨-, h, -⟩ | h
      · exact absurd (hover.symm.trans h) (by decide)
      · exact h
    refine ⟨hmost, ?_, ?_, fun h => absurd (hover.symm.trans h) (by decide)⟩
    · exact List.forall_mem_singleton.mpr hbox
    · rintro x y ⟨r, hr, hm⟩
      exact ⟨g.bb, List.mem_singleton.mpr rfl, hg.inBox r ((hseen r).mpr hr) x y hm⟩
  · rw [Bool.not_eq_true] at hover
    have hsame : ∀ x y, (∃ r ∈ g.out.reverse, r.Mem x y) ↔ ∃ r ∈ f.runRects t dirty, r.Mem x y := by
      intro x y
      simp only [List.mem_reverse, hg.same hover, hseen]
    refine ⟨?_, fun r hr => hg.inside r (List.mem_reverse.mp hr),
      fun x y hm => (hsame x y).mpr hm, fun _ => ⟨?_, hsame⟩⟩
    · rw [List.length_reverse]
      exact hg.few
    · exact List.pairwise_reverse.mpr ((hg.apart hover).imp Rect.Apart.symm)

/-! ## The two together -/

/-- The dirty tiles of a map. -/
def dirtyTiles (f : KvmFormat) (t : ℕ) (dirty : List (List Bool)) : Finset (ℕ × ℕ) :=
  (Finset.range (f.tilesX t) ×ˢ Finset.range (f.tilesY t)).filter
    fun p => tileAt dirty p.1 p.2 = true

/-- **The tile diff and its rectangles are exact.** -/
theorem diff_and_rects_exact (f : KvmFormat) (t : ℕ) (ht : 0 < t) :
    (∀ (cur : Bytes) (prev : Option Bytes),
      (∀ tx < f.tilesX t, ∀ ty < f.tilesY t,
        (tileAt (f.kvmDiffCounted t cur prev).1 tx ty = true ↔
          ∀ p ∈ prev, f.TileChanged t cur p tx ty)) ∧
      (f.kvmDiffCounted t cur prev).2 =
        (f.dirtyTiles t (f.kvmDiffCounted t cur prev).1).card) ∧
    ∀ dirty : List (List Bool), dirty.length = f.tilesY t →
      (∀ row ∈ dirty, row.length = f.tilesX t) → ∀ most, 0 < most →
      (f.kvmRects t dirty most).length ≤ most ∧
        (∀ r ∈ f.kvmRects t dirty most, r.Inside f.srcW f.srcH) ∧
        (∀ x y, f.DirtyPixel t dirty x y → ∃ r ∈ f.kvmRects t dirty most, r.Mem x y) ∧
        (f.rectsOverflow t dirty most = false →
          (f.kvmRects t dirty most).Pairwise Rect.Apart ∧
            ∀ x y, (∃ r ∈ f.kvmRects t dirty most, r.Mem x y) ↔ f.DirtyPixel t dirty x y) := by
  refine ⟨fun cur prev => ?_, fun dirty hlen hrow most hmost =>
    kvmRects_exact ht hlen hrow hmost⟩
  by_cases hgrid : f.tilesX t * f.tilesY t = 0
  · -- no tile
    have hempty : f.kvmDiffCounted t cur prev = ([], 0) := if_pos hgrid
    rw [hempty]
    refine ⟨fun tx htx ty hty => ?_, ?_⟩
    · have := Nat.mul_pos (Nat.zero_lt_of_lt htx) (Nat.zero_lt_of_lt hty)
      omega
    · simp [dirtyTiles, tileAt]
  · rw [kvmDiffCounted_eq cur prev hgrid]
    refine ⟨fun tx htx ty hty => dirty_iff ht htx hty, ?_⟩
    rw [card_dirty (length_kvmDiff cur prev) fun row hrow => length_of_mem_kvmDiff hrow]
    rfl

/-- A frame of 5 × 3 pixels in tiles of 2: the last byte of the last pixel dirties one tile, and
the rectangle of it is the pixel. -/
theorem diff_and_rects_exact_corner :
    let f : KvmFormat := { srcW := 5, srcH := 3, srcFourcc := .rgb24 }
    let d := f.kvmDiffCounted 2 (fun i => if i = 44 then 1 else 0) (some fun _ => 0)
    f.tilesX 2 = 3 ∧ f.tilesY 2 = 2 ∧ d = ([[false, false, false], [false, false, true]], 1) ∧
      f.kvmRects 2 d.1 1 = [⟨4, 2, 5, 3⟩] ∧ f.rectsOverflow 2 d.1 1 = false ∧
      (tileAt d.1 2 1 = true ↔ ∀ p ∈ some fun _ => (0 : UInt8),
        f.TileChanged 2 (fun i => if i = 44 then 1 else 0) p 2 1) ∧
      ∀ x y, (∃ r ∈ f.kvmRects 2 d.1 1, r.Mem x y) ↔ f.DirtyPixel 2 d.1 x y := by
  intro f d
  have h := diff_and_rects_exact f 2 (by decide)
  have hd : d = ([[false, false, false], [false, false, true]], 1) := by decide +kernel
  refine ⟨by decide, by decide, hd, by rw [hd]; decide +kernel, by rw [hd]; decide +kernel, ?_, ?_⟩
  · exact (h.1 _ _).1 2 (by decide) 1 (by decide)
  · rw [hd]
    exact ((h.2 _ (by decide) (by decide) 1 (by decide)).2.2.2 (by decide +kernel)).2

end KvmFormat

end Sremfb
