import Sremfb.Kvm.Convert

/-!
# Dirty tiles (`diff.c`)

A capture has no damage of its own: each frame is compared with the one before, tile by tile and
byte for byte (`kvmDiff`), and the dirty tiles are gathered into rectangles (`kvmRects`): runs of a
row, grown downwards while they keep their columns, and one bounding box when there are too many.

The two results are `diff_sound`, that the pixels of a clean tile convert to what they were, and
`kvmRects_cover`, that every dirty tile lies in a rectangle, whichever way it was gathered.  A tile
is an even number of pixels wide, so that no pair of a UYVY frame lies in two tiles.

`tile_dirty` is written whole by each comparison before it is read, so it is passed on and not kept.
-/

namespace Sremfb

open Lib

/-- `SREMFB_KVM_TILE`, as `main` accepts it. -/
structure TileSize where
  size : ℕ
  range : 16 ≤ size ∧ size ≤ 128
  even : size % 2 = 0

/-- The default. -/
def TileSize.default : TileSize := ⟨32, by decide, rfl⟩

instance : Coe TileSize ℕ := ⟨TileSize.size⟩

lemma TileSize.pos (t : TileSize) : 0 < t.size := by
  have := t.range
  omega

namespace KvmFormat

variable (f : KvmFormat) (t : ℕ)

/-- `tiles_x`, as `sremfb_kvm_tiles_alloc` computes it; a tile is `t` pixels wide. -/
def tilesX : ℕ := if 0 < f.srcW then (f.srcW.toNat + t - 1) / t else 0

/-- `tiles_y`. -/
def tilesY : ℕ := if 0 < f.srcH then (f.srcH.toNat + t - 1) / t else 0

/-- `memcmp` of a tile on one row of pixels. -/
def tileDiffers (cur prev : Bytes) (y tx : ℕ) : Bool :=
  let bpp := f.srcFourcc.srcBpp
  let x0 := tx * t
  let x1 := min (x0 + t) f.srcW.toNat
  let off := y * f.stride + x0 * bpp
  (List.range ((x1 - x0) * bpp)).any fun i => cur (off + i) != prev (off + i)

/-- One row of pixels against a row of tiles; a row of tiles that is all dirty is done. -/
def diffLine (cur prev : Bytes) (row : List Bool) (y : ℕ) : List Bool :=
  if row.count false = 0 then row
  else row.mapIdx fun tx dirty => if dirty then true else f.tileDiffers t cur prev y tx

/-- A row of tiles. -/
def diffRow (cur prev : Bytes) (ty : ℕ) : List Bool :=
  let y0 := ty * t
  let y1 := min (y0 + t) f.srcH.toNat
  (List.range' y0 (y1 - y0)).foldl (f.diffLine t cur prev) (List.replicate (f.tilesX t) false)

/-- `sremfb_kvm_diff`: the dirty tiles.  Without a frame before, all are. -/
def kvmDiff (cur : Bytes) (prev : Option Bytes) : List (List Bool) :=
  match prev with
  | none => List.replicate (f.tilesY t) (List.replicate (f.tilesX t) true)
  | some prev => (List.range (f.tilesY t)).map (f.diffRow t cur prev)

/-- The runs of dirty tiles of a row from column `tx` on; `start` opens the current one. -/
def dirtyRuns (tx : ℕ) (start : Option ℕ) : List Bool → List (ℕ × ℕ)
  | [] => match start with
      | some a => [(a, tx)]
      | none => []
  | true :: row => dirtyRuns (tx + 1) (some (start.getD tx)) row
  | false :: row => match start with
      | some a => (a, tx) :: dirtyRuns (tx + 1) none row
      | none => dirtyRuns (tx + 1) none row

/-- The rectangle of a run of tiles `[a, b)` in the row `ty`. -/
def runRect (ty : ℕ) (run : ℕ × ℕ) : Rect :=
  ⟨run.1 * t, ty * t, min (run.2 * t : ℕ) f.srcW, min (ty * t + t : ℕ) f.srcH⟩

/-- What `sremfb_kvm_rects` has gathered; `out` has the newest rectangle first. -/
structure Gathered where
  out : List Rect := []
  overflow : Bool := false
  bb : Rect

/-- Extends the newest rectangle that `r` prolongs downwards. -/
def prolong (r : Rect) : List Rect → Option (List Rect)
  | [] => none
  | q :: out =>
      if q.y2 = r.y1 ∧ q.x1 = r.x1 ∧ q.x2 = r.x2 then some ({ q with y2 := r.y2 } :: out)
      else (prolong r out).map (q :: ·)

/-- One more rectangle. -/
def Gathered.add (most : ℕ) (g : Gathered) (r : Rect) : Gathered :=
  let g := { g with bb := ⟨min g.bb.x1 r.x1, min g.bb.y1 r.y1, max g.bb.x2 r.x2, max g.bb.y2 r.y2⟩ }
  if g.overflow then g
  else
    match prolong r g.out with
    | some out => { g with out := out }
    | none =>
        if g.out.length < most then { g with out := r :: g.out } else { g with overflow := true }

/-- The runs of every row of tiles, in the order of the loops. -/
def runRects (dirty : List (List Bool)) : List Rect :=
  dirty.zipIdx.flatMap fun p => (dirtyRuns 0 none p.1).map (f.runRect t p.2)

/-- `sremfb_kvm_rects`. -/
def kvmRects (dirty : List (List Bool)) (most : ℕ) : List Rect :=
  if most = 0 then []
  else
    let g := (f.runRects t dirty).foldl (Gathered.add most) { bb := ⟨f.srcW, f.srcH, 0, 0⟩ }
    if g.overflow then [g.bb] else g.out.reverse

/-! ## The comparison is exact -/

variable {f : KvmFormat}

section AnySize

variable {t : ℕ}

lemma length_diffLine (cur prev : Bytes) (row : List Bool) (y : ℕ) :
    (f.diffLine t cur prev row y).length = row.length := by
  unfold diffLine
  split
  · rfl
  · exact List.length_mapIdx

/-- One row of pixels dirties the tiles that differ there. -/
lemma diffLine_getD {cur prev : Bytes} {row : List Bool} {y tx : ℕ} (htx : tx < row.length) :
    (f.diffLine t cur prev row y).getD tx false =
      (row.getD tx false || f.tileDiffers t cur prev y tx) := by
  have hget : row.getD tx false = row[tx] := by simp [htx]
  unfold diffLine
  split <;> rename_i hc
  · -- every tile of the row is dirty already
    have hmem : row[tx] ≠ false := by
      intro he
      exact List.count_eq_zero.mp hc (he ▸ List.getElem_mem htx)
    rw [hget, (Bool.not_eq_false _).mp hmem, Bool.true_or]
  · rw [hget]
    simp only [List.getD_eq_getElem?_getD, List.getElem?_mapIdx, List.getElem?_eq_getElem htx,
      Option.map_some, Option.getD_some]
    cases row[tx] with
    | false => rfl
    | true => rfl

/-- After some rows of pixels a tile is dirty when it was, or differs in one of them. -/
lemma foldl_diffLine {cur prev : Bytes} {tx : ℕ} (ys : List ℕ) {row : List Bool}
    (htx : tx < row.length) : (ys.foldl (f.diffLine t cur prev) row).getD tx false =
      (row.getD tx false || ys.any fun y => f.tileDiffers t cur prev y tx) := by
  induction ys generalizing row with
  | nil => exact (Bool.or_false _).symm
  | cons y ys ih =>
      rw [List.foldl_cons, ih (by rwa [length_diffLine]), diffLine_getD htx, List.any_cons,
        Bool.or_assoc]

/-- The tile that holds a pixel of the frame. -/
lemma tile_of_lt {w n : ℕ} (hn : 0 < n) {x : ℕ} (hx : x < w) :
    x / n < (w + n - 1) / n ∧ x / n * n ≤ x ∧ x < x / n * n + n := by
  refine ⟨?_, Nat.div_mul_le_self x n, ?_⟩
  · calc x / n < x / n + 1 := Nat.lt_succ_self _
      _ = (x + n) / n := (Nat.add_div_right x hn).symm
      _ ≤ (w + n - 1) / n := Nat.div_le_div_right (by omega)
  · have := Nat.lt_div_mul_add hn (a := x)
    omega

/-- A tile of the grid starts in the frame. -/
lemma mul_lt_of_lt_tiles {n : ℕ} (hn : 0 < n) {w : ℤ} {i : ℕ}
    (h : i < if 0 < w then (w.toNat + n - 1) / n else 0) : ((i * n : ℕ) : ℤ) < w := by
  split at h
  · have := (Nat.lt_div_iff_mul_lt hn).mp h
    omega
  · omega

/-- The tile of the dirty map. -/
def tileAt (dirty : List (List Bool)) (tx ty : ℕ) : Bool := (dirty.getD ty []).getD tx false

lemma length_kvmDiff (cur : Bytes) (prev : Option Bytes) :
    (f.kvmDiff t cur prev).length = f.tilesY t := by
  cases prev with
  | none => exact List.length_replicate
  | some prev => simp [kvmDiff]

/-- A tile that was compared is dirty when one of its rows of pixels differs. -/
lemma tileAt_kvmDiff {cur prev : Bytes} {tx ty : ℕ} (htx : tx < f.tilesX t)
    (hty : ty < f.tilesY t) : tileAt (f.kvmDiff t cur (some prev)) tx ty =
      (List.range' (ty * t) (min (ty * t + t) f.srcH.toNat - ty * t)).any fun y =>
        f.tileDiffers t cur prev y tx := by
  have hrow : (f.kvmDiff t cur (some prev)).getD ty [] = f.diffRow t cur prev ty := by
    simp [kvmDiff, hty]
  rw [tileAt, hrow, diffRow, foldl_diffLine _ (by simpa using htx)]
  simp [List.getD_eq_getElem?_getD, htx]

/-- A tile that `sremfb_kvm_diff` leaves clean is equal, byte for byte. -/
lemma bytes_eq_of_clean {cur prev : Bytes} {tx ty : ℕ} (htx : tx < f.tilesX t)
    (hty : ty < f.tilesY t) (hclean : tileAt (f.kvmDiff t cur (some prev)) tx ty = false) {y : ℕ}
    (hy : ty * t ≤ y ∧ y < min (ty * t + t) f.srcH.toNat) {i : ℕ}
    (hi : i < (min (tx * t + t) f.srcW.toNat - tx * t) * f.srcFourcc.srcBpp) :
    cur (y * f.stride + tx * t * f.srcFourcc.srcBpp + i) =
      prev (y * f.stride + tx * t * f.srcFourcc.srcBpp + i) := by
  rw [tileAt_kvmDiff htx hty, List.any_eq_false] at hclean
  have hsame := hclean y (List.mem_range'_1.mpr (by omega))
  rw [tileDiffers, Bool.not_eq_true, List.any_eq_false] at hsame
  have := hsame i (List.mem_range.mpr hi)
  simpa using this

end AnySize

variable {t : TileSize}

/-- **The pixels of a clean tile convert to what they were.** -/
lemma pixel_eq_of_clean {cur prev : Bytes} {x y : ℕ} (hs : f.shown.Mem x y)
    (hclean : tileAt (f.kvmDiff t cur (some prev)) (x / t.size) (y / t.size) = false) :
    f.pixel cur x y = f.pixel prev x y := by
  obtain ⟨-, hx, -, hy⟩ := Rect.mem_full.mp hs
  have hw : x < f.srcW.toNat := by
    split at hx <;> omega
  have hh : y < f.srcH.toNat := by omega
  obtain ⟨htx, hx₁, hx₂⟩ := tile_of_lt t.pos hw
  obtain ⟨hty, hy₁, hy₂⟩ := tile_of_lt t.pos hh
  have htx' : x / t.size < f.tilesX t := by
    rw [tilesX, if_pos (by omega)]
    exact htx
  have hty' : y / t.size < f.tilesY t := by
    rw [tilesY, if_pos (by omega)]
    exact hty
  have hbytes : ∀ {i}, _ → _ := fun {i} => bytes_eq_of_clean (i := i) htx' hty' hclean
    (y := y) ⟨hy₁, by omega⟩
  set a := x / t.size * t.size with ha
  have heven : a % 2 = 0 := by
    rw [ha, Nat.mul_mod, t.even, Nat.mul_zero, Nat.zero_mod]
  unfold pixel
  rw [Int.toNat_natCast, Int.toNat_natCast]
  split at hx <;> rename_i hfmt
  · -- three bytes
    have hbpp : f.srcFourcc.srcBpp = 3 := by rw [hfmt]; rfl
    have hread : ∀ k < 3, cur (y * f.stride + 3 * x + k) = prev (y * f.stride + 3 * x + k) := by
      intro k hk
      have hat : y * f.stride + 3 * x + k = y * f.stride + a * 3 + (3 * (x - a) + k) := by omega
      rw [hat]
      rw [hbpp] at hbytes
      exact hbytes (by omega)
    rw [if_pos hfmt, if_pos hfmt, rgb24Row, rgb24Row, hread 2 (by decide), hread 1 (by decide)]
    have h₀ := hread 0 (by decide)
    rw [Nat.add_zero] at h₀
    rw [h₀]
  · -- a pair: it lies in the tile, which is even, or before the cut of the last column
    have hbpp : f.srcFourcc.srcBpp = 2 := by
      cases hf : f.srcFourcc with
      | uyvy => rfl
      | rgb24 => exact absurd hf hfmt
      | other => rfl
    have hread : ∀ k < 4, cur (y * f.stride + 4 * (x / 2) + k) =
        prev (y * f.stride + 4 * (x / 2) + k) := by
      intro k hk
      have hat : y * f.stride + 4 * (x / 2) + k =
          y * f.stride + a * 2 + (4 * (x / 2) - 2 * a + k) := by omega
      rw [hat]
      rw [hbpp] at hbytes
      have := t.even
      exact hbytes (by omega)
    rw [if_neg hfmt, if_neg hfmt, uyvyRow, uyvyRow, uyvyPixel, uyvyPixel]
    have h₀ := hread 0 (by decide)
    rw [Nat.add_zero] at h₀
    rw [h₀, hread 2 (by decide)]
    cases decide (x % 2 = 1) with
    | false => simp only [Bool.false_eq_true, if_false, hread 1 (by decide)]
    | true => simp only [if_true, hread 3 (by decide)]

/-! ## The rectangles cover the dirty tiles -/

/-- The run that is open gets its end. -/
lemma mem_dirtyRuns_open (row : List Bool) (tx a : ℕ) :
    ∃ b, (a, b) ∈ dirtyRuns tx (some a) row ∧ tx ≤ b := by
  induction row generalizing tx with
  | nil => exact ⟨tx, List.mem_singleton.mpr rfl, le_rfl⟩
  | cons d row ih =>
      cases d with
      | false => exact ⟨tx, List.mem_cons_self .., le_rfl⟩
      | true =>
          obtain ⟨b, hb, hle⟩ := ih (tx + 1)
          exact ⟨b, hb, by omega⟩

/-- Every dirty tile lies in a run. -/
lemma mem_dirtyRuns (row : List Bool) (tx : ℕ) (start : Option ℕ) (hstart : ∀ a ∈ start, a ≤ tx)
    {j : ℕ} (hj : row.getD j false = true) :
    ∃ run ∈ dirtyRuns tx start row, run.1 ≤ tx + j ∧ tx + j < run.2 := by
  induction row generalizing tx start j with
  | nil => simp at hj
  | cons d row ih =>
      cases j with
      | zero =>
          obtain rfl : d = true := by simpa using hj
          obtain ⟨b, hb, hle⟩ := mem_dirtyRuns_open row (tx + 1) (start.getD tx)
          refine ⟨_, hb, ?_, by omega⟩
          cases start with
          | none => exact le_rfl
          | some a => exact hstart a rfl
      | succ j =>
          have hj' : row.getD j false = true := by simpa using hj
          cases d with
          | true =>
              have hopen : ∀ a ∈ some (start.getD tx), a ≤ tx + 1 := by
                intro a ha
                obtain rfl := Option.some.inj ha
                cases start with
                | none => exact Nat.le_succ tx
                | some a => exact Nat.le_succ_of_le (hstart a rfl)
              obtain ⟨run, hrun, h₁, h₂⟩ := ih (tx + 1) _ hopen hj'
              exact ⟨run, hrun, by omega, by omega⟩
          | false =>
              obtain ⟨run, hrun, h₁, h₂⟩ := ih (tx + 1) none
                (fun a ha => absurd ha (by simp)) hj'
              refine ⟨run, ?_, by omega, by omega⟩
              cases start with
              | none => exact hrun
              | some a => exact List.mem_cons_of_mem _ hrun

/-- The pixels of a dirty tile lie in the rectangle of a run. -/
lemma mem_runRects {n : ℕ} (hn : 0 < n) {dirty : List (List Bool)} {x y : ℕ} (hx : x < f.srcW.toNat)
    (hy : y < f.srcH.toNat) (hd : tileAt dirty (x / n) (y / n) = true) :
    ∃ r ∈ f.runRects n dirty, r.Mem x y := by
  obtain ⟨-, hx₁, hx₂⟩ := tile_of_lt hn hx
  obtain ⟨-, hy₁, hy₂⟩ := tile_of_lt hn hy
  set tx := x / n
  set ty := y / n
  have hlen : ty < dirty.length := by
    by_contra hle
    have hnone : dirty[ty]? = none := List.getElem?_eq_none (by omega)
    simp [tileAt, hnone] at hd
  have hrow : dirty.getD ty [] = dirty[ty] := by simp [hlen]
  rw [tileAt, hrow] at hd
  obtain ⟨run, hrun, h₁, h₂⟩ := mem_dirtyRuns dirty[ty] 0 none
    (fun a ha => absurd ha (by simp)) hd
  rw [Nat.zero_add] at h₁ h₂
  refine ⟨f.runRect n ty run, List.mem_flatMap.mpr ⟨(dirty[ty], ty), ?_,
    List.mem_map.mpr ⟨run, hrun, rfl⟩⟩, ?_⟩
  · exact List.mk_mem_zipIdx_iff_getElem?.mpr (List.getElem?_eq_getElem hlen)
  · have hl : run.1 * n ≤ tx * n := Nat.mul_le_mul_right _ h₁
    have hr : (tx + 1) * n ≤ run.2 * n := Nat.mul_le_mul_right _ h₂
    rw [Nat.succ_mul] at hr
    refine ⟨?_, ?_, ?_, ?_⟩ <;> dsimp only [runRect] <;> push_cast at * <;> omega

lemma atPair_min {a b : ℤ} (ha : f.AtPair a) (hb : f.AtPair b) : f.AtPair (min a b) := by
  rcases le_total a b with h | h
  · rwa [min_eq_left h]
  · rwa [min_eq_right h]

lemma atPair_max {a b : ℤ} (ha : f.AtPair a) (hb : f.AtPair b) : f.AtPair (max a b) := by
  rcases le_total a b with h | h
  · rwa [max_eq_right h]
  · rwa [max_eq_left h]

lemma atPair_tile (n : ℕ) : f.AtPair (n * t.size : ℕ) := by
  refine .inl ?_
  have : n * t.size % 2 = 0 := by rw [Nat.mul_mod, t.even, Nat.mul_zero, Nat.zero_mod]
  omega

/-- A rectangle of whole tiles. -/
structure Tiled (f : KvmFormat) (r : Rect) : Prop where
  tall : r.y1 ≤ r.y2
  aligned : f.Aligned r

lemma tiled_runRects {dirty : List (List Bool)} (hlen : dirty.length ≤ f.tilesY t) {r : Rect}
    (hr : r ∈ f.runRects t dirty) : f.Tiled r := by
  obtain ⟨⟨row, ty⟩, hrow, hr⟩ := List.mem_flatMap.mp hr
  obtain ⟨run, -, rfl⟩ := List.mem_map.mp hr
  obtain ⟨hty, -⟩ := List.mem_zipIdx' hrow
  constructor
  · have hlow := mul_lt_of_lt_tiles t.pos (w := f.srcH) (hty.trans_le hlen)
    dsimp only [runRect]
    omega
  · exact ⟨atPair_tile run.1, atPair_min (atPair_tile run.2) (.inr le_rfl)⟩

/-- The rectangle `q` ends where `r`, of the same columns, starts. -/
def Below (q r : Rect) : Prop := q.y2 = r.y1 ∧ q.x1 = r.x1 ∧ q.x2 = r.x2

/-- One rectangle grows, the others stay. -/
lemma prolong_cases {r : Rect} {out out' : List Rect} (h : prolong r out = some out') :
    ∃ pre q post, out = pre ++ q :: post ∧ Below q r ∧
      out' = pre ++ { q with y2 := r.y2 } :: post := by
  induction out generalizing out' with
  | nil => cases h
  | cons q out ih =>
      rw [prolong] at h
      split at h
      · -- `r` prolongs this one
        rename_i hfit
        exact ⟨[], q, out, rfl, hfit, (Option.some.inj h).symm⟩
      · obtain ⟨out'', hp, rfl⟩ := Option.map_eq_some_iff.mp h
        obtain ⟨pre, q', post, rfl, hfit, rfl⟩ := ih hp
        exact ⟨q :: pre, q', post, rfl, hfit, rfl⟩

/-- The grown rectangle is the two, one above the other. -/
lemma Below.mem_iff {q r : Rect} (h : Below q r) (hq : q.y1 ≤ q.y2) (hr : r.y1 ≤ r.y2) (x y : ℤ) :
    Rect.Mem { q with y2 := r.y2 } x y ↔ q.Mem x y ∨ r.Mem x y := by
  obtain ⟨hy, hx₁, hx₂⟩ := h
  dsimp only [Rect.Mem]
  omega

/-- Growing it covers the new one and loses nothing. -/
lemma Below.exists_mem_iff {q r : Rect} (h : Below q r) (hq : q.y1 ≤ q.y2) (hr : r.y1 ≤ r.y2)
    (pre post : List Rect) (x y : ℤ) :
    (∃ p ∈ pre ++ { q with y2 := r.y2 } :: post, p.Mem x y) ↔
      (∃ p ∈ pre ++ q :: post, p.Mem x y) ∨ r.Mem x y := by
  simp only [List.mem_append, List.mem_cons, or_and_right, exists_or, exists_eq_left,
    h.mem_iff hq hr, or_assoc]
  rw [or_comm (a := r.Mem x y)]

lemma forall_mem_grown {P : Rect → Prop} {pre post : List Rect} {q q' : Rect}
    (h : ∀ p ∈ pre ++ q :: post, P p) (hq : P q → P q') : ∀ p ∈ pre ++ q' :: post, P p := by
  rw [List.forall_mem_append, List.forall_mem_cons] at h ⊢
  exact ⟨h.1, hq h.2.1, h.2.2⟩

/-- The box grown by the new one is still around everything. -/
lemma mem_box_cons {bb r : Rect} {seen : List Rect}
    (h : ∀ q ∈ seen, ∀ x y, q.Mem x y → bb.Mem x y) :
    ∀ q ∈ r :: seen, ∀ x y, q.Mem x y → (bb.union r).Mem x y :=
  List.forall_mem_cons.mpr ⟨fun _ _ hm => Rect.mem_union_right hm,
    fun q hq x y hm => Rect.mem_union_left (h q hq x y hm)⟩

/-- What one more rectangle does: it grows one, is kept, or ends the merge. -/
lemma Gathered.add_cases {most : ℕ} {g g' : Gathered} {r : Rect} (h : g' = g.add most r) :
    g'.bb = g.bb.union r ∧
      ((g.overflow = true ∧ g'.overflow = true ∧ g'.out = g.out) ∨
        (g.overflow = false ∧ g'.overflow = false ∧ ∃ pre q post, g.out = pre ++ q :: post ∧
          Below q r ∧ g'.out = pre ++ { q with y2 := r.y2 } :: post) ∨
        (g.overflow = false ∧ g'.overflow = false ∧ g.out.length < most ∧ g'.out = r :: g.out) ∨
        (g.overflow = false ∧ g'.overflow = true ∧ most ≤ g.out.length ∧ g'.out = g.out)) := by
  subst h
  unfold Gathered.add
  dsimp only
  split <;> rename_i hover
  · exact ⟨rfl, .inl ⟨hover, hover, rfl⟩⟩
  rw [Bool.not_eq_true] at hover
  split
  · -- it prolongs one
    rename_i out hout
    exact ⟨rfl, .inr (.inl ⟨hover, hover, prolong_cases hout⟩)⟩
  split <;> rename_i hroom
  · exact ⟨rfl, .inr (.inr (.inl ⟨hover, hover, hroom, rfl⟩))⟩
  · exact ⟨rfl, .inr (.inr (.inr ⟨hover, rfl, by omega, rfl⟩))⟩

/-- What has been gathered covers the rectangles seen so far. -/
structure Gathered.Covers (f : KvmFormat) (most : ℕ) (g : Gathered) (seen : List Rect) : Prop where
  tiled : ∀ q ∈ g.out, f.Tiled q
  box : f.Aligned g.bb
  few : g.out.length ≤ most
  inBox : ∀ r ∈ seen, ∀ x y, r.Mem x y → g.bb.Mem x y
  inOut : g.overflow = false → ∀ r ∈ seen, ∀ x y, r.Mem x y → ∃ q ∈ g.out, q.Mem x y

lemma Gathered.Covers.add {most : ℕ} {g : Gathered} {seen : List Rect} (hg : g.Covers f most seen)
    {r : Rect} (hr : f.Tiled r) : (g.add most r).Covers f most (r :: seen) := by
  obtain ⟨hbb, hcases⟩ := add_cases (rfl : g.add most r = g.add most r)
  set g' := g.add most r
  have hbox : f.Aligned g'.bb := by
    rw [hbb]
    exact ⟨atPair_min hg.box.1 hr.aligned.1, atPair_max hg.box.2 hr.aligned.2⟩
  have hin : ∀ q ∈ r :: seen, ∀ x y, q.Mem x y → g'.bb.Mem x y := by
    rw [hbb]
    exact mem_box_cons hg.inBox
  rcases hcases with ⟨-, hover, hout⟩ | ⟨hover, -, pre, q, post, hq, hfit, hout⟩ |
    ⟨hover, -, hroom, hout⟩ | ⟨-, hover, -, hout⟩
  · exact ⟨hout ▸ hg.tiled, hbox, hout ▸ hg.few, hin,
      fun h => absurd (hover.symm.trans h) (by decide)⟩
  · -- it prolongs `q`
    have htiled := hg.tiled
    have hfew := hg.few
    have hin' := hg.inOut hover
    rw [hq] at htiled hfew hin'
    have htall := (htiled q (by simp)).tall
    have hgrown := hfit.exists_mem_iff htall hr.tall pre post
    rw [← hout] at hgrown
    refine ⟨?_, hbox, by simpa [hout] using hfew, hin, fun _ p hp x y hm => ?_⟩
    · rw [hout]
      exact forall_mem_grown htiled fun h => ⟨(htall.trans_eq hfit.1).trans hr.tall, h.aligned⟩
    · rcases List.mem_cons.mp hp with rfl | hp
      · exact (hgrown x y).mpr (.inr hm)
      · exact (hgrown x y).mpr (.inl (hin' p hp x y hm))
  · -- there is room
    refine ⟨?_, hbox, ?_, hin, fun _ q hq x y hm => ?_⟩
    · rw [hout]
      exact List.forall_mem_cons.mpr ⟨hr, hg.tiled⟩
    · rw [hout]
      exact hroom
    · rw [hout]
      rcases List.mem_cons.mp hq with rfl | hq
      · exact ⟨q, List.mem_cons_self .., hm⟩
      · obtain ⟨p, hp, hm'⟩ := hg.inOut hover q hq x y hm
        exact ⟨p, List.mem_cons_of_mem _ hp, hm'⟩
  · exact ⟨hout ▸ hg.tiled, hbox, hout ▸ hg.few, hin,
      fun h => absurd (hover.symm.trans h) (by decide)⟩

lemma Gathered.Covers.foldl {most : ℕ} {rects : List Rect} (hr : ∀ r ∈ rects, f.Tiled r)
    {g : Gathered} {seen : List Rect} (hg : g.Covers f most seen) :
    (rects.foldl (Gathered.add most) g).Covers f most (rects.reverse ++ seen) := by
  induction rects generalizing g seen with
  | nil => exact hg
  | cons r rects ih =>
      have h := ih (fun q hq => hr q (List.mem_cons_of_mem _ hq))
        (hg.add (hr r (List.mem_cons_self ..)))
      simpa using h

/-- **The rectangles**: few, aligned, and every run lies in one. -/
lemma kvmRects_spec {dirty : List (List Bool)} (hlen : dirty.length ≤ f.tilesY t) (most : ℕ)
    (hmost : 0 < most) :
    (f.kvmRects t dirty most).length ≤ most ∧ (∀ r ∈ f.kvmRects t dirty most, f.Aligned r) ∧
      ∀ r ∈ f.runRects t dirty, ∀ x y, r.Mem x y → ∃ q ∈ f.kvmRects t dirty most, q.Mem x y := by
  have hinit : Gathered.Covers f most { bb := ⟨f.srcW, f.srcH, 0, 0⟩ } [] :=
    ⟨fun q hq => absurd hq List.not_mem_nil, ⟨.inr le_rfl, .inl rfl⟩, Nat.zero_le _,
      fun r hr => absurd hr List.not_mem_nil, fun _ r hr => absurd hr List.not_mem_nil⟩
  have hg := hinit.foldl fun r hr => tiled_runRects hlen hr
  unfold kvmRects
  rw [if_neg (by omega)]
  dsimp only
  set g := (f.runRects t dirty).foldl (Gathered.add most) { bb := ⟨f.srcW, f.srcH, 0, 0⟩ }
  have hseen : ∀ r ∈ f.runRects t dirty, r ∈ (f.runRects t dirty).reverse ++ [] := by simp
  split <;> rename_i hover
  · refine ⟨hmost, fun r hr => ?_, fun r hr x y hm => ?_⟩
    · rw [List.mem_singleton.mp hr]
      exact hg.box
    · exact ⟨g.bb, List.mem_singleton.mpr rfl, hg.inBox r (hseen r hr) x y hm⟩
  · rw [Bool.not_eq_true] at hover
    refine ⟨?_, fun r hr => ?_, fun r hr x y hm => ?_⟩
    · rw [List.length_reverse]
      exact hg.few
    · exact (hg.tiled r (List.mem_reverse.mp hr)).aligned
    · obtain ⟨q, hq, hm'⟩ := hg.inOut hover r (hseen r hr) x y hm
      exact ⟨q, List.mem_reverse.mpr hq, hm'⟩

/-- The picture before: black, or the frame before as it was converted. -/
def before (f : KvmFormat) (prev : Option Bytes) : Frame :=
  prev.elim (fun _ _ => 0) f.kvmConvertFull

/-- A pixel that converts to something new lies in a dirty tile. -/
lemma dirty_of_ne {cur : Bytes} {prev : Option Bytes} {x y : ℤ}
    (hne : f.before prev x y ≠ f.kvmConvertFull cur x y) :
    (Rect.full f.srcW f.srcH).Mem x y ∧
      tileAt (f.kvmDiff t cur prev) (x.toNat / t.size) (y.toNat / t.size) = true := by
  have hs : f.shown.Mem x y := by
    by_contra hs
    refine hne ?_
    rw [kvmConvertFull_apply, if_neg hs]
    cases prev with
    | none => rfl
    | some p => exact (kvmConvertFull_apply p x y).trans (if_neg hs)
  refine ⟨mem_full_of_shown hs, ?_⟩
  obtain ⟨hx, hxw, hy, hyh⟩ := Rect.mem_full.mp (mem_full_of_shown hs)
  lift x to ℕ using hx
  lift y to ℕ using hy
  rw [Int.toNat_natCast, Int.toNat_natCast]
  cases prev with
  | none =>
      obtain ⟨htx, -⟩ := tile_of_lt t.pos (show x < f.srcW.toNat by omega)
      obtain ⟨hty, -⟩ := tile_of_lt t.pos (show y < f.srcH.toNat by omega)
      have htx' : x / t.size < f.tilesX t := by
        rw [tilesX, if_pos (by omega)]
        exact htx
      have hty' : y / t.size < f.tilesY t := by
        rw [tilesY, if_pos (by omega)]
        exact hty
      simp [tileAt, kvmDiff, htx', hty']
  | some p =>
      by_contra hclean
      rw [Bool.not_eq_true] at hclean
      refine hne ?_
      rw [kvmConvertFull_apply, if_pos hs, pixel_eq_of_clean hs hclean]
      exact (kvmConvertFull_apply p x y).trans (if_pos hs)

/-- **The dirty rectangles hold every pixel that converts to something new.** -/
theorem kvmRects_cover (cur : Bytes) (prev : Option Bytes) {most : ℕ} (hmost : 0 < most) {x y : ℤ}
    (hne : f.before prev x y ≠ f.kvmConvertFull cur x y) :
    ∃ r ∈ f.kvmRects t (f.kvmDiff t cur prev) most, r.Mem x y := by
  obtain ⟨-, -, hcover⟩ := kvmRects_spec (length_kvmDiff (f := f) (t := t) cur prev).le most hmost
  obtain ⟨hfull, hdirty⟩ := dirty_of_ne (t := t) hne
  obtain ⟨hx, hxw, hy, hyh⟩ := Rect.mem_full.mp hfull
  obtain ⟨r, hr, hm⟩ := mem_runRects (f := f) t.pos (by omega) (by omega) hdirty
  rw [Int.toNat_of_nonneg hx, Int.toNat_of_nonneg hy] at hm
  exact hcover r hr x y hm

lemma count_pos_of_tileAt {dirty : List (List Bool)} {tx ty : ℕ} (h : tileAt dirty tx ty = true) :
    0 < dirty.flatten.count true := by
  refine List.count_pos_iff.mpr (List.mem_flatten.mpr ⟨dirty.getD ty [], ?_, ?_⟩)
  · by_cases hlen : ty < dirty.length
    · simp [hlen]
    · have hnone : dirty[ty]? = none := List.getElem?_eq_none (by omega)
      simp [tileAt, hnone] at h
  · by_cases hlen : tx < (dirty.getD ty []).length
    · rw [tileAt, List.getD_eq_getElem?_getD, List.getElem?_eq_getElem hlen, Option.getD_some] at h
      exact h ▸ List.getElem_mem hlen
    · have hnone : (dirty.getD ty [])[tx]? = none := List.getElem?_eq_none (by omega)
      rw [tileAt, List.getD_eq_getElem?_getD, hnone] at h
      cases h

end KvmFormat

end Sremfb
