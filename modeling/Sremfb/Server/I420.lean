import Mathlib.Algebra.BigOperators.Intervals
import Sremfb.Lib.Raster

/-!
# The encoder's picture (`convert.c`, `build_h264_frame`)

`sremfb_convert_bgrx_to_i420` turns a BGRx frame into the three planes that the encoder reads.
`convertBgrxToI420` is the list of its memory accesses in order, each write with its value as
computed, before the cast to a byte.

Both chroma planes have `(w + 1) / 2` columns and `(h + 1) / 2` rows, in `uint32_t`
(`halfUp`).  `blockMean` says what a chroma sample is made of: the floor of the mean over its two
by two block, where the last column and the last row of an odd size count twice.
-/

namespace Sremfb

open Lib

/-- The planes of the picture. -/
inductive Plane
  | y
  | u
  | v
  deriving DecidableEq, Repr

/-- A memory access: the image is read by pixel, a plane is written by sample. -/
inductive I420Access
  | read (i : ℕ)
  | write (p : Plane) (i : ℕ) (val : ℤ)
  deriving DecidableEq, Repr

/-- The channels of a pixel. -/
inductive Channel
  | r
  | g
  | b
  deriving DecidableEq, Repr

def Channel.of (c : Channel) (px : UInt32) : ℤ :=
  match c with
  | .r => ((px >>> 16) &&& (0xFF : UInt32)).toNat
  | .g => ((px >>> 8) &&& (0xFF : UInt32)).toNat
  | .b => (px &&& (0xFF : UInt32)).toNat

/-- The fixed-point transform of a colour, BT.601 in limited range. -/
def sample (p : Plane) (col : Channel → ℤ) : ℤ :=
  match p with
  | .y => (66 * col .r + 129 * col .g + 25 * col .b + 128 + 4096) >>> (8 : ℕ)
  | .u => (-38 * col .r - 74 * col .g + 112 * col .b + 128 + 32768) >>> (8 : ℕ)
  | .v => (112 * col .r - 94 * col .g - 18 * col .b + 128 + 32768) >>> (8 : ℕ)

/-- `(n + 1) / 2` in `uint32_t`. -/
def halfUp (n : ℕ) : ℕ := (n + 1) % 2 ^ 32 / 2

/-- Row `j` of the luma loop. -/
def lumaRow (bgrx : ℕ → UInt32) (w j : ℕ) : List I420Access :=
  (List.range w).flatMap fun i =>
    [.read (j * w + i), .write .y (j * w + i) (sample .y fun c => c.of (bgrx (j * w + i)))]

/-- The four pixels of block `(i, j)`. -/
def chromaBlock (w h i j : ℕ) : List ℕ :=
  let y0 := j * 2
  let y1 := if y0 + 1 < h then y0 + 1 else y0
  let x0c := i * 2
  let x1c := if x0c + 1 < w then x0c + 1 else x0c
  [y0 * w + x0c, y0 * w + x1c, y1 * w + x0c, y1 * w + x1c]

/-- A channel of the block, summed up and divided by a shift. -/
def chromaMean (bgrx : ℕ → UInt32) (p : List ℕ) (c : Channel) : ℤ :=
  (p.foldl (fun sum i => sum + c.of (bgrx i)) 0) >>> (2 : ℕ)

/-- Row `j` of the chroma loop. -/
def chromaRow (bgrx : ℕ → UInt32) (w h j : ℕ) : List I420Access :=
  (List.range (halfUp w)).flatMap fun i =>
    let p := chromaBlock w h i j
    p.map .read ++
      [.write .u (j * halfUp w + i) (sample .u (chromaMean bgrx p)),
        .write .v (j * halfUp w + i) (sample .v (chromaMean bgrx p))]

/-- `sremfb_convert_bgrx_to_i420`. -/
def convertBgrxToI420 (bgrx : ℕ → UInt32) (w h : ℕ) : List I420Access :=
  (List.range h).flatMap (lumaRow bgrx w) ++ (List.range (halfUp h)).flatMap (chromaRow bgrx w h)

/-- The writes to a plane, in order. -/
def writesTo (p : Plane) (t : List I420Access) : List (ℕ × ℤ) :=
  t.filterMap fun
    | .read _ => none
    | .write q i val => if q = p then some (i, val) else none

/-- The pixels that are read. -/
def reads (t : List I420Access) : List ℕ :=
  t.filterMap fun
    | .read i => some i
    | .write _ _ _ => none

/-- Where `build_h264_frame` lets a plane begin in its buffer. -/
def planeBase (w h : ℕ) : Plane → ℕ
  | .y => 0
  | .u => w * h
  | .v => w * h + halfUp w * halfUp h

/-- The size of that buffer. -/
def yuvSize (w h : ℕ) : ℕ := w * h + 2 * (halfUp w * halfUp h)

/-- The bytes of the buffer that are written, in order. -/
def writtenBytes (w h : ℕ) (t : List I420Access) : List ℕ :=
  t.filterMap fun
    | .read _ => none
    | .write p i _ => some (planeBase w h p + i)

/-- One access, on the encoder's buffer. -/
def store (w h : ℕ) (buf : ℕ → UInt8) : I420Access → ℕ → UInt8
  | .read _ => buf
  | .write p i val => Function.update buf (planeBase w h p + i) (UInt8.ofInt val)

/-- The buffer as `build_h264_frame` hands it to the encoder. -/
def yuvBuf (bgrx : ℕ → UInt32) (w h : ℕ) (buf : ℕ → UInt8) : ℕ → UInt8 :=
  (convertBgrxToI420 bgrx w h).foldl (store w h) buf

/-! ## What a sample is made of -/

/-- The floor of the mean over the two by two block at `(2 * x, 2 * y)`, the last column and the
last row replicated. -/
def blockMean (bgrx : ℕ → UInt32) (w h x y : ℕ) (c : Channel) : ℤ :=
  (∑ dy ∈ Finset.range 2, ∑ dx ∈ Finset.range 2,
    c.of (bgrx (min (2 * y + dy) (h - 1) * w + min (2 * x + dx) (w - 1)))) / 4

lemma halfUp_eq {n : ℕ} (hn : n < 2 ^ 32 - 1) : halfUp n = (n + 1) / 2 := by
  unfold halfUp
  rw [Nat.mod_eq_of_lt (by omega)]

/-- The second column or row of a block is the next one, or the first one again at the edge. -/
lemma min_edge {i n : ℕ} (hi : i < (n + 1) / 2) :
    min (2 * i) (n - 1) = i * 2 ∧
      min (2 * i + 1) (n - 1) = if i * 2 + 1 < n then i * 2 + 1 else i * 2 := by
  split_ifs <;> omega

lemma chromaMean_eq {w h i j : ℕ} (bgrx : ℕ → UInt32) (hi : i < (w + 1) / 2)
    (hj : j < (h + 1) / 2) :
    chromaMean bgrx (chromaBlock w h i j) = blockMean bgrx w h i j := by
  obtain ⟨hx0, hx1⟩ := min_edge hi
  obtain ⟨hy0, hy1⟩ := min_edge hj
  funext c
  unfold chromaMean chromaBlock blockMean
  simp only [List.foldl_cons, List.foldl_nil, Finset.sum_range_succ, Finset.sum_range_zero,
    Nat.add_zero, hx0, hx1, hy0, hy1, Int.shiftRight_eq_div_pow]
  norm_num
  ring_nf

/-! ## Each plane is written once -/

lemma writesTo_append (p : Plane) (t t' : List I420Access) :
    writesTo p (t ++ t') = writesTo p t ++ writesTo p t' := List.filterMap_append

lemma writesTo_flatMap (p : Plane) (l : List ℕ) (g : ℕ → List I420Access) :
    writesTo p (l.flatMap g) = l.flatMap fun a => writesTo p (g a) := List.filterMap_flatMap

lemma writesTo_lumaRow (bgrx : ℕ → UInt32) (w j : ℕ) :
    writesTo .y (lumaRow bgrx w j) = (List.range w).map fun i =>
      (j * w + i, sample .y fun c => c.of (bgrx (j * w + i))) := by
  rw [lumaRow, writesTo_flatMap, List.map_eq_flatMap]
  rfl

lemma writesTo_lumaRow_of_ne {p : Plane} (hp : p ≠ .y) (bgrx : ℕ → UInt32) (w j : ℕ) :
    writesTo p (lumaRow bgrx w j) = [] := by
  rw [lumaRow, writesTo_flatMap, List.flatMap_eq_nil_iff]
  intro i _
  simp [writesTo, hp.symm]

lemma writesTo_chromaRow_y (bgrx : ℕ → UInt32) (w h j : ℕ) :
    writesTo .y (chromaRow bgrx w h j) = [] := by
  rw [chromaRow, writesTo_flatMap, List.flatMap_eq_nil_iff]
  intro i _
  simp [writesTo, chromaBlock]

lemma writesTo_chromaRow {p : Plane} (hp : p ≠ .y) (bgrx : ℕ → UInt32) (w h j : ℕ) :
    writesTo p (chromaRow bgrx w h j) = (List.range (halfUp w)).map fun i =>
      (j * halfUp w + i, sample p (chromaMean bgrx (chromaBlock w h i j))) := by
  rw [chromaRow, writesTo_flatMap, List.map_eq_flatMap]
  refine List.flatMap_congr fun i _ => ?_
  cases p with
  | y => exact absurd rfl hp
  | u => rfl
  | v => rfl

/-- The luma plane is written in order, each sample once. -/
lemma writesTo_y (bgrx : ℕ → UInt32) (w h : ℕ) :
    writesTo .y (convertBgrxToI420 bgrx w h) =
      (List.range (h * w)).map fun n => (n, sample .y fun c => c.of (bgrx n)) := by
  rw [convertBgrxToI420, writesTo_append, writesTo_flatMap, writesTo_flatMap]
  simp only [writesTo_lumaRow, writesTo_chromaRow_y]
  rw [flatMap_range_rows fun j i => (j * w + i, sample .y fun c => c.of (bgrx (j * w + i)))]
  simp only [Nat.div_add_mod']
  simp

/-- So is a chroma plane. -/
lemma writesTo_of_ne {p : Plane} (hp : p ≠ .y) (bgrx : ℕ → UInt32) (w h : ℕ) :
    writesTo p (convertBgrxToI420 bgrx w h) = (List.range (halfUp h * halfUp w)).map fun n =>
      (n, sample p (chromaMean bgrx (chromaBlock w h (n % halfUp w) (n / halfUp w)))) := by
  rw [convertBgrxToI420, writesTo_append, writesTo_flatMap, writesTo_flatMap]
  simp only [writesTo_lumaRow_of_ne hp, writesTo_chromaRow hp]
  rw [flatMap_range_rows fun j i =>
    (j * halfUp w + i, sample p (chromaMean bgrx (chromaBlock w h i j)))]
  simp only [Nat.div_add_mod']
  simp

lemma mem_writesTo {p : Plane} {i : ℕ} {val : ℤ} {t : List I420Access} :
    (i, val) ∈ writesTo p t ↔ I420Access.write p i val ∈ t := by
  unfold writesTo
  rw [List.mem_filterMap]
  constructor
  · rintro ⟨a, ha, heq⟩
    cases a with
    | read _ => cases heq
    | write q j val' =>
        dsimp only at heq
        split_ifs at heq with hq
        cases heq
        exact hq ▸ ha
  · intro h
    exact ⟨_, h, if_pos rfl⟩

/-- The bytes written are those of the three planes, in some order. -/
lemma writtenBytes_perm (w h : ℕ) (t : List I420Access) :
    (writtenBytes w h t).Perm
      (((writesTo .y t).map fun a => planeBase w h .y + a.1) ++
        ((writesTo .u t).map fun a => planeBase w h .u + a.1) ++
        ((writesTo .v t).map fun a => planeBase w h .v + a.1)) := by
  induction t with
  | nil => exact .refl _
  | cons a t ih =>
      cases a with
      | read i => exact ih
      | write p i val =>
          cases p with
          | y => exact ih.cons _
          | u =>
              refine (ih.cons _).trans ?_
              simp only [List.append_assoc]
              exact List.perm_middle.symm
          | v =>
              refine (ih.cons _).trans ?_
              exact List.perm_middle.symm

/-! ## Nothing else is read or written -/

lemma reads_lt {bgrx : ℕ → UInt32} {w h : ℕ} (hw : w < 2 ^ 32 - 1) (hh : h < 2 ^ 32 - 1) :
    ∀ n ∈ reads (convertBgrxToI420 bgrx w h), n < w * h := by
  -- the pixel in column `x` of row `y`
  have hin : ∀ x y, x < w → y < h → y * w + x < w * h := by
    intro x y hx hy
    have hrow : (y + 1) * w ≤ h * w := Nat.mul_le_mul_right w hy
    rw [Nat.succ_mul, Nat.mul_comm h w] at hrow
    omega
  intro n hn
  rw [convertBgrxToI420, reads, List.filterMap_append, List.mem_append] at hn
  rcases hn with hn | hn
  · rw [List.filterMap_flatMap, List.mem_flatMap] at hn
    obtain ⟨j, hj, hn⟩ := hn
    rw [lumaRow, List.filterMap_flatMap, List.mem_flatMap] at hn
    obtain ⟨i, hi, hn⟩ := hn
    obtain rfl := List.mem_singleton.mp hn
    exact hin i j (List.mem_range.mp hi) (List.mem_range.mp hj)
  · rw [List.filterMap_flatMap, List.mem_flatMap] at hn
    obtain ⟨j, hj, hn⟩ := hn
    rw [chromaRow, List.filterMap_flatMap, List.mem_flatMap] at hn
    obtain ⟨i, hi, hn⟩ := hn
    rw [List.mem_range, halfUp_eq hh] at hj
    rw [List.mem_range, halfUp_eq hw] at hi
    have hblock : n ∈ chromaBlock w h i j := hn
    unfold chromaBlock at hblock
    simp only [List.mem_cons, List.not_mem_nil, or_false] at hblock
    -- both columns and both rows of a block are in the image
    have hx0 : i * 2 < w := by omega
    have hx1 : (if i * 2 + 1 < w then i * 2 + 1 else i * 2) < w := by
      split_ifs <;> omega
    have hy0 : j * 2 < h := by omega
    have hy1 : (if j * 2 + 1 < h then j * 2 + 1 else j * 2) < h := by
      split_ifs <;> omega
    rcases hblock with rfl | rfl | rfl | rfl
    · exact hin _ _ hx0 hy0
    · exact hin _ _ hx1 hy0
    · exact hin _ _ hx0 hy1
    · exact hin _ _ hx1 hy1

/-! ## No cast wraps -/

lemma Channel.of_mem (c : Channel) (px : UInt32) : 0 ≤ c.of px ∧ c.of px ≤ 255 := by
  have hbyte : ∀ a : UInt32, (a &&& (0xFF : UInt32)).toNat ≤ 255 := fun a => by
    rw [UInt32.toNat_and]
    exact Nat.and_le_right
  unfold Channel.of
  cases c with
  | r | g | b =>
      dsimp only
      exact ⟨Int.natCast_nonneg _, by exact_mod_cast hbyte _⟩

lemma chromaMean_mem (bgrx : ℕ → UInt32) (w h i j : ℕ) (c : Channel) :
    0 ≤ chromaMean bgrx (chromaBlock w h i j) c ∧
      chromaMean bgrx (chromaBlock w h i j) c ≤ 255 := by
  unfold chromaMean chromaBlock
  simp only [List.foldl_cons, List.foldl_nil, Int.shiftRight_eq_div_pow]
  have hc := fun n => c.of_mem (bgrx n)
  generalize hy1 : (if j * 2 + 1 < h then j * 2 + 1 else j * 2) = y1
  generalize hx1 : (if i * 2 + 1 < w then i * 2 + 1 else i * 2) = x1
  have h00 := hc (j * 2 * w + i * 2)
  have h01 := hc (j * 2 * w + x1)
  have h10 := hc (y1 * w + i * 2)
  have h11 := hc (y1 * w + x1)
  omega

/-- The largest value of a plane. -/
def Plane.top : Plane → ℤ
  | .y => 235
  | .u => 240
  | .v => 240

/-- Whatever the colour, the transform is in limited range. -/
lemma sample_mem {col : Channel → ℤ} (hcol : ∀ c, 0 ≤ col c ∧ col c ≤ 255) (p : Plane) :
    16 ≤ sample p col ∧ sample p col ≤ p.top := by
  have hr := hcol .r
  have hg := hcol .g
  have hb := hcol .b
  cases p with
  | y | u | v =>
      simp only [sample, Plane.top, Int.shiftRight_eq_div_pow]
      omega

lemma write_mem {bgrx : ℕ → UInt32} {w h i : ℕ} {p : Plane} {val : ℤ}
    (hwrite : I420Access.write p i val ∈ convertBgrxToI420 bgrx w h) :
    16 ≤ val ∧ val ≤ p.top := by
  rw [← mem_writesTo] at hwrite
  by_cases hp : p = .y
  · subst hp
    rw [writesTo_y, List.mem_map] at hwrite
    obtain ⟨n, -, heq⟩ := hwrite
    obtain ⟨-, rfl⟩ := Prod.mk.inj heq
    exact sample_mem (fun c => c.of_mem _) _
  · rw [writesTo_of_ne hp, List.mem_map] at hwrite
    obtain ⟨n, -, heq⟩ := hwrite
    obtain ⟨-, rfl⟩ := Prod.mk.inj heq
    exact sample_mem (chromaMean_mem _ _ _ _ _) _

/-- A byte holds every value of a plane. -/
lemma toNat_ofInt {p : Plane} {val : ℤ} (h : 16 ≤ val ∧ val ≤ p.top) :
    ((UInt8.ofInt val).toNat : ℤ) = val := by
  have htop : p.top ≤ 255 := by cases p <;> decide
  have hsize : UInt8.size = 256 := rfl
  rw [UInt8.ofInt, UInt8.toNat_ofNat_of_lt' (by omega)]
  omega

/-- The bytes written are those of the buffer, each of them once. -/
lemma writtenBytes_perm_range (bgrx : ℕ → UInt32) (w h : ℕ) :
    (writtenBytes w h (convertBgrxToI420 bgrx w h)).Perm (List.range (yuvSize w h)) := by
  refine (writtenBytes_perm w h _).trans (.of_eq ?_)
  rw [writesTo_y, writesTo_of_ne (by decide), writesTo_of_ne (by decide), yuvSize, Nat.two_mul,
    ← Nat.add_assoc, List.range_add, List.range_add]
  simp [planeBase, Function.comp_def, Nat.mul_comm]

/-- **The encoder's picture.**  Every sample of the three planes is written once and nothing
else is, from pixels of the image; a chroma sample is the transform of its block's mean, and every
value fits its byte as it is.  The caller's sizes are `int`s, so `w + 1` and `h + 1` do not
wrap. -/
theorem i420_written_once (bgrx : ℕ → UInt32) {w h : ℕ} (hw : w < 2 ^ 32 - 1)
    (hh : h < 2 ^ 32 - 1) :
    writesTo .y (convertBgrxToI420 bgrx w h) =
        ((List.range (w * h)).map fun n => (n, sample .y fun c => c.of (bgrx n))) ∧
      (∀ p, p ≠ .y → writesTo p (convertBgrxToI420 bgrx w h) =
        (List.range ((w + 1) / 2 * ((h + 1) / 2))).map fun n =>
          (n, sample p (blockMean bgrx w h (n % ((w + 1) / 2)) (n / ((w + 1) / 2))))) ∧
      (∀ n ∈ reads (convertBgrxToI420 bgrx w h), n < w * h) ∧
      (∀ p i val, I420Access.write p i val ∈ convertBgrxToI420 bgrx w h →
        16 ≤ val ∧ val ≤ p.top ∧ ((UInt8.ofInt val).toNat : ℤ) = val) ∧
      (writtenBytes w h (convertBgrxToI420 bgrx w h)).Perm (List.range (yuvSize w h)) := by
  refine ⟨?_, fun p hp => ?_, reads_lt hw hh, fun p i val hwrite => ?_,
    writtenBytes_perm_range bgrx w h⟩
  · rw [Nat.mul_comm]
    exact writesTo_y bgrx w h
  · rw [writesTo_of_ne hp, halfUp_eq hw, halfUp_eq hh, Nat.mul_comm]
    refine List.map_congr_left fun n hn => ?_
    have hn := List.mem_range.mp hn
    have hcw : (w + 1) / 2 ≠ 0 :=
      left_ne_zero_of_mul (show (w + 1) / 2 * ((h + 1) / 2) ≠ 0 by omega)
    rw [chromaMean_eq bgrx (Nat.mod_lt _ (Nat.pos_of_ne_zero hcw)) (Nat.div_lt_of_lt_mul hn)]
  · have hval := write_mem hwrite
    exact ⟨hval.1, hval.2, toNat_ofInt hval⟩

/-- Three by three pixels, all black but the last one, which is blue: it is the whole of its
block. -/
theorem i420_written_once_blue :
    writesTo .u (convertBgrxToI420 (fun n => if n = 8 then 0xFF else 0) 3 3) =
      [(0, 128), (1, 128), (2, 128), (3, 240)] :=
  ((i420_written_once (fun n => if n = 8 then 0xFF else 0) (w := 3) (h := 3) (by decide)
    (by decide)).2.1 .u (by decide)).trans (by decide)

/-! ## The buffer afterwards -/

lemma foldl_store_of_notMem {w h a : ℕ} {t : List I420Access} (ha : a ∉ writtenBytes w h t)
    (buf : ℕ → UInt8) : t.foldl (store w h) buf a = buf a := by
  induction t generalizing buf with
  | nil => rfl
  | cons acc t ih =>
      cases acc with
      | read i => exact ih ha buf
      | write p i val =>
          have hcons : writtenBytes w h (.write p i val :: t) =
            (planeBase w h p + i) :: writtenBytes w h t := rfl
          rw [hcons, List.mem_cons, not_or] at ha
          rw [List.foldl_cons, ih ha.2, store, Function.update_of_ne ha.1]

lemma foldl_store_of_mem {w h : ℕ} {t : List I420Access} (hnodup : (writtenBytes w h t).Nodup)
    {p : Plane} {i : ℕ} {val : ℤ} (hmem : I420Access.write p i val ∈ t) (buf : ℕ → UInt8) :
    t.foldl (store w h) buf (planeBase w h p + i) = UInt8.ofInt val := by
  induction t generalizing buf with
  | nil => exact absurd hmem List.not_mem_nil
  | cons acc t ih =>
      cases acc with
      | read j =>
          have htail : I420Access.write p i val ∈ t := by
            rcases List.mem_cons.mp hmem with heq | htail
            · cases heq
            · exact htail
          exact ih hnodup htail buf
      | write q j val' =>
          have hcons : writtenBytes w h (.write q j val' :: t) =
            (planeBase w h q + j) :: writtenBytes w h t := rfl
          rw [hcons, List.nodup_cons] at hnodup
          rcases List.mem_cons.mp hmem with heq | htail
          · cases heq
            rw [List.foldl_cons, foldl_store_of_notMem hnodup.1, store, Function.update_self]
          · exact ih hnodup.2 htail _

/-- **What the encoder reads.**  Every sample is in the buffer as it was computed, and the memory
behind the buffer is as it was. -/
theorem yuvBuf_holds (bgrx : ℕ → UInt32) (w h : ℕ) (buf : ℕ → UInt8) :
    (∀ p i val, I420Access.write p i val ∈ convertBgrxToI420 bgrx w h →
        ((yuvBuf bgrx w h buf (planeBase w h p + i)).toNat : ℤ) = val) ∧
      ∀ a, yuvSize w h ≤ a → yuvBuf bgrx w h buf a = buf a := by
  have hperm := writtenBytes_perm_range bgrx w h
  constructor
  · intro p i val hwrite
    rw [yuvBuf, foldl_store_of_mem (hperm.nodup_iff.mpr List.nodup_range) hwrite]
    exact toNat_ofInt (write_mem hwrite)
  · intro a ha
    refine foldl_store_of_notMem (fun hmem => ?_) buf
    have hlt := List.mem_range.mp (hperm.mem_iff.mp hmem)
    omega

end Sremfb
