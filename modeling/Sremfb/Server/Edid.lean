import Sremfb.Lib.Words
import Mathlib.Data.List.DropRight
import Mathlib.Data.Vector.Basic
import Mathlib.Tactic.Ring

/-!
# The EDID of a virtual connector (`edid.c`)

The server makes up an EDID for each client: a base block of 128 bytes and an extension block, four
detailed timings at the client's resolution, a serial number, and the name the client's panel
gave.  GNOME remembers a monitor's place by the name and the serial number.

A detailed timing has twelve bits for each active size and sixteen for the pixel clock, in units
of 10 kHz.  `put_dtd` cuts off what does not fit.  `timings_iff` says for which sizes the four
timings are what they were meant to be.

The name is copied over the default name before it is known whether anything of it remains once
the spaces at its end are taken off.  `identity_iff` says for which names the identity is the
intended one.
-/

namespace Sremfb

open Lib

/-! ## Building -/

/-- `put_dtd`, the eighteen bytes of a detailed timing. -/
def putDtd (width height refresh wmm hmm : UInt32) : List UInt8 :=
  let hblank : UInt32 := 160
  let vblank : UInt32 := 30
  let htotal := width + hblank
  let vtotal := height + vblank
  let pclk := (htotal * vtotal * refresh + 5000) / 10000
  [(pclk &&& 0xFF).toUInt8, (pclk >>> 8).toUInt8,
    (width &&& 0xFF).toUInt8, (hblank &&& 0xFF).toUInt8,
    (((width >>> 8) <<< 4) ||| (hblank >>> 8)).toUInt8,
    (height &&& 0xFF).toUInt8, (vblank &&& 0xFF).toUInt8,
    (((height >>> 8) <<< 4) ||| (vblank >>> 8)).toUInt8,
    48, 32, ((3 : UInt8) <<< 4) ||| 5, 0,
    (wmm &&& 0xFF).toUInt8, (hmm &&& 0xFF).toUInt8,
    (((wmm >>> 8) <<< 4) ||| (hmm >>> 8)).toUInt8, 0, 0, 0x1E]

/-- The default name, thirteen characters. -/
def defaultName : List UInt8 := "462eng-sRemFB".toList.map fun c => UInt8.ofNat c.toNat

/-- Printable ASCII. -/
def isPrintable (b : UInt8) : Bool := 0x20 ≤ b && b ≤ 0x7E

/-- What the loop copies of the model. -/
def copiedModel (model : Vector UInt8 13) : List UInt8 :=
  model.toList.takeWhile fun b => b ≠ 0 && isPrintable b

/-- `name`, which is the default name before the model is copied over it. -/
def edidName (model : Vector UInt8 13) : List UInt8 :=
  let copied := copiedModel model
  let name := copied ++ defaultName.drop copied.length
  let n := (copied.rdropWhile (· = 0x20)).length
  if n > 0 then name.take n else name

/-- Descriptor 3, the display name. -/
def nameDescriptor (name : List UInt8) : List UInt8 :=
  [0, 0, 0, 0xFC, 0] ++ (name ++ 0x0A :: List.replicate 13 0x20).take 13

/-- A block of 127 bytes with its checksum. -/
def withChecksum (b : List UInt8) : List UInt8 := b ++ [0 - b.foldl (· + ·) 0]

section Build

variable (sizeMm : UInt32 → UInt32 → UInt32 × UInt32)

/-- The base block up to the descriptors.  `sizeMm` gives the picture size in millimetres, which
the source computes in floating point. -/
def edidFront (width height serial : UInt32) : List UInt8 :=
  let (wmm, hmm) := sizeMm width height
  let wcm := min ((wmm + 5) / 10) 255
  let hcm := min ((hmm + 5) / 10) 255
  ([0x00, 0xFF, 0xFF, 0xFF, 0xFF, 0xFF, 0xFF, 0x00, 0x48, 0xC2, 0x01, 0x00] : List UInt8) ++
    [(serial &&& 0xFF).toUInt8, ((serial >>> 8) &&& 0xFF).toUInt8,
      ((serial >>> 16) &&& 0xFF).toUInt8, (serial >>> 24).toUInt8] ++
    [1, 36, 1, 4, 0xA0, wcm.toUInt8, hcm.toUInt8, 120, 0x06] ++
    [0xEE, 0x91, 0xA3, 0x54, 0x4C, 0x99, 0x26, 0x0F, 0x50, 0x54] ++
    [0, 0, 0] ++ List.replicate 16 0x01

/-- Descriptor 4, the display range limits. -/
def rangeDescriptor : List UInt8 :=
  [0, 0, 0, 0xFD, 0, 14, 121, 10, 160, 60, 0x01, 0x0A, 0x20, 0x20, 0x20, 0x20, 0x20, 0x20]

/-- The base block: the four descriptors, and the number of extensions. -/
def edidBase (width height serial : UInt32) (model : Vector UInt8 13) : List UInt8 :=
  let (wmm, hmm) := sizeMm width height
  edidFront sizeMm width height serial ++ (putDtd width height 60 wmm hmm ++
    (putDtd width height 30 wmm hmm ++ (nameDescriptor (edidName model) ++
      (rangeDescriptor ++ [1]))))

/-- The CEA-861 extension block. -/
def edidExt (width height : UInt32) : List UInt8 :=
  let (wmm, hmm) := sizeMm width height
  [0x02, 0x03, 4, 0x80] ++ (putDtd width height 120 wmm hmm ++
    (putDtd width height 15 wmm hmm ++ List.replicate 87 0))

/-- `sremfb_edid_build`. -/
def edidBuild (width height serial : UInt32) (model : Vector UInt8 13) : List UInt8 :=
  withChecksum (edidBase sizeMm width height serial model) ++
    withChecksum (edidExt sizeMm width height)

end Build

/-! ## Reading -/

/-- What a detailed timing says. -/
structure Timing where
  /-- The pixel clock in units of 10 kHz. -/
  pclk : ℕ
  hactive : ℕ
  hblank : ℕ
  vactive : ℕ
  vblank : ℕ
  deriving DecidableEq, Repr

/-- The standard reading of a detailed timing descriptor. -/
def readDtd (d : List UInt8) : Timing where
  pclk := (d.getD 0 0).toNat + 256 * (d.getD 1 0).toNat
  hactive := (d.getD 2 0).toNat + 256 * ((d.getD 4 0).toNat / 16)
  hblank := (d.getD 3 0).toNat + 256 * ((d.getD 4 0).toNat % 16)
  vactive := (d.getD 5 0).toNat + 256 * ((d.getD 7 0).toNat / 16)
  vblank := (d.getD 6 0).toNat + 256 * ((d.getD 7 0).toNat % 16)

/-- The nearest integer to `a / b`. -/
def roundDiv (a b : ℕ) : ℕ := (2 * a + b) / (2 * b)

/-- The refresh rate in Hz, to the nearest integer. -/
def Timing.refresh (t : Timing) : ℕ :=
  roundDiv (t.pclk * 10000) ((t.hactive + t.hblank) * (t.vactive + t.vblank))

/-- The rule of `discover_model` for a display name. -/
def readName (d : List UInt8) : List UInt8 :=
  (((d.drop 5).take 13).takeWhile fun b => b ≠ 0x0A && isPrintable b).rdropWhile (· = 0x20)

/-- The loop of `discover_model` over the four descriptors. -/
def discoverName (e : List UInt8) : Option (List UInt8) :=
  ([54, 72, 90, 108].find? fun off =>
    e.getD off 0 = 0 && e.getD (off + 1) 0 = 0 && e.getD (off + 3) 0 = 0xFC).map
      fun off => readName (e.drop off)

/-! ## One timing -/

lemma toNat_lowByte (v : UInt32) : (v &&& 0xFF).toUInt8.toNat = v.toNat % 256 := by
  have hand : (v &&& 0xFF).toNat = v.toNat % 2 ^ 8 := by
    rw [UInt32.toNat_and]
    exact Nat.and_two_pow_sub_one_eq_mod v.toNat 8
  rw [UInt32.toNat_toUInt8, hand]
  exact Nat.mod_mod _ _

lemma toNat_highByte (v : UInt32) : (v >>> 8).toUInt8.toNat = v.toNat / 256 % 256 := by
  rw [UInt32.toNat_toUInt8, UInt32.toNat_shiftRight]
  exact congrArg (· % 2 ^ 8) (Nat.shiftRight_eq_div_pow v.toNat 8)

/-- The high nibble holds bits 8 to 11 of one size, and the low nibble, here, nothing. -/
lemma toNat_nibbles (v : UInt32) {b : UInt32} (hb : b >>> 8 = 0) :
    (((v >>> 8) <<< 4) ||| (b >>> 8)).toUInt8.toNat = v.toNat / 256 * 16 % 256 := by
  have hshift : ((v >>> 8) <<< 4).toNat = v.toNat / 256 * 16 % 2 ^ 32 := by
    rw [UInt32.toNat_shiftLeft, UInt32.toNat_shiftRight]
    exact congrArg (· % 2 ^ 32) ((Nat.shiftLeft_eq _ 4).trans
      (congrArg (· * 16) (Nat.shiftRight_eq_div_pow v.toNat 8)))
  rw [hb, UInt32.or_zero, UInt32.toNat_toUInt8, hshift, Nat.mod_mod_of_dvd _ (by decide)]

/-- The pixel clock, when no product wraps. -/
lemma toNat_pclk {width height refresh : UInt32}
    (h : (width.toNat + 160) * (height.toNat + 30) * refresh.toNat + 5000 < 2 ^ 32)
    (hpos : 0 < refresh.toNat) :
    (((width + 160) * (height + 30) * refresh + 5000) / 10000).toNat =
      ((width.toNat + 160) * (height.toNat + 30) * refresh.toNat + 5000) / 10000 := by
  have hprod : (width.toNat + 160) * (height.toNat + 30) ≤
      (width.toNat + 160) * (height.toNat + 30) * refresh.toNat := Nat.le_mul_of_pos_right _ hpos
  have hleft : width.toNat + 160 ≤ (width.toNat + 160) * (height.toNat + 30) :=
    Nat.le_mul_of_pos_right _ (by omega)
  have hright : height.toNat + 30 ≤ (width.toNat + 160) * (height.toNat + 30) :=
    Nat.le_mul_of_pos_left _ (by omega)
  have hwidth : (width + 160).toNat = width.toNat + 160 :=
    (UInt32.toNat_add _ _).trans (Nat.mod_eq_of_lt (by change width.toNat + 160 < 2 ^ 32; omega))
  have hheight : (height + 30).toNat = height.toNat + 30 :=
    (UInt32.toNat_add _ _).trans (Nat.mod_eq_of_lt (by change height.toNat + 30 < 2 ^ 32; omega))
  have htotal : ((width + 160) * (height + 30)).toNat =
      (width.toNat + 160) * (height.toNat + 30) := by
    rw [UInt32.toNat_mul, hwidth, hheight]
    exact Nat.mod_eq_of_lt (by omega)
  have hclock : ((width + 160) * (height + 30) * refresh).toNat =
      (width.toNat + 160) * (height.toNat + 30) * refresh.toNat := by
    rw [UInt32.toNat_mul, htotal]
    exact Nat.mod_eq_of_lt (by omega)
  have hsum : ((width + 160) * (height + 30) * refresh + 5000).toNat =
      (width.toNat + 160) * (height.toNat + 30) * refresh.toNat + 5000 := by
    rw [UInt32.toNat_add, hclock]
    exact Nat.mod_eq_of_lt h
  rw [UInt32.toNat_div, hsum]
  rfl

/-- **What a reader finds in a timing**: everything modulo the width of its field. -/
lemma readDtd_putDtd (width height refresh wmm hmm : UInt32) :
    readDtd (putDtd width height refresh wmm hmm) =
      { pclk := (((width + 160) * (height + 30) * refresh + 5000) / 10000).toNat % 65536
        hactive := width.toNat % 4096
        hblank := 160
        vactive := height.toNat % 4096
        vblank := 30 } := by
  have h160 : (160 : UInt32) >>> 8 = 0 := by decide
  have h30 : (30 : UInt32) >>> 8 = 0 := by decide
  simp only [readDtd, putDtd, List.getD_cons_zero, List.getD_cons_succ, toNat_lowByte,
    toNat_highByte, toNat_nibbles _ h160, toNat_nibbles _ h30, Timing.mk.injEq]
  refine ⟨?_, ?_, ?_, ?_, ?_⟩
  · omega
  · omega
  · have hblank : (160 : UInt32).toNat = 160 := rfl
    omega
  · omega
  · have vblank : (30 : UInt32).toNat = 30 := rfl
    omega

/-! ## The blocks -/

section Blocks

variable (sizeMm : UInt32 → UInt32 → UInt32 × UInt32) (width height serial : UInt32)
  (model : Vector UInt8 13)

lemma length_nameDescriptor (name : List UInt8) : (nameDescriptor name).length = 18 := by
  simp [nameDescriptor]

lemma length_edidFront : (edidFront sizeMm width height serial).length = 54 := by
  simp [edidFront]

lemma length_putDtd (refresh wmm hmm : UInt32) :
    (putDtd width height refresh wmm hmm).length = 18 := rfl

lemma length_edidBase : (edidBase sizeMm width height serial model).length = 127 := by
  simp [edidBase, length_edidFront, length_nameDescriptor, length_putDtd, rangeDescriptor]

lemma length_edidExt : (edidExt sizeMm width height).length = 127 := by
  simp [edidExt, length_putDtd]

lemma length_withChecksum (b : List UInt8) : (withChecksum b).length = b.length + 1 := by
  simp [withChecksum]

lemma sum_withChecksum (b : List UInt8) : (withChecksum b).foldl (· + ·) 0 = 0 := by
  rw [withChecksum, List.foldl_append, List.foldl_cons, List.foldl_nil, UInt8.zero_sub,
    UInt8.add_right_neg]

/-- A piece at its place. -/
lemma drop_append_of_length {l r : List UInt8} {n : ℕ} (h : l.length = n) (k : ℕ) :
    (l ++ r).drop (n + k) = r.drop k := by
  rw [← h, List.drop_length_add_append]

/-- The second block begins at byte 128. -/
lemma drop_edidBuild (k : ℕ) : (edidBuild sizeMm width height serial model).drop (128 + k) =
    (withChecksum (edidExt sizeMm width height)).drop k :=
  drop_append_of_length (by rw [length_withChecksum, length_edidBase]) k

lemma readDtd_append (refresh wmm hmm : UInt32) (r : List UInt8) :
    readDtd (putDtd width height refresh wmm hmm ++ r) =
      readDtd (putDtd width height refresh wmm hmm) := rfl

/-- The four timings: their places and the rates they are meant to have. -/
def timings : List (ℕ × UInt32) := [(54, 60), (72, 30), (132, 120), (150, 15)]

/-- The descriptors begin at byte 54. -/
lemma drop_descriptors : ∃ rest, (edidBuild sizeMm width height serial model).drop 54 =
    putDtd width height 60 (sizeMm width height).1 (sizeMm width height).2 ++
      (putDtd width height 30 (sizeMm width height).1 (sizeMm width height).2 ++
        (nameDescriptor (edidName model) ++ rest)) := by
  have hfront := length_edidFront sizeMm width height serial
  refine ⟨rangeDescriptor ++ [1] ++ [0 - (edidBase sizeMm width height serial model).foldl
    (· + ·) 0] ++ withChecksum (edidExt sizeMm width height), ?_⟩
  rw [edidBuild, withChecksum, edidBase, List.append_assoc, List.append_assoc,
    drop_append_of_length hfront 0, List.drop_zero]
  simp only [List.append_assoc]

/-- The timings stand where a reader looks for them. -/
lemma readDtd_edidBuild {off : ℕ} {refresh : UInt32} (h : (off, refresh) ∈ timings) :
    readDtd ((edidBuild sizeMm width height serial model).drop off) =
      readDtd (putDtd width height refresh (sizeMm width height).1 (sizeMm width height).2) := by
  have hdtd := length_putDtd width height
  obtain ⟨rest, hrest⟩ := drop_descriptors sizeMm width height serial model
  simp only [timings, List.mem_cons, Prod.mk.injEq, List.not_mem_nil, or_false] at h
  rcases h with ⟨rfl, rfl⟩ | ⟨rfl, rfl⟩ | ⟨rfl, rfl⟩ | ⟨rfl, rfl⟩
  · rw [hrest, readDtd_append]
  · have hnext := congrArg (List.drop 18) hrest
    rw [List.drop_drop, drop_append_of_length (hdtd _ _ _) 0, List.drop_zero] at hnext
    rw [hnext, readDtd_append]
  · rw [drop_edidBuild _ _ _ _ _ 4, withChecksum, edidExt, List.append_assoc,
      drop_append_of_length (n := 4) rfl 0, List.drop_zero, List.append_assoc, readDtd_append]
  · rw [drop_edidBuild _ _ _ _ _ 22, withChecksum, edidExt, List.append_assoc,
      drop_append_of_length (n := 4) rfl 18, List.append_assoc, drop_append_of_length (hdtd _ _ _) 0,
      List.drop_zero, List.append_assoc, readDtd_append]

/-! ## The timings -/

/-- What the four timings are to say, with no product wrapping on the way. -/
structure TimingsRead (width height : UInt16) : Prop where
  reads : ∀ t ∈ timings,
    let d := readDtd
      ((edidBuild sizeMm width.toUInt32 height.toUInt32 serial model).drop t.1)
    d.hactive = width.toNat ∧ d.vactive = height.toNat ∧ d.hblank = 160 ∧ d.vblank = 30 ∧
      d.refresh = t.2.toNat
  noWrap : ∀ t ∈ timings, (width.toNat + 160) * (height.toNat + 30) * t.2.toNat + 5000 < 2 ^ 32

end Blocks

/-- The multiple of 10 kHz nearest to `total * rate` Hz is off by less than half of `total`, or
below it by just that half. -/
def RoundsBack (total rate : ℕ) : Prop :=
  10000 < total + 2 * ((total * rate + 5000) % 10000) ∧
    2 * ((total * rate + 5000) % 10000) ≤ total + 10000

instance (total rate : ℕ) : Decidable (RoundsBack total rate) := inferInstanceAs (Decidable (_ ∧ _))

/-- The sizes that the fields hold, at a pixel clock that sixteen bits hold. -/
def FitsTimings (width height : ℕ) : Prop :=
  width ≤ 4095 ∧ height ≤ 4095 ∧ (width + 160) * (height + 30) ≤ 5461291 ∧
    ∀ rate ∈ [60, 30, 120, 15], RoundsBack ((width + 160) * (height + 30)) rate

instance (width height : ℕ) : Decidable (FitsTimings width height) :=
  inferInstanceAs (Decidable (_ ∧ _))

/-- From some ten thousand pixels on the 10 kHz do not matter. -/
lemma roundsBack_of_lt {total : ℕ} (h : 10000 < total) (rate : ℕ) : RoundsBack total rate := by
  unfold RoundsBack
  omega

lemma roundDiv_eq_iff {a b r : ℕ} (hb : 0 < b) :
    roundDiv a b = r ↔ r * (2 * b) ≤ 2 * a + b ∧ 2 * a + b < (r + 1) * (2 * b) := by
  rw [roundDiv, Nat.div_eq_iff (by omega), Nat.add_mul]
  omega

/-- The rate that is read from an unabridged pixel clock. -/
lemma roundDiv_clock_iff {total : ℕ} (h : 0 < total) (rate : ℕ) :
    roundDiv ((total * rate + 5000) / 10000 * 10000) total = rate ↔ RoundsBack total rate := by
  rw [roundDiv_eq_iff h, RoundsBack]
  have hl : rate * (2 * total) = 2 * (total * rate) := by ring
  have hr : (rate + 1) * (2 * total) = 2 * (total * rate) + 2 * total := by ring
  rw [hl, hr]
  generalize total * rate = x
  omega

section TimingsIff

variable (sizeMm : UInt32 → UInt32 → UInt32 × UInt32) (serial : UInt32) (model : Vector UInt8 13)

/-- The pixel clock as a reader finds it. -/
lemma pclk_read {width height : UInt16} {rate : UInt32} (hpos : 0 < rate.toNat)
    (h : (width.toNat + 160) * (height.toNat + 30) * rate.toNat + 5000 < 2 ^ 32) :
    (((width.toUInt32 + 160) * (height.toUInt32 + 30) * rate + 5000) / 10000).toNat % 65536 =
      ((width.toNat + 160) * (height.toNat + 30) * rate.toNat + 5000) / 10000 % 65536 :=
  congrArg (· % 65536) (@toNat_pclk width.toUInt32 height.toUInt32 rate h hpos)

lemma rate_le {off : ℕ} {rate : UInt32} (h : (off, rate) ∈ timings) :
    0 < rate.toNat ∧ rate.toNat ≤ 120 ∧ rate.toNat ∈ [60, 30, 120, 15] := by
  have hall : timings.all fun t => decide (0 < t.2.toNat ∧ t.2.toNat ≤ 120 ∧
      t.2.toNat ∈ [60, 30, 120, 15]) = true := by decide
  simpa using List.all_eq_true.mp hall _ h

/-- A clock that sixteen bits do not hold is read as a lower rate. -/
lemma le_of_clock {total : ℕ} (h : total * 120 + 5000 < 2 ^ 32) (hlow : 120 * (2 * total) ≤
    2 * ((total * 120 + 5000) / 10000 % 65536 * 10000) + total) : total ≤ 5461291 := by
  by_contra hlarge
  -- what is read lacks at least one multiple of 65536
  have hcut : 65536 ≤ (total * 120 + 5000) / 10000 := by omega
  have hmod : (total * 120 + 5000) / 10000 % 65536 + 65536 ≤ (total * 120 + 5000) / 10000 := by
    omega
  omega

lemma exists_timing {rate : ℕ} (h : rate ∈ [60, 30, 120, 15]) :
    ∃ t ∈ timings, t.2.toNat = rate := by
  simp only [List.mem_cons, List.not_mem_nil, or_false] at h
  rcases h with rfl | rfl | rfl | rfl
  · exact ⟨(54, 60), by decide, rfl⟩
  · exact ⟨(72, 30), by decide, rfl⟩
  · exact ⟨(132, 120), by decide, rfl⟩
  · exact ⟨(150, 15), by decide, rfl⟩

/-- The rate that is read, for a size that fits. -/
lemma refresh_read {width height : UInt16} {v : UInt32} (hv : 0 < v.toNat) (hle : v.toNat ≤ 120)
    (hlimit : (width.toNat + 160) * (height.toNat + 30) ≤ 5461291) (hw : width.toNat ≤ 4095)
    (hh : height.toNat ≤ 4095) :
    roundDiv ((((width.toUInt32 + 160) * (height.toUInt32 + 30) * v + 5000) / 10000).toNat % 65536 *
        10000) ((width.toUInt32.toNat % 4096 + 160) * (height.toUInt32.toNat % 4096 + 30)) =
      roundDiv (((width.toNat + 160) * (height.toNat + 30) * v.toNat + 5000) / 10000 * 10000)
        ((width.toNat + 160) * (height.toNat + 30)) := by
  have hmul := Nat.mul_le_mul hlimit hle
  have hwidth : width.toUInt32.toNat % 4096 = width.toNat :=
    Nat.mod_eq_of_lt (Nat.lt_succ_of_le hw)
  have hheight : height.toUInt32.toNat % 4096 = height.toNat :=
    Nat.mod_eq_of_lt (Nat.lt_succ_of_le hh)
  rw [pclk_read hv (by omega), hwidth, hheight]
  congr 2
  exact Nat.mod_eq_of_lt (by omega)

/-- **The timings say what they are meant to exactly for the sizes that fit.** -/
theorem timings_iff (width height : UInt16) :
    TimingsRead sizeMm serial model width height ↔ FitsTimings width.toNat height.toNat := by
  set total := (width.toNat + 160) * (height.toNat + 30) with htotal
  have hpos : 0 < total := Nat.mul_pos (by omega) (by omega)
  constructor
  · rintro ⟨hreads, hwrap⟩
    -- the fastest timing has the largest clock
    have hmem : ((132, 120) : ℕ × UInt32) ∈ timings := by decide
    have hfast := hwrap _ hmem
    obtain ⟨hwidth, hheight, -, -, hrate⟩ := hreads _ hmem
    rw [readDtd_edidBuild sizeMm _ _ _ _ hmem, readDtd_putDtd] at hwidth hheight hrate
    replace hwidth : width.toNat % 4096 = width.toNat := hwidth
    replace hheight : height.toNat % 4096 = height.toNat := hheight
    have hclock : roundDiv ((total * 120 + 5000) / 10000 % 65536 * 10000) total = 120 := by
      have hr := hrate
      rw [Timing.refresh, pclk_read (by decide) hfast] at hr
      dsimp only at hr
      have hsize : (width.toUInt32.toNat % 4096 + 160) * (height.toUInt32.toNat % 4096 + 30) =
          total := by
        rw [htotal]
        exact congrArg₂ (fun a b => (a + 160) * (b + 30)) hwidth hheight
      rwa [hsize] at hr
    have hlimit : total ≤ 5461291 := le_of_clock hfast ((roundDiv_eq_iff hpos).mp hclock).1
    have hw : width.toNat ≤ 4095 := by omega
    have hh : height.toNat ≤ 4095 := by omega
    refine ⟨hw, hh, hlimit, ?_⟩
    intro rate hrate
    obtain ⟨⟨off, v⟩, ht, rfl⟩ := exists_timing hrate
    obtain ⟨hv, hle, -⟩ := rate_le ht
    obtain ⟨-, -, -, -, hrefresh⟩ := hreads _ ht
    rw [readDtd_edidBuild sizeMm _ _ _ _ ht, readDtd_putDtd, Timing.refresh] at hrefresh
    rw [refresh_read hv hle hlimit hw hh] at hrefresh
    exact (roundDiv_clock_iff hpos _).mp hrefresh
  · rintro ⟨hw, hh, hlimit, hrounds⟩
    have hsmall : ∀ {off v}, (off, v) ∈ timings → total * v.toNat + 5000 < 2 ^ 32 := by
      intro off v ht
      have hmul : total * v.toNat ≤ 5461291 * 120 := Nat.mul_le_mul hlimit (rate_le ht).2.1
      omega
    refine ⟨?_, fun t ht => hsmall ht⟩
    rintro ⟨off, v⟩ ht
    obtain ⟨hv, hle, hrate⟩ := rate_le ht
    dsimp only
    rw [readDtd_edidBuild sizeMm _ _ _ _ ht, readDtd_putDtd]
    refine ⟨Nat.mod_eq_of_lt (Nat.lt_succ_of_le hw), Nat.mod_eq_of_lt (Nat.lt_succ_of_le hh), rfl,
      rfl, ?_⟩
    rw [Timing.refresh, refresh_read hv hle hlimit hw hh]
    exact (roundDiv_clock_iff hpos _).mpr (hrounds _ hrate)

end TimingsIff

/-- A client of 3840x2160: what was meant to be 120 Hz is read as 45. -/
theorem uhd_timing_wraps :
    (readDtd ((edidBuild (fun _ _ => (531, 299)) 3840 2160 7 (Vector.replicate 13 0)).drop
      132)).refresh = 45 ∧
    ¬ TimingsRead (fun _ _ => (531, 299)) 7 (Vector.replicate 13 0) 3840 2160 := by
  refine ⟨by decide +kernel, ?_⟩
  intro h
  have hrate := (h.reads (132, 120) (by decide)).2.2.2.2
  exact absurd hrate (by decide +kernel)

/-! ## The identity -/

/-- The longest printable prefix of the model, without the spaces at its end. -/
def wantedName (model : Vector UInt8 13) : List UInt8 :=
  (model.toList.takeWhile isPrintable).rdropWhile (· = 0x20)

/-- What an EDID is to say of a client. -/
structure Identifies (e : List UInt8) (serial : UInt32) (model : Vector UInt8 13) : Prop where
  sums : e.length = 256 ∧ (e.take 128).foldl (· + ·) 0 = 0 ∧ (e.drop 128).foldl (· + ·) 0 = 0
  serial : ofLe ((e.drop 12).take 4) = serial.toNat
  name : discoverName e = some (if wantedName model = [] then defaultName else wantedName model)

/-- The printable prefix of the model is not made of spaces alone. -/
def NotBlank (model : Vector UInt8 13) : Prop :=
  model.toList.takeWhile isPrintable = [] ∨
    ∃ b ∈ model.toList.takeWhile isPrintable, b ≠ 0x20

lemma copiedModel_eq (model : Vector UInt8 13) :
    copiedModel model = model.toList.takeWhile isPrintable := by
  have hpred : (fun b : UInt8 => decide (b ≠ 0) && isPrintable b) = isPrintable := by
    funext b
    by_cases hb : b = 0
    · subst hb
      rfl
    · simp [hb]
  rw [copiedModel, hpred]

/-- The name as it is written: the copy without its trailing spaces, unless nothing is left of it;
then what the copy left of the default. -/
lemma edidName_eq (model : Vector UInt8 13) : edidName model =
    if wantedName model = [] then
      copiedModel model ++ defaultName.drop (copiedModel model).length
    else wantedName model := by
  have hwanted : wantedName model = (copiedModel model).rdropWhile (· = 0x20) := by
    rw [copiedModel_eq, wantedName]
  have hpre : wantedName model <+: copiedModel model := hwanted ▸ List.rdropWhile_prefix _ _
  unfold edidName
  dsimp only
  rw [← hwanted]
  by_cases hnil : wantedName model = []
  · rw [hnil]
    rfl
  · have hpos : 0 < (wantedName model).length := List.length_pos_iff.mpr hnil
    rw [if_pos hpos, if_neg hnil, List.take_append_of_le_length hpre.length_le]
    exact (List.prefix_iff_eq_take.mp hpre).symm

lemma length_copiedModel (model : Vector UInt8 13) : (copiedModel model).length ≤ 13 := by
  rw [copiedModel]
  exact (List.takeWhile_prefix _).length_le.trans (by simp)

lemma isPrintable_of_mem_copied {model : Vector UInt8 13} {b : UInt8}
    (h : b ∈ copiedModel model) : isPrintable b = true := by
  rw [copiedModel_eq] at h
  exact List.mem_takeWhile_imp h

/-- The name fits, and is printable. -/
lemma edidName_fits (model : Vector UInt8 13) :
    (edidName model).length ≤ 13 ∧ ∀ b ∈ edidName model, isPrintable b = true := by
  have hlen := length_copiedModel model
  have hdefault : defaultName.length = 13 := by decide
  have hprint : ∀ b ∈ defaultName, isPrintable b = true := by
    intro b hb
    exact List.all_eq_true.mp (show defaultName.all isPrintable = true by decide) b hb
  rw [edidName_eq]
  split
  · refine ⟨?_, ?_⟩
    · rw [List.length_append, List.length_drop]
      omega
    · intro b hb
      rcases List.mem_append.mp hb with hc | hd
      · exact isPrintable_of_mem_copied hc
      · exact hprint b (List.mem_of_mem_drop hd)
  · have hpre : wantedName model <+: copiedModel model := by
      rw [copiedModel_eq, wantedName]
      exact List.rdropWhile_prefix _ _
    exact ⟨hpre.length_le.trans hlen, fun b hb => isPrintable_of_mem_copied (hpre.subset hb)⟩

/-- **Reading a name descriptor**: the name without the spaces at its end. -/
lemma readName_nameDescriptor {name : List UInt8} (hlen : name.length ≤ 13)
    (hprint : ∀ b ∈ name, isPrintable b = true) (r : List UInt8) :
    readName (nameDescriptor name ++ r) = name.rdropWhile (· = 0x20) := by
  have hstop : ∀ b ∈ name, (decide (b ≠ 0x0A) && isPrintable b) = true := by
    intro b hb
    have hne : b ≠ 0x0A := by
      rintro rfl
      exact absurd (hprint _ hb) (by decide)
    simp [hne, hprint b hb]
  have hfield : ((nameDescriptor name ++ r).drop 5).take 13 =
      (name ++ 0x0A :: List.replicate 13 0x20).take 13 := by
    rw [nameDescriptor, List.append_assoc, drop_append_of_length (n := 5) rfl 0, List.drop_zero]
    exact List.take_left' (by simp)
  have htake : ((name ++ 0x0A :: List.replicate 13 0x20).take 13).takeWhile
      (fun b => decide (b ≠ 0x0A) && isPrintable b) = name := by
    rw [List.take_append, List.take_of_length_le hlen, List.takeWhile_append_of_pos hstop]
    have hrest : ((0x0A :: List.replicate 13 0x20 : List UInt8).take (13 - name.length)).takeWhile
        (fun b => decide (b ≠ 0x0A) && isPrintable b) = [] := by
      cases 13 - name.length with
      | zero => rfl
      | succ n => rfl
    rw [hrest, List.append_nil]
  rw [readName, hfield, htake]

lemma getD_add (l : List UInt8) (n k : ℕ) : l.getD (n + k) 0 = (l.drop n).getD k 0 := by
  simp [List.getD_eq_getElem?_getD, List.getElem?_drop]

section IdentifiesIff

variable (sizeMm : UInt32 → UInt32 → UInt32 × UInt32) (width height serial : UInt32)
  (model : Vector UInt8 13)

/-- A timing is not taken for a name: its fourth byte is the horizontal blanking. -/
lemma discoverName_edidBuild :
    discoverName (edidBuild sizeMm width height serial model) =
      some ((edidName model).rdropWhile (· = 0x20)) := by
  obtain ⟨rest, h54⟩ := drop_descriptors sizeMm width height serial model
  have hdtd := length_putDtd width height
  generalize edidBuild sizeMm width height serial model = e at h54
  have h72 := congrArg (List.drop 18) h54
  rw [List.drop_drop, drop_append_of_length (hdtd _ _ _) 0, List.drop_zero] at h72
  have h90 := congrArg (List.drop 18) h72
  rw [List.drop_drop, drop_append_of_length (hdtd _ _ _) 0, List.drop_zero] at h90
  have hno54 : e.getD (54 + 3) 0 = 160 := by
    rw [getD_add, h54]
    rfl
  have hno72 : e.getD (72 + 3) 0 = 160 := by
    rw [getD_add]
    exact (congrArg (fun l : List UInt8 => l.getD 3 0) h72).trans rfl
  have hyes : e.getD 90 0 = 0 ∧ e.getD (90 + 1) 0 = 0 ∧ e.getD (90 + 3) 0 = 0xFC := by
    have h0 := getD_add e 90 0
    have h1 := getD_add e 90 1
    have h3 := getD_add e 90 3
    rw [h90] at h0 h1 h3
    exact ⟨h0, h1, h3⟩
  have hfind : ([54, 72, 90, 108].find? fun off =>
      e.getD off 0 = 0 && e.getD (off + 1) 0 = 0 && e.getD (off + 3) 0 = 0xFC) = some 90 := by
    rw [List.find?_cons_of_neg (by rw [hno54]; simp), List.find?_cons_of_neg (by rw [hno72]; simp),
      List.find?_cons_of_pos (by rw [hyes.1, hyes.2.1, hyes.2.2]; rfl)]
  obtain ⟨hlen, hprint⟩ := edidName_fits model
  rw [discoverName, hfind, Option.map_some, h90, readName_nameDescriptor hlen hprint]

/-- The bytes 12 to 15. -/
lemma serial_edidBuild : ofLe (((edidBuild sizeMm width height serial model).drop 12).take 4) =
    serial.toNat := by
  have hbytes : ((edidBuild sizeMm width height serial model).drop 12).take 4 =
      [(serial &&& 0xFF).toUInt8, ((serial >>> 8) &&& 0xFF).toUInt8,
        ((serial >>> 16) &&& 0xFF).toUInt8, (serial >>> 24).toUInt8] := by
    simp only [edidBuild, withChecksum, edidBase, edidFront, List.append_assoc]
    rw [drop_append_of_length (n := 12) rfl 0, List.drop_zero]
    exact List.take_left' rfl
  have hsecond : (serial >>> 8).toNat = serial.toNat / 256 := by
    rw [UInt32.toNat_shiftRight]
    exact Nat.shiftRight_eq_div_pow serial.toNat 8
  have hthird : (serial >>> 16).toNat = serial.toNat / 65536 := by
    rw [UInt32.toNat_shiftRight]
    exact Nat.shiftRight_eq_div_pow serial.toNat 16
  have hfourth : (serial >>> 24).toUInt8.toNat = serial.toNat / 16777216 % 256 := by
    rw [UInt32.toNat_toUInt8, UInt32.toNat_shiftRight]
    exact congrArg (· % 2 ^ 8) (Nat.shiftRight_eq_div_pow serial.toNat 24)
  have hlt : serial.toNat < 2 ^ 32 := serial.toNat_lt
  rw [hbytes]
  simp only [ofLe, toNat_lowByte, hsecond, hthird, hfourth]
  omega

lemma sums_edidBuild : (edidBuild sizeMm width height serial model).length = 256 ∧
    ((edidBuild sizeMm width height serial model).take 128).foldl (· + ·) 0 = 0 ∧
    ((edidBuild sizeMm width height serial model).drop 128).foldl (· + ·) 0 = 0 := by
  have hbase : (withChecksum (edidBase sizeMm width height serial model)).length = 128 := by
    rw [length_withChecksum, length_edidBase]
  have hext : (withChecksum (edidExt sizeMm width height)).length = 128 := by
    rw [length_withChecksum, length_edidExt]
  refine ⟨?_, ?_, ?_⟩
  · rw [edidBuild, List.length_append, hbase, hext]
  · rw [edidBuild, List.take_left' hbase, sum_withChecksum]
  · rw [edidBuild, List.drop_left' hbase, sum_withChecksum]

/-- What is read when only spaces were copied is not the default name: it begins with a space, or
is empty. -/
lemma blank_read {copied : List UInt8} (hne : copied ≠ []) (hblank : ∀ b ∈ copied, b = 0x20) :
    (copied ++ defaultName.drop copied.length).rdropWhile (· = 0x20) ≠ defaultName := by
  intro h
  obtain ⟨b, bs, rfl⟩ := List.exists_cons_of_ne_nil hne
  obtain rfl : b = 0x20 := hblank b (List.mem_cons_self ..)
  have hpre := List.rdropWhile_prefix (fun b : UInt8 => decide (b = 0x20))
    (0x20 :: bs ++ defaultName.drop (0x20 :: bs).length)
  rw [h] at hpre
  obtain ⟨t, ht⟩ := hpre
  have hhead : (0x34 : UInt8) = 0x20 := (List.cons.inj ht).1
  exact absurd hhead (by decide)

/-- **The identity is the intended one unless the printable part of the model is blank.** -/
theorem identity_iff :
    Identifies (edidBuild sizeMm width height serial model) serial model ↔ NotBlank model := by
  have hdiscover := discoverName_edidBuild sizeMm width height serial model
  have hdefault : defaultName.rdropWhile (· = 0x20) = defaultName := by decide +kernel
  have hwanted : (wantedName model).rdropWhile (· = 0x20) = wantedName model :=
    List.rdropWhile_idempotent _ _
  have hnil : wantedName model = [] ↔ ∀ b ∈ copiedModel model, b = 0x20 := by
    rw [copiedModel_eq, wantedName, List.rdropWhile_eq_nil_iff]
    simp
  rw [edidName_eq] at hdiscover
  constructor
  · intro h
    by_contra hblank
    simp only [NotBlank, ← copiedModel_eq, not_or, not_exists, not_and, not_not] at hblank
    have hname := h.name
    rw [hdiscover, if_pos (hnil.mpr hblank.2), if_pos (hnil.mpr hblank.2)] at hname
    exact blank_read hblank.1 hblank.2 (Option.some.inj hname)
  · intro h
    refine ⟨sums_edidBuild .., serial_edidBuild .., ?_⟩
    rw [hdiscover]
    by_cases hw : wantedName model = []
    · have hempty : copiedModel model = [] := by
        rw [NotBlank, ← copiedModel_eq] at h
        obtain hempty | ⟨b, hb, hne⟩ := h
        · exact hempty
        · exact absurd (hnil.mp hw b hb) hne
      rw [if_pos hw, if_pos hw, hempty, List.nil_append, List.length_nil, List.drop_zero, hdefault]
    · rw [if_neg hw, if_neg hw, hwanted]

end IdentifiesIff

/-- A model of three spaces: the name keeps them in front of what is left of the default. -/
theorem blank_model_keeps_spaces :
    discoverName (edidBuild (fun _ _ => (531, 299)) 1920 1080 7
      #v[0x20, 0x20, 0x20, 0, 0, 0, 0, 0, 0, 0, 0, 0, 0]) =
        some ("   eng-sRemFB".toList.map fun c => UInt8.ofNat c.toNat) ∧
    ¬ Identifies (edidBuild (fun _ _ => (531, 299)) 1920 1080 7
      #v[0x20, 0x20, 0x20, 0, 0, 0, 0, 0, 0, 0, 0, 0, 0]) 7
        #v[0x20, 0x20, 0x20, 0, 0, 0, 0, 0, 0, 0, 0, 0, 0] := by
  refine ⟨by decide +kernel, ?_⟩
  intro h
  exact absurd h.name (by decide +kernel)

end Sremfb
