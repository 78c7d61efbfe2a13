import Sremfb.Lib.Doubles
import Sremfb.Lib.Rect
import Sremfb.Server.Input
import Mathlib.Logic.Function.Basic
import Mathlib.Data.List.Basic

/-!
# Placing the absolute pointer (`input.c`)

The client sends stream pixels, the uinput device wants positions on the compositor's whole
layout, and libinput scales what the device says onto that layout.  `layout_parse` reads where
the monitors are, `layout_map` composes the two scalings: it aims at the middle of the target
pixel and gives the position in steps of a 32768th of the layout.

A step is wider than half a pixel once the layout is large, and the position is cut off, not
rounded: `pointer_lands_iff` says exactly which pixels still land on the client's own monitor.
The arithmetic is that of doubles, with the rounding after every operation (`Doubles`).  It makes
no difference on a layout of an ordinary size (`stage_eq_rational`).
-/

namespace Sremfb

open Lib

/-! ## The compositor's state -/

/-- A mode of a monitor in the reply of `GetCurrentState`. -/
structure StateMode where
  width : ℤ
  height : ℤ
  isCurrent : Bool

/-- A monitor with its modes. -/
structure StateMonitor where
  connector : List Char
  modes : List StateMode

/-- A logical monitor with the connectors it shows on. -/
structure StateLogical where
  x : ℤ
  y : ℤ
  scale : ℚ
  transform : UInt32
  specs : List (List Char)

/-- The reply of `GetCurrentState`. -/
structure DisplayState where
  monitors : List StateMonitor
  logical : List StateLogical
  layoutMode : Option UInt32 := none

/-! ## The layout -/

/-- `SremfbLayoutMon`. -/
structure LayoutMon where
  connector : List Char
  x : ℤ
  y : ℤ
  w : ℤ
  h : ℤ
  deriving DecidableEq

/-- `L`: the monitors and the extents of the stage. -/
structure Layout where
  mons : List LayoutMon := []
  extW : ℤ := 0
  extH : ℤ := 0

/-- `lround`, halves away from zero. -/
def lround (q : ℚ) : ℤ := if 0 ≤ q then ⌊q + 1 / 2⌋ else ⌈q - 1 / 2⌉

/-- The conversion to `int`. -/
def intOfLong (k : ℤ) : ℤ := k.bmod (2 ^ 32)

/-- The conversion of a double to `int`, which cuts the fraction off. -/
def truncate (q : ℚ) : ℤ := if 0 ≤ q then ⌊q⌋ else ⌈q⌉

section Parse

variable (F : Doubles)

/-- `modes`, the current mode of every connector; a later one replaces an earlier one. -/
def currentModes (mons : List StateMonitor) : List Char → Option (ℤ × ℤ) :=
  mons.foldl (fun table m =>
    m.modes.foldl (fun table mode =>
      if mode.isCurrent then Function.update table m.connector (some (mode.width, mode.height))
      else table) table) fun _ => none

/-- The size on the stage of a logical monitor that shows a mode. -/
def stageSize (layoutMode : UInt32) (lg : StateLogical) (wh : ℤ × ℤ) : ℤ × ℤ :=
  let t := if lg.transform &&& 1 = 1 then (wh.2, wh.1) else wh
  if layoutMode = 1 ∧ 0 < lg.scale then
    (intOfLong (lround (F.fl (t.1 / lg.scale))), intOfLong (lround (F.fl (t.2 / lg.scale))))
  else t

/-- One round of the loop over the specs of a logical monitor: `w` and `h`, and `L.mons`. -/
def specStep (layoutMode : UInt32) (modes : List Char → Option (ℤ × ℤ)) (lg : StateLogical)
    (a : (ℤ × ℤ) × List LayoutMon) (conn : List Char) : (ℤ × ℤ) × List LayoutMon :=
  let size := if a.1.1 = 0 then (modes conn).elim a.1 (stageSize F layoutMode lg) else a.1
  (size, a.2 ++ [⟨conn.take 31, lg.x, lg.y, size.1, size.2⟩])

/-- One round of the loop over the logical monitors. -/
def logicalStep (layoutMode : UInt32) (modes : List Char → Option (ℤ × ℤ)) (L : Layout)
    (lg : StateLogical) : Layout :=
  let a := lg.specs.foldl (specStep F layoutMode modes lg) ((0, 0), L.mons)
  { mons := a.2
    extW := if 0 < a.1.1 then max L.extW (lg.x + a.1.1) else L.extW
    extH := if 0 < a.1.1 then max L.extH (lg.y + a.1.2) else L.extH }

/-- `layout_parse`. -/
def layoutParse (st : DisplayState) : Layout :=
  st.logical.foldl (logicalStep F (st.layoutMode.getD 1) (currentModes st.monitors)) {}

end Parse

/-- `struct sremfb_geom` of a stream. -/
structure StreamGeom where
  width : ℤ
  height : ℤ
  width_pos : 0 < width
  height_pos : 0 < height

namespace Layout

/-- The monitor of a client's connector. -/
def monOf (L : Layout) (conn : List Char) : Option LayoutMon :=
  L.mons.find? fun lm => lm.connector = conn ∧ 0 < lm.w

/-- A stream position on the stage, in steps of a 32768th of the stage, before it is cut off. -/
def scaled (F : Doubles) (pos size extent n v : ℤ) : ℚ :=
  let g := F.fl (pos + F.fl (F.fl (F.fl (v + 1 / 2) * size) / n))
  F.fl (F.fl (g * (absPointerMax + 1)) / extent)

/-- One coordinate of `layout_map`. -/
def stage (F : Doubles) (pos size extent n v : ℤ) : ℤ :=
  clamp (truncate (scaled F pos size extent n (clamp v 0 (n - 1)))) 0 absPointerMax

/-- `layout_map`. -/
def layoutMap (F : Doubles) (L : Layout) (conn : List Char) (geom : StreamGeom) (code : ℕ) (v : ℤ) :
    Option ℤ :=
  if conn = [] ∨ L.extW ≤ 0 ∨ L.extH ≤ 0 then none
  else (L.monOf conn).map fun lm =>
    if code = Evdev.absX then stage F lm.x lm.w L.extW geom.width v
    else stage F lm.y lm.h L.extH geom.height v

/-- What `layout_map` gives is a position of the device. -/
lemma layoutMap_mem {F : Doubles} {L : Layout} {conn : List Char} {geom : StreamGeom} {code : ℕ}
    {v p : ℤ} (h : L.layoutMap F conn geom code v = some p) : 0 ≤ p ∧ p ≤ absPointerMax := by
  have hstage : ∀ pos size extent n v, 0 ≤ stage F pos size extent n v ∧
      stage F pos size extent n v ≤ absPointerMax := fun _ _ _ _ _ =>
    ⟨le_clamp (by decide), clamp_le (by decide)⟩
  unfold layoutMap at h
  split at h
  · cases h
  · obtain ⟨lm, -, rfl⟩ := Option.map_eq_some_iff.mp h
    split
    · exact hstage ..
    · exact hstage ..

/-! ## The extents hold every monitor -/

/-- Every monitor with a size lies within the extents, at a position that is not negative. -/
def Covers (L : Layout) : Prop :=
  ∀ lm ∈ L.mons, 0 < lm.w → 0 ≤ lm.x ∧ 0 ≤ lm.y ∧ lm.x + lm.w ≤ L.extW ∧ lm.y + lm.h ≤ L.extH

variable {F : Doubles} {layoutMode : UInt32} {modes : List Char → Option (ℤ × ℤ)}

/-- A width that is known stays. -/
lemma specs_size {lg : StateLogical} (specs : List (List Char)) {a : (ℤ × ℤ) × List LayoutMon}
    (ha : a.1.1 ≠ 0) : (specs.foldl (specStep F layoutMode modes lg) a).1 = a.1 := by
  induction specs generalizing a with
  | nil => rfl
  | cons c specs ih =>
      have hstep : (specStep F layoutMode modes lg a c).1 = a.1 := by
        simp only [specStep, if_neg ha]
      rw [List.foldl_cons, ih (by rwa [hstep]), hstep]

/-- What a logical monitor adds has no width, or its position and its final size. -/
lemma mem_specs {lg : StateLogical} (specs : List (List Char)) {a : (ℤ × ℤ) × List LayoutMon}
    {lm : LayoutMon} (hlm : lm ∈ (specs.foldl (specStep F layoutMode modes lg) a).2) :
    lm ∈ a.2 ∨ lm.w = 0 ∨ (lm.x = lg.x ∧ lm.y = lg.y ∧
      (lm.w, lm.h) = (specs.foldl (specStep F layoutMode modes lg) a).1) := by
  induction specs generalizing a with
  | nil => exact .inl hlm
  | cons c specs ih =>
      rw [List.foldl_cons] at hlm ⊢
      rcases ih hlm with hold | hrest
      · rcases List.mem_append.mp hold with hold | hnew
        · exact .inl hold
        · rw [List.mem_singleton] at hnew
          right
          by_cases hw : lm.w = 0
          · exact .inl hw
          · right
            have hsize : (specStep F layoutMode modes lg a c).1.1 ≠ 0 := by
              rwa [hnew] at hw
            rw [specs_size specs hsize, hnew]
            exact ⟨rfl, rfl, rfl⟩
      · exact .inr hrest

lemma Covers.logicalStep {L : Layout} (hL : L.Covers) {lg : StateLogical} (hx : 0 ≤ lg.x)
    (hy : 0 ≤ lg.y) : (logicalStep F layoutMode modes L lg).Covers := by
  intro lm hlm hw
  dsimp only [Sremfb.logicalStep] at hlm ⊢
  rcases mem_specs lg.specs hlm with hold | hzero | ⟨hlx, hly, hsize⟩
  · obtain ⟨h0x, h0y, hextW, hextH⟩ := hL lm hold hw
    refine ⟨h0x, h0y, ?_, ?_⟩
    · split
      · exact hextW.trans (le_max_left ..)
      · exact hextW
    · split
      · exact hextH.trans (le_max_left ..)
      · exact hextH
  · omega
  · rw [← hsize, if_pos hw, if_pos hw, hlx, hly]
    exact ⟨hx, hy, le_max_right .., le_max_right ..⟩

/-- **The extents hold every monitor** that `layout_parse` finds. -/
lemma covers_layoutParse (F : Doubles) {st : DisplayState}
    (hst : ∀ lg ∈ st.logical, 0 ≤ lg.x ∧ 0 ≤ lg.y) : (layoutParse F st).Covers := by
  unfold layoutParse
  have hempty : (⟨[], 0, 0⟩ : Layout).Covers := fun lm hlm => (List.not_mem_nil hlm).elim
  generalize (⟨[], 0, 0⟩ : Layout) = L at hempty
  generalize st.logical = logical at hst
  induction logical generalizing L with
  | nil => exact hempty
  | cons lg logical ih =>
      obtain ⟨hlg, hrest⟩ := List.forall_mem_cons.mp hst
      exact ih _ (hempty.logicalStep hlg.1 hlg.2) hrest

/-! ## One coordinate -/

/-- One coordinate of a monitor within the extents, with a pixel of the stream. -/
structure Placed (pos size extent n v : ℤ) : Prop where
  pos_nonneg : 0 ≤ pos
  size_pos : 0 < size
  inside : pos + size ≤ extent
  pixel_nonneg : 0 ≤ v
  pixel_lt : v < n

/-- The middle of the pixel is at `target / (n * extent)` steps. -/
def target (pos size n v : ℤ) : ℤ := 16384 * (2 * n * pos + (2 * v + 1) * size)

namespace Placed

variable {pos size extent n v : ℤ}

/-- The size of the numbers: a desktop and a stream of up to `2^34` between them. -/
lemma small (h : Placed pos size extent n v) (hsmall : n * extent ≤ 2 ^ 34) :
    extent ≤ 2 ^ 34 ∧ n ≤ 2 ^ 34 ∧ (2 * v + 1) * size ≤ 2 ^ 35 := by
  obtain ⟨hpos, hsize, hin, hv, hlt⟩ := h
  have hextent : extent ≤ n * extent := le_mul_of_one_le_left (by linarith) (by linarith)
  have hn : n ≤ n * extent := le_mul_of_one_le_right (by linarith) (by linarith)
  have hprod : (2 * v + 1) * size ≤ 2 * n * extent :=
    mul_le_mul (by linarith) (by linarith) hsize.le (by linarith)
  exact ⟨by linarith, by linarith, by linarith⟩

/-- The first two operations lose nothing. -/
lemma fl_product (h : Placed pos size extent n v) (hsmall : n * extent ≤ 2 ^ 34) (F : Doubles) :
    F.fl (F.fl (v + 1 / 2) * size) = ((2 * v + 1) * size : ℤ) / 2 := by
  obtain ⟨-, hn, hprod⟩ := h.small hsmall
  obtain ⟨-, hsize, -, hv, hlt⟩ := h
  have hhalf : (v : ℚ) + 1 / 2 = ((2 * v + 1 : ℤ) : ℚ) / 2 := by push_cast; ring
  rw [hhalf, F.fl_half (by rw [abs_of_nonneg (by linarith)]; linarith),
    show ((2 * v + 1 : ℤ) : ℚ) / 2 * size = ((2 * v + 1) * size : ℤ) / 2 by push_cast; ring,
    F.fl_half]
  rw [abs_of_nonneg (mul_nonneg (by linarith) hsize.le)]
  linarith

/-- The middle of the pixel on the stage. -/
def centre (pos size n v : ℤ) : ℚ := pos + ((2 * v + 1) * size : ℤ) / 2 / n

lemma centre_steps (h : Placed pos size extent n v) :
    centre pos size n v * (absPointerMax + 1) / extent =
      (target pos size n v : ℚ) / (n * extent : ℤ) := by
  have hn : (n : ℚ) ≠ 0 := by exact_mod_cast (h.pixel_nonneg.trans_lt h.pixel_lt).ne'
  have hextent : (extent : ℚ) ≠ 0 := by
    exact_mod_cast (by linarith [h.pos_nonneg, h.size_pos, h.inside] : 0 < extent).ne'
  simp only [centre, target, absPointerMax]
  push_cast
  field_simp
  ring

lemma scaled_rational (h : Placed pos size extent n v) :
    scaled Doubles.rational pos size extent n v = (target pos size n v : ℚ) / (n * extent : ℤ) := by
  rw [← h.centre_steps]
  simp only [scaled, Doubles.rational, id, centre]
  push_cast
  ring

/-- The other four operations. -/
lemma scaled_near (h : Placed pos size extent n v) (hsmall : n * extent ≤ 2 ^ 34) (F : Doubles) :
    Doubles.Near 4 (scaled F pos size extent n v)
      ((target pos size n v : ℚ) / (n * extent : ℤ)) := by
  obtain ⟨hextent, hn, hprod⟩ := h.small hsmall
  rw [← h.centre_steps, scaled, h.fl_product hsmall F, centre]
  obtain ⟨hpos, hsize, hin, hv, hlt⟩ := h
  have hone : 1 ≤ (2 * v + 1) * size := one_le_mul_of_one_le_of_one_le (by linarith) hsize
  generalize (2 * v + 1) * size = k at hone hprod
  have hk : (1 : ℚ) ≤ k := by exact_mod_cast hone
  have hk' : (k : ℚ) ≤ 2 ^ 35 := by exact_mod_cast hprod
  have hnq : (1 : ℚ) ≤ n := by exact_mod_cast (by linarith : 1 ≤ n)
  have hnq' : (n : ℚ) ≤ 2 ^ 34 := by exact_mod_cast hn
  have hposq : (0 : ℚ) ≤ pos := by exact_mod_cast hpos
  have hposq' : (pos : ℚ) ≤ 2 ^ 34 := by exact_mod_cast (by linarith : pos ≤ 2 ^ 34)
  have heq : (1 : ℚ) ≤ extent := by exact_mod_cast (by linarith : 1 ≤ extent)
  have heq' : (extent : ℚ) ≤ 2 ^ 34 := by exact_mod_cast hextent
  have hclow : (1 : ℚ) / 2 ^ 35 ≤ k / 2 / n := by
    rw [div_div, div_le_div_iff₀ (by norm_num) (by linarith)]
    linarith
  have hchigh : (k : ℚ) / 2 / n ≤ 2 ^ 35 := by
    rw [div_div, div_le_iff₀ (by linarith)]
    linarith
  generalize (k : ℚ) / 2 / n = c at hclow hchigh
  have hstep₁ := (Doubles.Near.refl (y := c) (by linarith)).fl F (by norm_num)
    (by norm_num at hclow ⊢; linarith) (by norm_num at hchigh ⊢; linarith)
  have hstep₂ := (hstep₁.add hposq).fl F (by norm_num) (by norm_num at hclow ⊢; linarith)
    (by norm_num at hchigh hposq' ⊢; linarith)
  have hsteps : (0 : ℚ) < absPointerMax + 1 := by norm_num [absPointerMax]
  have hstep₃ := (hstep₂.mul hsteps).fl F (by norm_num)
    (by norm_num [absPointerMax] at hclow ⊢; linarith)
    (by norm_num [absPointerMax] at hchigh hposq' ⊢; linarith)
  refine (hstep₃.div (by linarith : (0 : ℚ) < extent)).fl F (by norm_num) ?_ ?_
  · rw [le_div_iff₀ (by linarith)]
    norm_num [absPointerMax] at hclow heq' ⊢
    linarith
  · rw [div_le_iff₀ (by linarith)]
    norm_num [absPointerMax] at hchigh hposq' ⊢
    linarith

/-- The target lies between the two ends of the stage. -/
lemma target_bounds (h : Placed pos size extent n v) :
    0 < target pos size n v ∧ target pos size n v < 32768 * (n * (pos + size)) ∧
      n * (pos + size) ≤ n * extent := by
  obtain ⟨hpos, hsize, hin, hv, hlt⟩ := h
  have hn : 0 < n := hv.trans_lt hlt
  have hprod : (2 * v + 1) * size < 2 * n * size :=
    mul_lt_mul_of_pos_right (by linarith) hsize
  have hpos' : 0 ≤ n * pos := mul_nonneg hn.le hpos
  have hk : 0 < (2 * v + 1) * size := mul_pos (by linarith) hsize
  unfold target
  exact ⟨by linarith, by linarith, mul_le_mul_of_nonneg_left hin hn.le⟩

/-- A target that is a whole number of steps is met exactly. -/
lemma scaled_of_dvd (h : Placed pos size extent n v) (hsmall : n * extent ≤ 2 ^ 34) (F : Doubles)
    {m : ℤ} (hm : target pos size n v = n * extent * m) : scaled F pos size extent n v = m := by
  obtain ⟨hextent, hn, -⟩ := h.small hsmall
  obtain ⟨hlow, hhigh, hle⟩ := h.target_bounds
  have hcentre := h.centre_steps
  rw [scaled, h.fl_product hsmall F]
  obtain ⟨hpos, hsize, hin, hv, hlt⟩ := h
  have hn' : 0 < n := hv.trans_lt hlt
  have hextent' : 0 < extent := by linarith
  have hden : 0 < n * extent := mul_pos hn' hextent'
  -- the step is one of those of the device
  have hm' : 0 ≤ m := (pos_of_mul_pos_right (hm ▸ hlow) hden.le).le
  have hmle : m ≤ 32768 := by
    by_contra hgt
    have := mul_le_mul_of_nonneg_left (not_le.mp hgt).le hden.le
    linarith
  have hme : m * extent ≤ 2 ^ 49 := by
    have := mul_le_mul hmle hextent hextent'.le (by norm_num)
    linarith
  have hme' : 0 ≤ m * extent := mul_nonneg hm' hextent'.le
  have hextentq : (extent : ℚ) ≠ 0 := by exact_mod_cast hextent'.ne'
  -- so the middle of the pixel has fifteen binary places
  have hplace : (((2 * v + 1) * size : ℤ) : ℚ) / 2 / n =
      (m * extent - 32768 * pos : ℤ) / 2 ^ 15 := by
    rw [hm, Int.cast_mul, mul_div_cancel_left₀ _ (by exact_mod_cast hden.ne'),
      div_eq_iff hextentq, centre] at hcentre
    norm_num [absPointerMax] at hcentre ⊢
    linarith
  rw [hplace, F.exact _ _ (by rw [abs_le]; constructor <;> linarith) (by norm_num),
    show (pos : ℚ) + (m * extent - 32768 * pos : ℤ) / 2 ^ 15 = (m * extent : ℤ) / 2 ^ 15 by
      push_cast; ring,
    F.exact _ _ (by rw [abs_of_nonneg hme']; linarith) (by norm_num),
    show ((m * extent : ℤ) : ℚ) / 2 ^ 15 * (absPointerMax + 1) = (m * extent : ℤ) by
      norm_num [absPointerMax],
    F.fl_intCast (by rw [abs_of_nonneg hme']; linarith), Int.cast_mul,
    mul_div_cancel_right₀ _ hextentq, F.fl_intCast (by rw [abs_of_nonneg hm']; linarith)]

/-- **The rounding of doubles makes no difference** on a desktop and a stream of an ordinary
size. -/
lemma truncate_scaled (h : Placed pos size extent n v) {F : Doubles}
    (hF : F = Doubles.rational ∨ n * extent ≤ 2 ^ 34) :
    truncate (scaled F pos size extent n v) = target pos size n v / (n * extent) := by
  obtain ⟨hlow, hhigh, hle⟩ := h.target_bounds
  have hden : 0 < n * extent := by linarith
  have hdenq : (0 : ℚ) < (n * extent : ℤ) := by exact_mod_cast hden
  rcases hF with rfl | hsmall
  · have hnonneg : (0 : ℚ) ≤ (target pos size n v : ℚ) / (n * extent : ℤ) :=
      div_nonneg (by exact_mod_cast hlow.le) hdenq.le
    rw [h.scaled_rational, truncate, if_pos hnonneg, Doubles.floor_div hden]
  · have hnear := h.scaled_near hsmall F
    rw [truncate, if_pos hnear.nonneg]
    by_cases hdvd : n * extent ∣ target pos size n v
    · obtain ⟨m, hm⟩ := hdvd
      rw [h.scaled_of_dvd hsmall F hm, Int.floor_intCast, hm, Int.mul_ediv_cancel_left _ hden.ne']
    · refine Doubles.floor_eq_of_near hden hsmall ?_ hdvd hnear
      rw [div_lt_iff₀ hdenq]
      exact_mod_cast (by linarith : target pos size n v < 2 ^ 15 * (n * extent))

/-- The coordinate that `layout_map` gives; its `CLAMP` at the end cuts nothing off. -/
lemma stage_eq (h : Placed pos size extent n (clamp v 0 (n - 1))) {F : Doubles}
    (hF : F = Doubles.rational ∨ n * extent ≤ 2 ^ 34) :
    stage F pos size extent n v = target pos size n (clamp v 0 (n - 1)) / (n * extent) := by
  obtain ⟨hlow, hhigh, hle⟩ := h.target_bounds
  have hden : 0 < n * extent := by linarith
  rw [stage, h.truncate_scaled hF]
  have hstep : 0 ≤ target pos size n (clamp v 0 (n - 1)) / (n * extent) :=
    Int.ediv_nonneg hlow.le hden.le
  have hstep' : target pos size n (clamp v 0 (n - 1)) / (n * extent) < 32768 :=
    Int.ediv_lt_of_lt_mul hden (by linarith)
  generalize target pos size n (clamp v 0 (n - 1)) / (n * extent) = p at hstep hstep'
  rw [clamp, if_neg (by rw [absPointerMax]; omega), if_neg (by omega)]

end Placed

/-! ## Back through libinput's rule -/

/-- A position of the device, on the stage by libinput's rule, is on the monitor. -/
def Lands (p pos size extent : ℤ) : Prop :=
  (pos : ℚ) ≤ p * extent / 32768 ∧ (p * extent / 32768 : ℚ) < pos + size
deriving Decidable

/-- The first step of the device that is not left of the monitor is at or before the middle of
the pixel `v`, counted from the monitor's edge: `-32768 * pos % extent` is how far the step is
from the edge, and `16384 * (2 * v + 1) * size / n` how far the middle of the pixel is. -/
def Reaches (pos size extent n v : ℤ) : Prop :=
  n * (-(32768 * pos) % extent) ≤ 16384 * ((2 * v + 1) * size)
deriving Decidable

lemma Placed.lands_iff {pos size extent n v : ℤ} (h : Placed pos size extent n v) :
    Lands (target pos size n v / (n * extent)) pos size extent ↔ Reaches pos size extent n v := by
  obtain ⟨hlow, hhigh, hle⟩ := h.target_bounds
  obtain ⟨hpos, hsize, hin, hv, hlt⟩ := h
  have hn : 0 < n := hv.trans_lt hlt
  have hextent : 0 < extent := by linarith
  have hden : 0 < n * extent := mul_pos hn hextent
  have hfloor := Int.ediv_mul_le (target pos size n v) hden.ne'
  have hceil := Int.lt_ediv_add_one_mul_self (target pos size n v) hden
  generalize target pos size n v / (n * extent) = p at hfloor hceil
  -- `-q` is the first step that is not left of the monitor
  have hedge := Int.emod_add_mul_ediv (-(32768 * pos)) extent
  have hmod := Int.emod_nonneg (-(32768 * pos)) hextent.ne'
  have hmod' := Int.emod_lt_of_pos (-(32768 * pos)) hextent
  unfold Reaches
  generalize -(32768 * pos) % extent = r at hedge hmod hmod'
  generalize -(32768 * pos) / extent = q at hedge
  have hr : r = 32768 * pos - extent * q - 65536 * pos := by linarith
  have hreach : n * r ≤ 16384 * ((2 * v + 1) * size) ↔ n * extent * -q ≤ target pos size n v := by
    have hnr : n * r = n * extent * -q - 32768 * (n * pos) := by rw [hr]; ring
    have htarget : target pos size n v = 32768 * (n * pos) + 16384 * ((2 * v + 1) * size) := by
      unfold target
      ring
    constructor <;> intro <;> linarith
  have hright : p * extent < 32768 * (pos + size) := by
    refine lt_of_mul_lt_mul_left (a := n) ?_ hn.le
    linarith
  have hlands : Lands p pos size extent ↔ 32768 * pos ≤ p * extent := by
    have hcast : (p * extent / 32768 : ℚ) < pos + size := by
      rw [div_lt_iff₀ (by norm_num)]
      exact_mod_cast (by linarith : p * extent < (pos + size) * 32768)
    rw [Lands, and_iff_left hcast, le_div_iff₀ (by norm_num), mul_comm (pos : ℚ)]
    norm_cast
  rw [hlands, hreach]
  constructor
  · intro hle
    have hq : extent * -q < extent * (p + 1) := by linarith
    have hqp : -q ≤ p := Int.lt_add_one_iff.mp (lt_of_mul_lt_mul_left hq hextent.le)
    linarith [mul_le_mul_of_nonneg_left hqp hden.le]
  · intro hle
    have hq : n * extent * -q < n * extent * (p + 1) := by linarith
    have hqp : -q ≤ p := Int.lt_add_one_iff.mp (lt_of_mul_lt_mul_left hq hden.le)
    linarith [mul_le_mul_of_nonneg_left hqp hextent.le]

end Layout

/-! ## Where a stream coordinate lands -/

section Claim

open Layout

variable {F : Doubles} {L : Layout} {conn : List Char} {lm : LayoutMon} {geom : StreamGeom}

lemma monOf_spec (hL : L.Covers) (hlm : L.monOf conn = some lm) :
    0 < lm.w ∧ 0 ≤ lm.x ∧ 0 ≤ lm.y ∧ lm.x + lm.w ≤ L.extW ∧ lm.y + lm.h ≤ L.extH := by
  have hfound := List.find?_some hlm
  obtain ⟨-, hw⟩ := of_decide_eq_true hfound
  exact ⟨hw, hL lm (List.mem_of_find?_eq_some hlm) hw⟩

lemma clamp_pixel {n : ℤ} (hn : 0 < n) (v : ℤ) : 0 ≤ clamp v 0 (n - 1) ∧ clamp v 0 (n - 1) < n := by
  have hle : (0 : ℤ) ≤ n - 1 := by omega
  have hlow := le_clamp (v := v) hle
  have hhigh := clamp_le (v := v) hle
  omega

/-- **Which stream coordinates land on the client's own monitor.**  A position always stays left
of the monitor's right edge.  It is not left of the left edge exactly when some step of the
device lies between that edge and the middle of the pixel. -/
theorem pointer_lands_iff (F : Doubles) {st : DisplayState}
    (hst : ∀ lg ∈ st.logical, 0 ≤ lg.x ∧ 0 ≤ lg.y) {conn : List Char} (hconn : conn ≠ [])
    {lm : LayoutMon} (hlm : (layoutParse F st).monOf conn = some lm) (hh : 0 < lm.h)
    (geom : StreamGeom)
    (hF : F = Doubles.rational ∨ geom.width * (layoutParse F st).extW ≤ 2 ^ 34 ∧
      geom.height * (layoutParse F st).extH ≤ 2 ^ 34) (v : ℤ) :
    (∃ p, (layoutParse F st).layoutMap F conn geom Evdev.absX v = some p ∧
      (Lands p lm.x lm.w (layoutParse F st).extW ↔
        Reaches lm.x lm.w (layoutParse F st).extW geom.width (clamp v 0 (geom.width - 1)))) ∧
    ∃ p, (layoutParse F st).layoutMap F conn geom Evdev.absY v = some p ∧
      (Lands p lm.y lm.h (layoutParse F st).extH ↔
        Reaches lm.y lm.h (layoutParse F st).extH geom.height (clamp v 0 (geom.height - 1))) := by
  have hcovers := covers_layoutParse F hst
  generalize layoutParse F st = L at hlm hF hcovers ⊢
  obtain ⟨hw, hx, hy, hextW, hextH⟩ := monOf_spec hcovers hlm
  obtain ⟨hv, hv'⟩ := clamp_pixel geom.width_pos v
  obtain ⟨hu, hu'⟩ := clamp_pixel geom.height_pos v
  have hX : Placed lm.x lm.w L.extW geom.width (clamp v 0 (geom.width - 1)) :=
    ⟨hx, hw, hextW, hv, hv'⟩
  have hY : Placed lm.y lm.h L.extH geom.height (clamp v 0 (geom.height - 1)) :=
    ⟨hy, hh, hextH, hu, hu'⟩
  have hmap : ∀ code, L.layoutMap F conn geom code v =
      some (if code = Evdev.absX then stage F lm.x lm.w L.extW geom.width v
        else stage F lm.y lm.h L.extH geom.height v) := by
    intro code
    rw [layoutMap, if_neg (by simp only [hconn, false_or]; omega), hlm, Option.map_some]
  refine ⟨⟨_, hmap Evdev.absX, ?_⟩, _, hmap Evdev.absY, ?_⟩
  · rw [if_pos rfl, hX.stage_eq (hF.imp_right And.left)]
    exact hX.lands_iff
  · rw [if_neg (by decide), hY.stage_eq (hF.imp_right And.right)]
    exact hY.lands_iff

/-- Four monitors of 3840 by 2160 in a row, the second of them the client's at scale 2. -/
def fourInARow : DisplayState where
  monitors := ["DP-1", "DVI-I-1", "DP-2", "DP-3"].map fun c => ⟨c.toList, [⟨3840, 2160, true⟩]⟩
  logical := [⟨0, 0, 1, 0, ["DP-1".toList]⟩, ⟨3840, 0, 2, 0, ["DVI-I-1".toList]⟩,
    ⟨5760, 0, 1, 0, ["DP-2".toList]⟩, ⟨9600, 0, 1, 0, ["DP-3".toList]⟩]

/-- The leftmost pixel of the second one lands on the first. -/
theorem first_pixel_on_the_neighbour :
    (∀ lg ∈ fourInARow.logical, 0 ≤ lg.x ∧ 0 ≤ lg.y) ∧
      (layoutParse Doubles.rational fourInARow).monOf "DVI-I-1".toList =
        some ⟨"DVI-I-1".toList, 3840, 0, 1920, 1080⟩ ∧
      (layoutParse Doubles.rational fourInARow).layoutMap Doubles.rational "DVI-I-1".toList
        ⟨3840, 2160, by decide, by decide⟩ Evdev.absX 0 = some 9362 ∧
      ¬ Lands 9362 3840 1920 (layoutParse Doubles.rational fourInARow).extW := by
  decide +kernel

/-- Its second pixel lands on it. -/
theorem second_pixel_lands :
    ∃ p, (layoutParse Doubles.rational fourInARow).layoutMap Doubles.rational "DVI-I-1".toList
        ⟨3840, 2160, by decide, by decide⟩ Evdev.absX 1 = some p ∧
      Lands p 3840 1920 (layoutParse Doubles.rational fourInARow).extW := by
  obtain ⟨p, hp, hlands⟩ := (@pointer_lands_iff Doubles.rational fourInARow (by decide +kernel)
    "DVI-I-1".toList (by decide) ⟨"DVI-I-1".toList, 3840, 0, 1920, 1080⟩ (by decide +kernel)
    (by decide) ⟨3840, 2160, by decide, by decide⟩ (.inl rfl) 1).1
  exact ⟨p, hp, hlands.mpr (by decide +kernel)⟩

end Claim

end Sremfb
