import Sremfb.Kvm.HidKeys
import Sremfb.Kvm.HidReports
import Sremfb.Kvm.Pointing

/-!
# Relative motion in the reports (`input_hid.c`)

The values of `EV_REL` are added up in `int`s and go out at the next flush, at most 127 a report and
32 reports on all axes together.  What the reports of a flush say of an axis is the sum of the values
that came in since the last one, clamped to `32 * 127` (`Conserves`); a release of everything drops
what has come in and starts a new account.

The values come from the network and nothing bounds the sums, nor the difference between a position
and the offset of the picture in `sremfb_kvm_abs_map`.  `HidInput.arith` lists the results of the
additions and subtractions that a message makes on them; `motion_iff` is the exact condition for all
of them to fit.
-/

namespace Sremfb

open Lib

/-- A signed 32-bit integer holds the number. -/
def Int32Fits (n : ℤ) : Prop := -2 ^ 31 ≤ n ∧ n < 2 ^ 31

/-- The axes of relative motion. -/
inductive RelAxis
  | x
  | y
  | wheel
  | hwheel
  deriving DecidableEq

/-- The axis that a code of `EV_REL` is about. -/
def relAxis (f : HidFunc) (code : ℕ) : Option RelAxis :=
  if code = Evdev.relWheel then some .wheel
  else if code = Evdev.relHwheel then some .hwheel
  else if code = Evdev.relX ∧ f = .mouse then some .x
  else if code = Evdev.relY ∧ f = .mouse then some .y
  else none

/-- What a report of the mouse says of an axis: an `int8_t`. -/
def RelAxis.delta (a : RelAxis) (rep : List UInt8) : ℤ :=
  let byte := match a with
    | .x => 1
    | .y => 2
    | .wheel => 3
    | .hwheel => 4
  (rep.getD byte 0).toInt8.toInt

namespace HidMouse

/-- What has come in on an axis. -/
def acc (m : HidMouse) : RelAxis → ℤ
  | .x => m.dx
  | .y => m.dy
  | .wheel => m.wheel
  | .hwheel => m.hwheel

/-- A value comes in on an axis. -/
def add (m : HidMouse) (v : ℤ) : RelAxis → HidMouse
  | .x => { m with dx := m.dx + v }
  | .y => { m with dy := m.dy + v }
  | .wheel => { m with wheel := m.wheel + v }
  | .hwheel => { m with hwheel := m.hwheel + v }

lemma acc_add (m : HidMouse) (v : ℤ) (a b : RelAxis) :
    (m.add v b).acc a = if a = b then m.acc b + v else m.acc a := by
  cases a <;> cases b <;> rfl

/-- The device after each report of a burst. -/
def lefts (report : HidMouse → List UInt8 × HidMouse × Bool) : ℕ → HidMouse → List HidMouse
  | 0, _ => []
  | n + 1, m =>
      let r := report m
      r.2.1 :: if r.2.2 then lefts report n r.2.1 else []

end HidMouse

/-- A message, with the size of the source (0 without one) and of the stream of the client, and the
outcome of the writes. -/
structure HidMsg where
  msg : InputMsg
  /-- `ev_value` is an `int32_t`. -/
  value : Int32Fits msg.evValue
  srcW : ℤ := 0
  srcH : ℤ := 0
  dstW : ℤ := 0
  dstH : ℤ := 0
  writes : HidFunc → ℕ → HidWrite := fun _ _ => .accepted

namespace HidMsg

/-- The fit of the client at that time. -/
def fit (m : HidMsg) : KvmFit := kvmFit m.srcW m.srcH m.dstW m.dstH

def event (m : HidMsg) : HidEvent where
  msg := m.msg
  absMap := kvmAbsMap m.fit
  writes := m.writes

/-- The picture does not begin left of the stream or above it. -/
lemma fit_offsets (m : HidMsg) : m.fit.srcW = m.srcW ∧ m.fit.srcH = m.srcH ∧
    0 ≤ m.fit.ox ∧ 0 ≤ m.fit.oy := by
  unfold fit kvmFit
  split
  · exact ⟨rfl, rfl, le_rfl, le_rfl⟩
  · exact ⟨rfl, rfl, Int.ediv_nonneg (sub_nonneg.mpr (min_le_right _ _)) (by decide),
      Int.ediv_nonneg (sub_nonneg.mpr (min_le_right _ _)) (by decide)⟩

end HidMsg

/-- The message releases everything. -/
def HidEvent.Releases (ev : HidEvent) : Prop := ev.msg.dev = indevAll ∧ ev.msg.evType = 0

instance (ev : HidEvent) : Decidable ev.Releases := inferInstanceAs (Decidable (_ ∧ _))

namespace HidInput

/-! ## What a message computes -/

/-- The results of the subtractions of a flush. -/
def flushArith (s : HidInput) (fit : KvmFit) : HidFunc → List ℤ
  | .keyboard => []
  | .mouse =>
      (HidMouse.lefts HidMouse.mouseReport hidMaxSplit s.mouse).flatMap
        fun m => [m.dx, m.dy, m.wheel, m.hwheel]
  | .pointer =>
      if s.absPlaced then
        (if fit.srcW ≤ 0 ∨ fit.srcH ≤ 0 then [] else [s.absX - fit.ox, s.absY - fit.oy]) ++
          (HidMouse.lefts (HidMouse.pointerReport (kvmAbsMap fit s.absX s.absY)) hidMaxSplit
            s.ptr).flatMap fun m => [m.wheel, m.hwheel]
      else []

/-- The results of the additions and subtractions of a message. -/
def arith (usage : ℕ → UInt8) (fit : KvmFit) (s : HidInput) (ev : HidEvent) : List ℤ :=
  if ev.msg.dev = indevAll then
    if ev.msg.evType = 0 then
      s.letGo.flushArith fit .mouse ++ s.letGo.flushArith fit .pointer
    else []
  else
    match HidFunc.ofDev ev.msg.dev with
    | none => []
    | some f =>
        if (s.node f).opened = false then []
        else if ev.msg.evType = Evdev.syn then
          if ev.msg.evCode = Evdev.synReport ∧ s.dirty f = true then s.flushArith fit f else []
        else if ev.msg.evType = Evdev.key then
          if s.early usage f ev.msg.evCode ev.msg.evValue then s.flushArith fit f else []
        else if ev.msg.evType = Evdev.rel ∧ f ≠ .keyboard then
          match relAxis f ev.msg.evCode with
          | none => []
          | some a => [(s.mouseOf f).acc a + ev.msg.evValue]
        else []

/-! ## The account of what came in -/

/-- The message brings in a value on the axis of a function that is open. -/
def Brings (s : HidInput) (ev : HidEvent) (f : HidFunc) (a : RelAxis) : Prop :=
  HidFunc.ofDev ev.msg.dev = some f ∧ (s.node f).opened = true ∧ ev.msg.evType = Evdev.rel ∧
    f ≠ .keyboard ∧ relAxis f ev.msg.evCode = some a

instance (s : HidInput) (ev : HidEvent) (f : HidFunc) (a : RelAxis) : Decidable (s.Brings ev f a) :=
  inferInstanceAs (Decidable (_ ∧ _))

/-- What a message brings in on an axis. -/
def moved (s : HidInput) (ev : HidEvent) (f : HidFunc) (a : RelAxis) : ℤ :=
  if s.Brings ev f a then ev.msg.evValue else 0

/-- What counts when the message sends reports. -/
def due (ev : HidEvent) (t : HidFunc → RelAxis → ℤ) (f : HidFunc) (a : RelAxis) : ℤ :=
  if ev.Releases then 0 else t f a

/-- The sums of the values since the last flush or release. -/
def account (usage : ℕ → UInt8) (s : HidInput) (ev : HidEvent) (t : HidFunc → RelAxis → ℤ)
    (f : HidFunc) (a : RelAxis) : ℤ :=
  (if s.sent usage ev f = [] then due ev t f a else 0) + s.moved ev f a

/-- The node with the account kept beside it. -/
def tally (usage : ℕ → UInt8) (p : HidInput × (HidFunc → RelAxis → ℤ)) (m : HidMsg) :
    HidInput × (HidFunc → RelAxis → ℤ) :=
  (p.1.step usage m.event, p.1.account usage m.event p.2)

/-- **What a flush of the mouse says** is what came in, clamped to 32 reports of 127. -/
def Conserves (usage : ℕ → UInt8) (p : HidInput × (HidFunc → RelAxis → ℤ)) (m : HidMsg) : Prop :=
  let reps := p.1.sent usage m.event .mouse
  reps ≠ [] → reps.length ≤ 32 ∧
    (∀ rep ∈ reps, ∀ a : RelAxis, -127 ≤ a.delta rep ∧ a.delta rep ≤ 127) ∧
    ∀ a : RelAxis, (reps.map a.delta).sum = max (-(32 * 127)) (min (32 * 127)
      (due m.event p.2 .mouse a))

/-- No addition or subtraction overflows. -/
def Fits (usage : ℕ → UInt8) (p : HidInput × (HidFunc → RelAxis → ℤ)) (m : HidMsg) : Prop :=
  ∀ r ∈ p.1.arith usage m.fit m.event, Int32Fits r

/-- The message flushes a pointer that has a place. -/
def PlacesPointer (usage : ℕ → UInt8) (s : HidInput) (ev : HidEvent) : Prop :=
  s.absPlaced = true ∧ (ev.Releases ∨ s.sent usage ev .pointer ≠ [])

/-- The sums fit, and no position that is looked up in a source is more than `2 ^ 31` left of or
above the picture. -/
structure Within (usage : ℕ → UInt8) (p : HidInput × (HidFunc → RelAxis → ℤ)) (m : HidMsg) :
    Prop where
  sums : ∀ f a, Int32Fits (p.2 f a + p.1.moved m.event f a)
  places : p.1.PlacesPointer usage m.event → 0 < m.srcW → 0 < m.srcH →
    -2 ^ 31 + m.fit.ox ≤ p.1.absX ∧ -2 ^ 31 + m.fit.oy ≤ p.1.absY

end HidInput

/-! ## Bursts -/

namespace HidMouse

variable {report : HidMouse → List UInt8 × HidMouse × Bool} {m : HidMouse} {a : RelAxis}

lemma toInt_take127 (acc : ℤ) : (UInt8.ofInt (take127 acc).1).toInt8.toInt = (take127 acc).1 := by
  have hall : ∀ v : Fin 255, (UInt8.ofInt (v - 127)).toInt8.toInt = v - 127 := by decide +kernel
  have hrange : -127 ≤ (take127 acc).1 ∧ (take127 acc).1 ≤ 127 := by
    simp only [take127]
    omega
  obtain ⟨v, hv⟩ := Int.eq_ofNat_of_zero_le (show 0 ≤ (take127 acc).1 + 127 by omega)
  have hbyte := hall ⟨v, by omega⟩
  rwa [show ((v : ℕ) : ℤ) - 127 = (take127 acc).1 by omega] at hbyte

/-- A report takes what it says. -/
lemma delta_mouseReport (m : HidMouse) (a : RelAxis) :
    a.delta (mouseReport m).1 = (take127 (m.acc a)).1 := by
  cases a <;> exact toInt_take127 _

lemma acc_mouseReport (m : HidMouse) (a : RelAxis) :
    (mouseReport m).2.1.acc a = (take127 (m.acc a)).2 := by
  cases a <;> rfl

lemma acc_of_last (h : (mouseReport m).2.2 = false) (a : RelAxis) :
    (take127 (m.acc a)).2 = 0 := by
  have hall := of_decide_eq_false h
  simp only [not_or, not_not] at hall
  cases a with
  | x => exact hall.1
  | y => exact hall.2.1
  | wheel => exact hall.2.2.1
  | hwheel => exact hall.2.2.2

/-- **What a burst says** of an axis, in all. -/
lemma sum_burst (n : ℕ) (m : HidMouse) (a : RelAxis) :
    ((burst mouseReport n m).map a.delta).sum =
      max (-((n : ℤ) * 127)) (min ((n : ℤ) * 127) (m.acc a)) := by
  induction n generalizing m with
  | zero =>
      rw [burst, List.map_nil, List.sum_nil]
      omega
  | succ n ih =>
      rw [burst, List.map_cons, List.sum_cons, delta_mouseReport]
      cases hmore : (mouseReport m).2.2 with
      | true =>
          rw [if_pos rfl, ih, acc_mouseReport]
          simp only [take127]
          push_cast
          omega
      | false =>
          have hlast := acc_of_last hmore a
          rw [if_neg Bool.false_ne_true, List.map_nil, List.sum_nil]
          simp only [take127] at hlast ⊢
          push_cast
          omega

lemma length_burst_le (report : HidMouse → List UInt8 × HidMouse × Bool) (n : ℕ) (m : HidMouse) :
    (burst report n m).length ≤ n := by
  induction n generalizing m with
  | zero => exact le_rfl
  | succ n ih =>
      rw [burst, List.length_cons]
      split
      · exact Nat.succ_le_succ (ih _)
      · exact Nat.succ_le_succ (Nat.zero_le n)

lemma delta_mem_burst {n : ℕ} {rep : List UInt8} (h : rep ∈ burst mouseReport n m) (a : RelAxis) :
    -127 ≤ a.delta rep ∧ a.delta rep ≤ 127 := by
  induction n generalizing m with
  | zero => exact absurd h List.not_mem_nil
  | succ n ih =>
      rcases List.mem_cons.mp h with rfl | hrest
      · rw [delta_mouseReport]
        simp only [take127]
        omega
      · split at hrest
        · exact ih hrest
        · exact absurd hrest List.not_mem_nil

/-- What is left of a sum that fits does. -/
lemma fits_lefts (hreport : ∀ m a, Int32Fits (HidMouse.acc m a) → Int32Fits ((report m).2.1.acc a))
    {n : ℕ} {m' : HidMouse} (h : m' ∈ lefts report n m) (hm : Int32Fits (m.acc a)) :
    Int32Fits (m'.acc a) := by
  induction n generalizing m with
  | zero => exact absurd h List.not_mem_nil
  | succ n ih =>
      rcases List.mem_cons.mp h with rfl | hrest
      · exact hreport m a hm
      · split at hrest
        · exact ih hrest (hreport m a hm)
        · exact absurd hrest List.not_mem_nil

lemma fits_take127 {acc : ℤ} (h : Int32Fits acc) : Int32Fits (take127 acc).2 := by
  unfold Int32Fits at h ⊢
  simp only [take127]
  omega

lemma fits_mouseReport (m : HidMouse) (a : RelAxis) (h : Int32Fits (m.acc a)) :
    Int32Fits ((mouseReport m).2.1.acc a) := by
  rw [acc_mouseReport]
  exact fits_take127 h

lemma fits_pointerReport (place : ℤ × ℤ) (m : HidMouse) (a : RelAxis) (h : Int32Fits (m.acc a)) :
    Int32Fits ((pointerReport place m).2.1.acc a) := by
  cases a with
  | x | y => exact (by decide : -2 ^ 31 ≤ (0 : ℤ) ∧ (0 : ℤ) < 2 ^ 31)
  | wheel | hwheel => exact fits_take127 h

end HidMouse

namespace HidInput

section motion

variable {usage : ℕ → UInt8} {s : HidInput} {ev : HidEvent} {f : HidFunc} {a : RelAxis}

/-! ## One message -/

lemma flushReports_eq_nil (hf : f ≠ .keyboard) :
    s.flushReports ev f = [] ↔ f = .pointer ∧ s.absPlaced = false := by
  cases f with
  | keyboard => exact absurd rfl hf
  | mouse => exact iff_of_false (List.cons_ne_nil _ _) (by simp)
  | pointer =>
      rw [flushReports]
      split <;> rename_i hplaced
      · exact iff_of_false (List.cons_ne_nil _ _) (by simp [hplaced])
      · exact iff_of_true rfl ⟨rfl, (Bool.not_eq_true _).mp hplaced⟩

/-- A flush that sends reports leaves nothing. -/
lemma acc_devFlush (hf : f ≠ .keyboard) : ((s.devFlush ev f).mouseOf f).acc a =
    if s.flushReports ev f = [] then (s.mouseOf f).acc a else 0 := by
  cases f with
  | keyboard => exact absurd rfl hf
  | mouse =>
      rw [if_neg (by simp [flushReports_eq_nil hf])]
      cases a <;> rfl
  | pointer =>
      by_cases hplaced : s.absPlaced = true
      · rw [if_neg (by simp [flushReports_eq_nil hf, hplaced]), devFlush, if_pos hplaced]
        cases a <;> rfl
      · rw [if_pos ((flushReports_eq_nil hf).mpr ⟨rfl, (Bool.not_eq_true _).mp hplaced⟩), devFlush,
          if_neg hplaced]

/-- A flush that may take place. -/
lemma acc_flush_if (hf : f ≠ .keyboard) (c : Prop) [Decidable c] :
    ((if c then s.devFlush ev f else s).mouseOf f).acc a =
      if (if c then s.flushReports ev f else []) = [] then (s.mouseOf f).acc a else 0 := by
  split
  · exact acc_devFlush hf
  · rfl

lemma acc_setButtons (m : HidMouse) (buttons : UInt8) :
    ({ m with buttons := buttons } : HidMouse).acc a = m.acc a := by
  cases a <;> rfl

lemma acc_onButton (s : HidInput) (ev : HidEvent) (code : ℕ) (v : ℤ) (hf : f ≠ .keyboard) :
    ((s.onButton ev f code v).mouseOf f).acc a =
      if (if s.early usage f code v then s.flushReports ev f else []) = []
      then (s.mouseOf f).acc a else 0 := by
  by_cases hok : ∃ b, hidButtonBit code = some b ∧ s.ButtonOk f b v
  · obtain ⟨b, hb, hok⟩ := hok
    rw [onButton_of_ok usage ev hf hb hok]
    dsimp only
    have hset (t : HidInput) (m : HidMouse) (d : HidFunc → Bool) :
        ({ t.setMouse f m with dirty := d } : HidInput).mouseOf f = m := mouseOf_setMouse hf t m
    rw [hset, acc_setButtons, acc_flush_if hf]
  · obtain ⟨hsame, hearly⟩ := onButton_of_not usage ev hf fun b hb hb' => hok ⟨b, hb, hb'⟩
    rw [hsame, hearly]
    rfl

lemma relMove_eq (f : HidFunc) (m : HidMouse) (code : ℕ) (v : ℤ) :
    relMove f m code v = (relAxis f code).map (m.add v) := by
  unfold relMove relAxis
  split
  · rfl
  split
  · rfl
  split
  · rfl
  split <;> rfl

lemma acc_dispatch (s : HidInput) (ev : HidEvent) (hf : f ≠ .keyboard) :
    ((s.dispatch usage ev f).mouseOf f).acc a =
      (if (if ev.msg.evType = Evdev.syn then
          if ev.msg.evCode = Evdev.synReport ∧ s.dirty f = true then s.flushReports ev f else []
        else if ev.msg.evType = Evdev.key then
          if s.early usage f ev.msg.evCode ev.msg.evValue then s.flushReports ev f else []
        else []) = [] then (s.mouseOf f).acc a else 0) +
      if ev.msg.evType = Evdev.rel ∧ relAxis f ev.msg.evCode = some a then ev.msg.evValue else 0 := by
  unfold dispatch
  dsimp only
  by_cases hsyn : ev.msg.evType = Evdev.syn
  · rw [if_pos hsyn, if_pos hsyn, acc_flush_if hf,
      if_neg (show ¬(ev.msg.evType = Evdev.rel ∧ _) from fun h => by
        rw [hsyn] at h; exact absurd h.1 (by decide)), add_zero]
  rw [if_neg hsyn, if_neg hsyn]
  by_cases hkey : ev.msg.evType = Evdev.key
  · rw [if_pos hkey, if_pos hkey, if_neg hf, acc_onButton s ev _ _ hf,
      if_neg (show ¬(ev.msg.evType = Evdev.rel ∧ _) from fun h => by
        rw [hkey] at h; exact absurd h.1 (by decide)), add_zero]
  rw [if_neg hkey, if_neg hkey, if_pos (rfl : ([] : List (List UInt8)) = [])]
  by_cases hrel : ev.msg.evType = Evdev.rel
  · rw [if_pos hrel, if_neg hf, relMove_eq]
    cases hax : relAxis f ev.msg.evCode with
    | none =>
        rw [if_neg (show ¬(_ ∧ none = some a) from fun h => nomatch h.2), add_zero]
        rfl
    | some b =>
        have hset (m : HidMouse) (d : HidFunc → Bool) :
            ({ s.setMouse f m with dirty := d } : HidInput).mouseOf f = m := mouseOf_setMouse hf s m
        rw [Option.map_some]
        dsimp only
        rw [hset, HidMouse.acc_add]
        by_cases hab : a = b
        · rw [if_pos hab, if_pos ⟨hrel, by rw [hab]⟩, hab]
        · rw [if_neg hab, if_neg fun h => hab (Option.some_inj.mp h.2).symm, add_zero]
  rw [if_neg hrel, if_neg (show ¬(ev.msg.evType = Evdev.rel ∧ _) from fun h => hrel h.1), add_zero]
  split
  · split
    · rfl
    · split <;> rfl
  · rfl

lemma not_releases_of_ofDev (h : HidFunc.ofDev ev.msg.dev = some f) : ¬ev.Releases := fun hr =>
  dev_ne_all h hr.1

lemma acc_releaseAll (s : HidInput) (ev : HidEvent) (hf : f ≠ .keyboard) :
    ((s.releaseAll ev).mouseOf f).acc a = 0 := by
  have hclear (t : HidInput) (g : HidFunc) (ht : (t.mouseOf f).acc a = 0) :
      ((t.devFlush ev g).mouseOf f).acc a = 0 := by
    by_cases hg : g = f
    · subst hg
      rw [acc_devFlush hf, ht, ite_self]
    · have hpart := part_devFlush t ev (Ne.symm hg)
      cases f with
      | keyboard => exact absurd rfl hf
      | mouse | pointer => exact (congrArg (fun p : HidPart => p.mouse.acc a) hpart).trans ht
  have hgone : (s.letGo.mouseOf f).acc a = 0 := by
    cases f with
    | keyboard => exact absurd rfl hf
    | mouse | pointer => cases a <;> rfl
  exact hclear _ .pointer (hclear _ .mouse (hclear _ .keyboard hgone))

/-- **What a message does to an accumulator.** -/
lemma acc_step (s : HidInput) (ev : HidEvent) (hf : f ≠ .keyboard) :
    ((s.step usage ev).mouseOf f).acc a =
      (if s.sent usage ev f = [] then due ev (fun f a => (s.mouseOf f).acc a) f a else 0) +
        s.moved ev f a := by
  by_cases hthis : HidFunc.ofDev ev.msg.dev = some f ∧ (s.node f).opened = true
  · obtain ⟨hdev, hopen⟩ := hthis
    rw [step_of_msg usage hdev hopen, acc_dispatch s ev hf, sent_of_msg usage hdev hopen, due,
      if_neg (not_releases_of_ofDev hdev), moved]
    simp only [Brings, hdev, hopen, true_and, hf, not_false_eq_true, ne_eq]
  rw [not_and_or, Bool.not_eq_true] at hthis
  have hmoved : s.moved ev f a = 0 := by
    refine if_neg fun h => hthis.elim (fun hdev => hdev h.1) fun hclosed => ?_
    exact absurd (hclosed.symm.trans h.2.1) (by decide)
  rw [hmoved, add_zero]
  by_cases hr : ev.Releases
  · rw [due, if_pos hr, ite_self, step, if_pos hr.1, if_pos hr.2]
    exact acc_releaseAll s ev hf
  · rw [if_pos (sent_of_other usage s hr hthis), due, if_neg hr]
    have hpart := part_step usage s hr hthis
    cases f with
    | keyboard => exact absurd rfl hf
    | mouse | pointer => exact congrArg (fun p : HidPart => p.mouse.acc a) hpart

/-! ## What is computed -/

lemma flushReports_ne_nil {fit : KvmFit} {r : ℤ} (h : r ∈ s.flushArith fit f) :
    s.flushReports ev f ≠ [] := by
  cases f with
  | keyboard => exact absurd h List.not_mem_nil
  | mouse => exact List.cons_ne_nil _ _
  | pointer =>
      rw [flushArith] at h
      split at h <;> rename_i hplaced
      · simp [flushReports_eq_nil, hplaced]
      · exact absurd h List.not_mem_nil

/-- A message for a function that is open. -/
lemma arith_of_msg (usage : ℕ → UInt8) (fit : KvmFit) (hf : HidFunc.ofDev ev.msg.dev = some f)
    (hopen : (s.node f).opened = true) : s.arith usage fit ev =
      if ev.msg.evType = Evdev.syn then
        if ev.msg.evCode = Evdev.synReport ∧ s.dirty f = true then s.flushArith fit f else []
      else if ev.msg.evType = Evdev.key then
        if s.early usage f ev.msg.evCode ev.msg.evValue then s.flushArith fit f else []
      else if ev.msg.evType = Evdev.rel ∧ f ≠ .keyboard then
        ((relAxis f ev.msg.evCode).map fun a => (s.mouseOf f).acc a + ev.msg.evValue).toList
      else [] := by
  rw [arith, if_neg (dev_ne_all hf), hf]
  dsimp only
  rw [if_neg (by simp [hopen])]
  cases relAxis f ev.msg.evCode <;> rfl

/-- A message that no open function gets, other than the release, computes nothing. -/
lemma arith_of_other (usage : ℕ → UInt8) (fit : KvmFit) (s : HidInput) (hr : ¬ev.Releases)
    (hf : ∀ g, HidFunc.ofDev ev.msg.dev ≠ some g ∨ (s.node g).opened = false) :
    s.arith usage fit ev = [] := by
  rw [arith]
  split
  · exact if_neg fun h => hr ⟨by assumption, h⟩
  split
  · rfl
  · rename_i g hg
    exact if_pos ((hf g).resolve_left fun h => h hg)

/-- Of the function that the message is for. -/
lemma mem_arith_flush {fit : KvmFit} {r : ℤ} {reps : List (List UInt8)} {c : Prop} [Decidable c]
    (hreps : reps = if c then s.flushReports ev f else []) :
    r ∈ (if c then s.flushArith fit f else []) ↔ reps ≠ [] ∧ r ∈ s.flushArith fit f := by
  rw [hreps]
  split
  · exact ⟨fun h => ⟨flushReports_ne_nil h, h⟩, fun h => h.2⟩
  · exact iff_of_false List.not_mem_nil fun h => h.1 rfl

/-- **The results of a message** are those of its flushes, and a new sum. -/
lemma mem_arith {fit : KvmFit} {r : ℤ} : r ∈ s.arith usage fit ev ↔
    (∃ f, (ev.Releases ∨ s.sent usage ev f ≠ []) ∧
      r ∈ (if ev.Releases then s.letGo else s).flushArith fit f) ∨
    ∃ f a, s.Brings ev f a ∧ r = (s.mouseOf f).acc a + ev.msg.evValue := by
  by_cases hr : ev.Releases
  · have hbrings : ¬∃ f a, s.Brings ev f a ∧ r = (s.mouseOf f).acc a + ev.msg.evValue := by
      rintro ⟨f, a, hm, -⟩
      exact not_releases_of_ofDev hm.1 hr
    rw [arith, if_pos hr.1, if_pos hr.2, if_pos hr, or_iff_left hbrings, List.mem_append]
    constructor
    · rintro (h | h)
      · exact ⟨.mouse, .inl hr, h⟩
      · exact ⟨.pointer, .inl hr, h⟩
    · rintro ⟨f, -, h⟩
      cases f with
      | keyboard => exact absurd h List.not_mem_nil
      | mouse => exact .inl h
      | pointer => exact .inr h
  simp only [hr, false_or, if_false]
  by_cases hthis : ∃ f, HidFunc.ofDev ev.msg.dev = some f ∧ (s.node f).opened = true
  · obtain ⟨f, hdev, hopen⟩ := hthis
    have hother (g : HidFunc) (hg : s.sent usage ev g ≠ []) : g = f := by
      by_contra hne
      refine hg (sent_of_other usage s hr (.inl fun h => hne ?_))
      exact Option.some_inj.mp (h.symm.trans hdev)
    have hone : (∃ g, s.sent usage ev g ≠ [] ∧ r ∈ s.flushArith fit g) ↔
        s.sent usage ev f ≠ [] ∧ r ∈ s.flushArith fit f :=
      ⟨fun ⟨g, hg, h⟩ => hother g hg ▸ ⟨hg, h⟩, fun h => ⟨f, h⟩⟩
    have hmove : (∃ g a, s.Brings ev g a ∧ r = (s.mouseOf g).acc a + ev.msg.evValue) ↔
        (ev.msg.evType = Evdev.rel ∧ f ≠ .keyboard) ∧ ∃ a, relAxis f ev.msg.evCode = some a ∧
          r = (s.mouseOf f).acc a + ev.msg.evValue := by
      constructor
      · rintro ⟨g, a, ⟨hg, -, hrel, hne, hax⟩, h⟩
        obtain rfl := Option.some_inj.mp (hdev.symm.trans hg)
        exact ⟨⟨hrel, hne⟩, a, hax, h⟩
      · rintro ⟨⟨hrel, hne⟩, a, hax, h⟩
        exact ⟨f, a, ⟨hdev, hopen, hrel, hne, hax⟩, h⟩
    have hsent := sent_of_msg usage hdev hopen
    rw [hone, hmove, arith_of_msg usage fit hdev hopen]
    by_cases hsyn : ev.msg.evType = Evdev.syn
    · rw [if_pos hsyn] at hsent ⊢
      rw [mem_arith_flush hsent]
      exact (or_iff_left fun h => absurd (hsyn.symm.trans h.1.1) (by decide)).symm
    rw [if_neg hsyn] at hsent ⊢
    by_cases hkey : ev.msg.evType = Evdev.key
    · rw [if_pos hkey] at hsent ⊢
      rw [mem_arith_flush hsent]
      exact (or_iff_left fun h => absurd (hkey.symm.trans h.1.1) (by decide)).symm
    rw [if_neg hkey] at hsent ⊢
    rw [or_iff_right fun h => h.1 hsent]
    by_cases hrel : ev.msg.evType = Evdev.rel ∧ f ≠ .keyboard
    · rw [if_pos hrel, and_iff_right hrel, Option.mem_toList, Option.map_eq_some_iff]
      simp only [eq_comm]
    · rw [if_neg hrel]
      exact iff_of_false List.not_mem_nil fun h => hrel h.1
  · have hother (g : HidFunc) : HidFunc.ofDev ev.msg.dev ≠ some g ∨ (s.node g).opened = false := by
      by_contra h
      rw [not_or, not_not, Bool.not_eq_false] at h
      exact hthis ⟨g, h⟩
    rw [arith_of_other usage fit s hr hother]
    refine iff_of_false List.not_mem_nil ?_
    rintro (⟨g, hg, -⟩ | ⟨g, a, hm, -⟩)
    · exact hg (sent_of_other usage s hr (hother g))
    · exact hthis ⟨g, hm.1, hm.2.1⟩

/-! ## Positions -/

/-- The last position that came in. -/
def place (s : HidInput) : ℤ × ℤ := (s.absX, s.absY)

lemma place_devFlush (s : HidInput) (ev : HidEvent) (g : HidFunc) :
    (s.devFlush ev g).place = s.place := by
  cases g with
  | keyboard | mouse => rfl
  | pointer =>
      rw [devFlush]
      split <;> rfl

lemma place_setMouse (s : HidInput) (g : HidFunc) (m : HidMouse) :
    (s.setMouse g m).place = s.place := by
  unfold setMouse
  split <;> rfl

lemma place_onKey (s : HidInput) (ev : HidEvent) (code : ℕ) (v : ℤ) :
    (s.onKey usage ev code v).place = s.place := by
  unfold onKey
  have hflush : (if v = 0 ∧ s.kbd.held code = true ∧ s.kbdUsageSent usage code = false
      then s.kbdFlush ev else s).place = s.place := by
    split
    · exact place_devFlush s ev .keyboard
    · rfl
  generalize (if v = 0 ∧ s.kbd.held code = true ∧ s.kbdUsageSent usage code = false
    then s.kbdFlush ev else s) = s₁ at hflush ⊢
  dsimp only
  split <;> exact hflush

lemma place_onButton (usage : ℕ → UInt8) (s : HidInput) (ev : HidEvent) (code : ℕ) (v : ℤ)
    (hf : f ≠ .keyboard) : (s.onButton ev f code v).place = s.place := by
  by_cases hok : ∃ b, hidButtonBit code = some b ∧ s.ButtonOk f b v
  · obtain ⟨b, hb, hok⟩ := hok
    rw [onButton_of_ok usage ev hf hb hok]
    refine (place_setMouse _ _ _).trans ?_
    split
    · exact place_devFlush s ev f
    · rfl
  · rw [(onButton_of_not usage ev hf fun b hb hb' => hok ⟨b, hb, hb'⟩).1]

/-- A message moves the position only to its own value. -/
lemma place_step (usage : ℕ → UInt8) (s : HidInput) (ev : HidEvent) :
    ((s.step usage ev).absX = s.absX ∨ (s.step usage ev).absX = ev.msg.evValue) ∧
      ((s.step usage ev).absY = s.absY ∨ (s.step usage ev).absY = ev.msg.evValue) := by
  have hsame {t : HidInput} (h : t.place = s.place) :
      (t.absX = s.absX ∨ t.absX = ev.msg.evValue) ∧ (t.absY = s.absY ∨ t.absY = ev.msg.evValue) :=
    ⟨.inl (congrArg Prod.fst h), .inl (congrArg Prod.snd h)⟩
  unfold step
  split
  · split
    · exact hsame ((place_devFlush _ ev .pointer).trans ((place_devFlush _ ev .mouse).trans
        (place_devFlush _ ev .keyboard)))
    · exact hsame rfl
  split
  · exact hsame rfl
  rename_i f _
  split
  · exact hsame rfl
  unfold dispatch
  dsimp only
  split
  · split
    · exact hsame (place_devFlush s ev f)
    · exact hsame rfl
  split
  · split <;> rename_i hf
    · exact hsame (place_onKey s ev _ _)
    · exact hsame (place_onButton usage s ev _ _ hf)
  split
  · split
    · exact hsame rfl
    split
    · exact hsame rfl
    · exact hsame (place_setMouse s _ _)
  split
  · split
    · exact hsame rfl
    · split
      · exact ⟨.inr rfl, .inl rfl⟩
      · exact ⟨.inl rfl, .inr rfl⟩
  · exact hsame rfl

/-! ## Runs -/

/-- What a run keeps as long as everything fits: the accumulators are the sums that came in. -/
structure Balanced (p : HidInput × (HidFunc → RelAxis → ℤ)) : Prop where
  acc : ∀ f ≠ .keyboard, ∀ a, (p.1.mouseOf f).acc a = p.2 f a
  sums : ∀ f a, Int32Fits (p.2 f a)
  absX : Int32Fits p.1.absX
  absY : Int32Fits p.1.absY

variable {p : HidInput × (HidFunc → RelAxis → ℤ)}

lemma int32Fits_zero : Int32Fits 0 := by
  unfold Int32Fits
  omega

lemma due_fits (h : Balanced p) (ev : HidEvent) (f : HidFunc) (a : RelAxis) :
    Int32Fits (due ev p.2 f a) := by
  unfold due
  split
  · exact int32Fits_zero
  · exact h.sums f a

lemma Balanced.tally (h : Balanced p) {m : HidMsg} (hm : Within usage p m) :
    Balanced (tally usage p m) where
  acc f hf a := by
    refine (acc_step p.1 m.event hf).trans (congrArg (· + _) (if_congr Iff.rfl ?_ rfl))
    rw [due, due, h.acc f hf a]
  sums f a := by
    have hsum := hm.sums f a
    change Int32Fits (p.1.account usage m.event p.2 f a)
    unfold account
    by_cases hb : p.1.Brings m.event f a
    · -- a message that brings in a value sends nothing
      have hsyn : m.event.msg.evType ≠ Evdev.syn := by rw [hb.2.2.1]; decide
      have hkey : m.event.msg.evType ≠ Evdev.key := by rw [hb.2.2.1]; decide
      rw [sent_of_msg usage hb.1 hb.2.1, if_neg hsyn, if_neg hkey, if_pos rfl, due,
        if_neg (not_releases_of_ofDev hb.1)]
      exact hsum
    · rw [moved, if_neg hb, add_zero]
      split
      · exact due_fits h _ f a
      · exact int32Fits_zero
  absX := by
    obtain hsame | hmoved := (place_step usage p.1 m.event).1
    · exact hsame ▸ h.absX
    · exact hmoved ▸ m.value
  absY := by
    obtain hsame | hmoved := (place_step usage p.1 m.event).2
    · exact hsame ▸ h.absY
    · exact hmoved ▸ m.value

/-- The reports of a message are those of a flush. -/
lemma sent_of_ne_nil (h : s.sent usage ev f ≠ []) :
    s.sent usage ev f = (if ev.Releases then s.letGo else s).flushReports ev f := by
  by_cases hr : ev.Releases
  · rw [if_pos hr]
    rw [sent] at h ⊢
    by_cases hclosed : (s.node f).opened = false
    · exact absurd (if_pos hclosed) h
    · rw [if_neg hclosed, if_pos hr.1, if_pos hr.2]
  rw [if_neg hr]
  by_cases hthis : HidFunc.ofDev ev.msg.dev = some f ∧ (s.node f).opened = true
  · have hif {c : Prop} [Decidable c] (hc : (if c then s.flushReports ev f else []) ≠ []) :
        (if c then s.flushReports ev f else []) = s.flushReports ev f :=
      if_pos (by_contra fun hno => hc (if_neg hno))
    rw [sent_of_msg usage hthis.1 hthis.2] at h ⊢
    by_cases hsyn : ev.msg.evType = Evdev.syn
    · rw [if_pos hsyn] at h ⊢
      exact hif h
    rw [if_neg hsyn] at h ⊢
    by_cases hkey : ev.msg.evType = Evdev.key
    · rw [if_pos hkey] at h ⊢
      exact hif h
    · exact absurd (if_neg hkey) h
  · rw [not_and_or, Bool.not_eq_true] at hthis
    exact absurd (sent_of_other usage s hr hthis) h

/-- **A flush of the mouse** sends what came in. -/
lemma Balanced.conserves (h : Balanced p) (m : HidMsg) : Conserves usage p m := by
  intro hreps
  rw [sent_of_ne_nil hreps]
  refine ⟨HidMouse.length_burst_le _ _ _, fun rep hrep a => HidMouse.delta_mem_burst hrep a,
    fun a => ?_⟩
  have hsum := HidMouse.sum_burst hidMaxSplit
    (if m.event.Releases then p.1.letGo else p.1).mouse a
  have hacc : (if m.event.Releases then p.1.letGo else p.1).mouse.acc a =
      due m.event p.2 .mouse a := by
    unfold due
    split
    · cases a <;> rfl
    · exact h.acc .mouse (by decide) a
  rw [hacc] at hsum
  exact hsum

/-- What is left of the sums of a flush fits. -/
lemma fits_flushArith_mouse (h : ∀ a, Int32Fits (s.mouse.acc a)) (fit : KvmFit) :
    ∀ r ∈ s.flushArith fit .mouse, Int32Fits r := by
  intro r hr
  obtain ⟨m, hm, hmem⟩ := List.mem_flatMap.mp hr
  have hfits (a : RelAxis) : Int32Fits (m.acc a) :=
    HidMouse.fits_lefts HidMouse.fits_mouseReport hm (h a)
  simp only [List.mem_cons, List.not_mem_nil, or_false] at hmem
  rcases hmem with rfl | rfl | rfl | rfl
  · exact hfits .x
  · exact hfits .y
  · exact hfits .wheel
  · exact hfits .hwheel

lemma fits_takes_pointer (h : ∀ a, Int32Fits (s.ptr.acc a)) (place : ℤ × ℤ) (n : ℕ) :
    ∀ r ∈ (HidMouse.lefts (HidMouse.pointerReport place) n s.ptr).flatMap
      fun m => [m.wheel, m.hwheel], Int32Fits r := by
  intro r hr
  obtain ⟨m, hm, hmem⟩ := List.mem_flatMap.mp hr
  have hfits (a : RelAxis) : Int32Fits (m.acc a) :=
    HidMouse.fits_lefts (HidMouse.fits_pointerReport place) hm (h a)
  simp only [List.mem_cons, List.not_mem_nil, or_false] at hmem
  rcases hmem with rfl | rfl
  · exact hfits .wheel
  · exact hfits .hwheel

/-- A position less the offset of the picture. -/
lemma fits_sub {x ox : ℤ} (hx : Int32Fits x) (hox : 0 ≤ ox) :
    Int32Fits (x - ox) ↔ -2 ^ 31 + ox ≤ x := by
  unfold Int32Fits at hx ⊢
  omega

/-- The subtractions of a flush of the pointer. -/
lemma fits_flushArith_pointer (h : ∀ a, Int32Fits (s.ptr.acc a)) (hx : Int32Fits s.absX)
    (hy : Int32Fits s.absY) (m : HidMsg) :
    (∀ r ∈ s.flushArith m.fit .pointer, Int32Fits r) ↔
      (s.absPlaced = true → 0 < m.srcW → 0 < m.srcH →
        -2 ^ 31 + m.fit.ox ≤ s.absX ∧ -2 ^ 31 + m.fit.oy ≤ s.absY) := by
  obtain ⟨hw, hh, hox, hoy⟩ := m.fit_offsets
  rw [flushArith]
  by_cases hplaced : s.absPlaced = true
  · rw [if_pos hplaced, hw, hh, List.forall_mem_append,
      and_iff_left (fits_takes_pointer h _ _)]
    by_cases hsrc : m.srcW ≤ 0 ∨ m.srcH ≤ 0
    · rw [if_pos hsrc]
      exact iff_of_true (fun r hr => absurd hr List.not_mem_nil) fun _ hw' hh' => by omega
    · rw [if_neg hsrc]
      simp only [List.mem_cons, List.not_mem_nil, or_false, forall_eq_or_imp, forall_eq,
        fits_sub hx hox, fits_sub hy hoy]
      exact ⟨fun hfit _ _ _ => hfit, fun hfit => hfit hplaced (by omega) (by omega)⟩
  · rw [if_neg hplaced]
    exact iff_of_true (fun r hr => absurd hr List.not_mem_nil) fun hp => absurd hp hplaced

/-- **When everything fits.** -/
lemma Balanced.fits_iff (h : Balanced p) (m : HidMsg) : Fits usage p m ↔ Within usage p m := by
  -- the state that the flushes of the message see
  set s := if m.event.Releases then p.1.letGo else p.1 with hs
  have hplace : s.absPlaced = p.1.absPlaced ∧ s.absX = p.1.absX ∧ s.absY = p.1.absY := by
    rw [hs]
    split <;> exact ⟨rfl, rfl, rfl⟩
  have hacc (f : HidFunc) (hf : f ≠ .keyboard) (a : RelAxis) : Int32Fits ((s.mouseOf f).acc a) := by
    have hdue : (s.mouseOf f).acc a = due m.event p.2 f a := by
      rw [hs, due]
      split
      · cases f <;> cases a <;> rfl
      · exact h.acc f hf a
    rw [hdue]
    exact due_fits h _ f a
  have hptr := fits_flushArith_pointer (hacc .pointer (by decide)) (hplace.2.1 ▸ h.absX)
    (hplace.2.2 ▸ h.absY) m
  rw [hplace.1, hplace.2.1, hplace.2.2] at hptr
  constructor
  · refine fun hfit => ⟨fun f a => ?_, fun hp => ?_⟩
    · by_cases hb : p.1.Brings m.event f a
      · rw [moved, if_pos hb, ← h.acc f hb.2.2.2.1 a]
        exact hfit _ (mem_arith.mpr (.inr ⟨f, a, hb, rfl⟩))
      · rw [moved, if_neg hb, add_zero]
        exact h.sums f a
    · exact hptr.mp (fun r hr => hfit r (mem_arith.mpr (.inl ⟨.pointer, hp.2, hr⟩))) hp.1
  · intro hin r hr
    obtain ⟨f, hf, hr⟩ | ⟨f, a, hb, rfl⟩ := mem_arith.mp hr
    · cases f with
      | keyboard => exact absurd hr List.not_mem_nil
      | mouse => exact fits_flushArith_mouse (hacc .mouse (by decide)) _ r hr
      | pointer => exact hptr.mpr (fun hplaced => hin.places ⟨hplaced, hf⟩) r hr
    · have hsum := hin.sums f a
      rw [moved, if_pos hb, ← h.acc f hb.2.2.2.1 a] at hsum
      exact hsum

end motion

/-- **The arithmetic of motion**: every flush of the mouse says what came in, and no addition or
subtraction overflows, exactly when the sums fit and no position is too far off the picture. -/
theorem motion_iff (usage : ℕ → UInt8) (opened : HidFunc → Bool) (ms : List HidMsg) :
    Along (fun p m => Conserves usage p m ∧ Fits usage p m) (tally usage)
        (start opened, fun _ _ => 0) ms ↔
      Along (Within usage) (tally usage) (start opened, fun _ _ => 0) ms := by
  refine along_iff_of_invariant (Q := fun _ => True) (J := Balanced)
    (fun p m _ hp hm => hp.tally hm)
    (fun p m _ hp => (and_iff_right (hp.conserves m)).trans (hp.fits_iff m)) ?_ fun _ _ => trivial
  refine ⟨fun f hf a => ?_, fun _ _ => int32Fits_zero, int32Fits_zero, int32Fits_zero⟩
  cases f with
  | keyboard => exact absurd rfl hf
  | mouse | pointer => cases a <;> rfl

/-- Two long movements in one frame: the second addition overflows. -/
theorem exists_motion_overflow :
    ∃ ms : List HidMsg, ¬Along (fun p m => Conserves hidUsage p m ∧ Fits hidUsage p m)
      (tally hidUsage) (start fun _ => true, fun _ _ => 0) ms := by
  let rel : HidMsg :=
    { msg := ⟨indevMouse, Evdev.rel, Evdev.relX, 2 ^ 31 - 1⟩, value := ⟨by decide, by decide⟩ }
  refine ⟨[rel, rel], fun h => ?_⟩
  have hsum : Int32Fits (2 ^ 32 - 2) := h.2.1.2 _ (by decide +kernel)
  exact absurd hsum.2 (by decide)

end HidInput

end Sremfb
