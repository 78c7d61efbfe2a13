import Mathlib.Data.Nat.Bitwise
import Sremfb.Kvm.HidKeys
import Sremfb.Kvm.HidReports
import Sremfb.Lib.Signal

/-!
# Presses and releases in the reports (`input_hid.c`)

Reports are snapshots, taken at a `SYN_REPORT`; a release whose press has not been reported takes one
first.  For each key and button, `HidInput.transitions` is the log of a run: the accepted presses and
releases, what each written report shows, and the syncs.  No transition should be lost there, in the
sense of `Lib.Mark.Seen`.

A key or button is a `Lib.Signal`, of which `last_kbd` and `last_btn` are the last sample, and each
message is a few acts of it (`step_acts`).  What goes wrong is a press that comes while the last
report still shows the release before it unseen: pressed, let go and pressed again in one frame, the
release and the second press are lost.  `transitions_seen_iff` says that nothing else is.
-/

namespace Sremfb

open Lib

namespace HidInput

/-- The button is on in the byte of buttons. -/
def buttonOn (buttons : UInt8) (code : ℕ) : Bool :=
  match hidButtonBit code with
  | none => false
  | some b => buttons &&& buttonBit b ≠ 0

/-- The tracked state of a key or button. -/
def tracked (s : HidInput) : HidFunc → ℕ → Bool
  | .keyboard, code => s.kbd.down code
  | .mouse, code => buttonOn s.mouse.buttons code
  | .pointer, code => buttonOn s.ptr.buttons code

/-- A report shows a key or button as held. -/
def shows (usage : ℕ → UInt8) : HidFunc → List UInt8 → ℕ → Bool
  | .keyboard, rep, code =>
      let u := usage code
      if 0xE0 ≤ u ∧ u ≤ 0xE7 then rep.headD 0 &&& HidKbd.modBit u ≠ 0 else (rep.drop 2).contains u
  | .mouse, rep, code | .pointer, rep, code => buttonOn (rep.headD 0) code

/-- What `last_kbd` and `last_btn` keep of the last report. -/
def lastReport (s : HidInput) : HidFunc → List UInt8
  | .keyboard => s.lastKbd
  | .mouse => [s.lastBtn .mouse]
  | .pointer => [s.lastBtn .pointer]

/-- The reports of a message that are written. -/
def written (usage : ℕ → UInt8) (s : HidInput) (ev : HidEvent) (f : HidFunc) : List (List UInt8) :=
  ((s.sent usage ev f).zipIdx.filter fun p => ev.writes f p.2 = .accepted).map Prod.fst

/-- What a message writes down about a key or button. -/
def marks (usage : ℕ → UInt8) (s : HidInput) (ev : HidEvent) (f : HidFunc) (code : ℕ) : List Mark :=
  let shown := (s.written usage ev f).map fun rep => Mark.shown (shows usage f rep code)
  if ev.msg.dev = indevAll then (if ev.msg.evType = 0 then .reset :: shown else [])
  else if HidFunc.ofDev ev.msg.dev ≠ some f ∨ (s.node f).opened = false then []
  else if ev.msg.evType = Evdev.syn ∧ ev.msg.evCode = Evdev.synReport then shown ++ [.sync]
  else
    let now := (s.step usage ev).tracked f code
    shown ++ if ev.msg.evType = Evdev.key ∧ ev.msg.evCode = code ∧ now ≠ s.tracked f code
      then [.edge now] else []

/-- The log of a key or button. -/
def transitions (usage : ℕ → UInt8) (f : HidFunc) (code : ℕ) : HidInput → List HidEvent → List Mark
  | _, [] => []
  | s, ev :: es => s.marks usage ev f code ++ transitions usage f code (s.step usage ev) es

/-- A press would be accepted. -/
def Accepts (usage : ℕ → UInt8) (s : HidInput) : HidFunc → ℕ → Prop
  | .keyboard, code => HidKbd.Usable usage code ∧ s.kbd.down code = false ∧
      (0xE0 ≤ usage code ∨ 0 ∈ s.kbd.keys)
  | .mouse, code => (hidButtonBit code).isSome ∧ buttonOn s.mouse.buttons code = false
  | .pointer, code =>
      (hidButtonBit code).isSome ∧ buttonOn s.ptr.buttons code = false ∧ s.absPlaced = true

/-- The message is a press of this key or button that would be accepted. -/
def Presses (usage : ℕ → UInt8) (s : HidInput) (ev : HidEvent) (f : HidFunc) (code : ℕ) : Prop :=
  HidFunc.ofDev ev.msg.dev = some f ∧ (s.node f).opened = true ∧ ev.msg.evType = Evdev.key ∧
    ev.msg.evCode = code ∧ ev.msg.evValue = 1 ∧ s.Accepts usage f code

/-- **An accepted press** comes when the last report does not show the key. -/
def FreshPress (usage : ℕ → UInt8) (s : HidInput) (ev : HidEvent) : Prop :=
  ∀ f code, s.Presses usage ev f code → shows usage f (s.lastReport f) code = false

/-! ## Buttons -/

section buttons

variable {code code' b : ℕ} {buttons : UInt8}

/-- The buttons are numbered from the left one on. -/
lemma hidButtonBit_eq (h : hidButtonBit code = some b) : code = Evdev.btnLeft + b ∧ b < 5 := by
  unfold hidButtonBit at h
  split_ifs at h with h₀ h₁ h₂ h₃ h₄ <;>
    (obtain rfl := Option.some_inj.mp h; exact ⟨by assumption, by decide⟩)

lemma hidButtonBit_lt (h : hidButtonBit code = some b) : b < 5 := (hidButtonBit_eq h).2

lemma hidButtonBit_inj (h : hidButtonBit code = some b) (h' : hidButtonBit code' = some b) :
    code = code' := (hidButtonBit_eq h).1.trans (hidButtonBit_eq h').1.symm

lemma toNat_buttonBit (hb : b < 5) : (buttonBit b).toNat = 2 ^ b := by
  have hall : ∀ b : Fin 5, (buttonBit b).toNat = 2 ^ b.val := by decide
  exact hall ⟨b, hb⟩

/-- A byte and one bit of it. -/
lemma and_ne_zero_iff {m c : UInt8} {i : ℕ} (hc : c.toNat = 2 ^ i) :
    m &&& c ≠ 0 ↔ m.toNat.testBit i = true := by
  have hand : (m &&& c).toNat = (m.toNat.testBit i).toNat * 2 ^ i := by
    rw [UInt8.toNat_and, hc, Nat.and_two_pow]
  rw [ne_eq, ← UInt8.toNat_inj, hand]
  cases m.toNat.testBit i <;> simp

lemma buttonOn_eq (h : hidButtonBit code = some b) :
    buttonOn buttons code = buttons.toNat.testBit b := by
  rw [buttonOn, h]
  dsimp only
  rw [Bool.eq_iff_iff, decide_eq_true_iff]
  exact and_ne_zero_iff (toNat_buttonBit (hidButtonBit_lt h))

lemma testBit_buttonBit (hb : b < 5) (i : ℕ) : (buttonBit b).toNat.testBit i = decide (b = i) := by
  rw [toNat_buttonBit hb, Nat.testBit_two_pow]

/-- The buttons after one of them went down or up. -/
lemma buttonOn_set (buttons : UInt8) (h : hidButtonBit code = some b) (on : Bool)
    (hcode' : (hidButtonBit code').isSome) :
    buttonOn (if on then buttons ||| buttonBit b else buttons &&& ~~~buttonBit b) code' =
      if code' = code then on else buttonOn buttons code' := by
  obtain ⟨b', h'⟩ := Option.isSome_iff_exists.mp hcode'
  have hb := hidButtonBit_lt h
  have hb' := hidButtonBit_lt h'
  have hsame : b = b' ↔ code' = code := by
    constructor
    · rintro rfl
      exact hidButtonBit_inj h' h
    · rintro rfl
      exact Option.some_inj.mp (h.symm.trans h')
  rw [buttonOn_eq h', buttonOn_eq h']
  cases on
  · rw [if_neg Bool.false_ne_true, HidKbd.testBit_and_not _ _ (by omega), testBit_buttonBit hb]
    by_cases hc : code' = code
    · simp [hc, hsame.mpr hc]
    · simp [hc, hsame.not.mpr hc]
  · rw [if_pos rfl, HidKbd.testBit_or, testBit_buttonBit hb]
    by_cases hc : code' = code
    · simp [hc, hsame.mpr hc]
    · simp [hc, hsame.not.mpr hc]

end buttons

/-! ## What reports show -/

section reports

variable {usage : ℕ → UInt8} {s : HidInput} {ev : HidEvent} {f : HidFunc} {code : ℕ}

/-- **The report of the keyboard** shows the keys that are down. -/
lemma shows_report (hap : HidKbd.Apart usage) {k : HidKbd} {held : List ℕ}
    (h : HidKbd.Represents usage k held) (hu : HidKbd.Usable usage code) :
    shows usage .keyboard k.report code = k.down code := by
  rw [Bool.eq_iff_iff, h.down]
  by_cases hmod : 0xE0 ≤ usage code ∧ usage code ≤ 0xE7
  · have hlow : 0xE0 ≤ (usage code).toNat := UInt8.le_iff_toNat_le.mp hmod.1
    have hhigh : (usage code).toNat ≤ 0xE7 := UInt8.le_iff_toNat_le.mp hmod.2
    rw [shows, if_pos hmod, decide_eq_true_iff]
    refine (and_ne_zero_iff (HidKbd.toNat_modBit hmod)).trans
      ((h.mods _ (by omega)).trans ⟨?_, fun hc => ⟨code, hc, by omega⟩⟩)
    rintro ⟨c, hc, heq⟩
    have hsame : usage c = usage code := UInt8.toNat_inj.mp (by omega)
    exact hap c code (h.usable c hc) hu hsame ▸ hc
  · have hslot : usage code < 0xE0 :=
      UInt8.not_le.mp fun hle => hmod (hu.modifier hle)
    rw [shows, if_neg hmod]
    have hkeys : (k.report.drop 2) = HidKbd.slotUsages usage held ++
        List.replicate (6 - (HidKbd.slotUsages usage held).length) 0 := h.keys.eq
    rw [hkeys, List.contains_iff_mem, List.mem_append, HidKbd.mem_slotUsages hap h.usable hu]
    constructor
    · rintro (hc | hzero)
      · exact hc.1
      · exact absurd (List.eq_of_mem_replicate hzero) hu.2.1
    · exact fun hc => .inl ⟨hc, hslot⟩

/-- What a run keeps: the keyboard represents the keys that are held, and a pointer that is not
placed has no button on, reported or not. -/
structure Tracks (usage : ℕ → UInt8) (s : HidInput) : Prop where
  kbd : ∃ held, HidKbd.Represents usage s.kbd held
  unplaced : s.absPlaced = false → s.ptr.buttons = 0 ∧ s.lastBtn .pointer = 0

/-- The keys and buttons that there are. -/
def Trackable (usage : ℕ → UInt8) : HidFunc → ℕ → Prop
  | .keyboard, code => HidKbd.Usable usage code
  | .mouse, code | .pointer, code => (hidButtonBit code).isSome

/-- A key or button as a signal. -/
def view (usage : ℕ → UInt8) (s : HidInput) (f : HidFunc) (code : ℕ) : Signal where
  now := s.tracked f code
  last := shows usage f (s.lastReport f) code
  dirty := s.dirty f

lemma head_of_take {rep : List UInt8} {b : UInt8} (h : rep.take 1 = [b]) : rep.headD 0 = b := by
  cases rep with
  | nil => exact nomatch h
  | cons a rep => exact (List.cons.inj h).1

/-- The reports of a flush show what is tracked. -/
lemma shows_flushReports (hap : HidKbd.Apart usage) (hs : s.Tracks usage)
    (hc : Trackable usage f code) {rep : List UInt8} (hrep : rep ∈ s.flushReports ev f) :
    shows usage f rep code = s.tracked f code := by
  cases f with
  | keyboard =>
      obtain ⟨held, hheld⟩ := hs.kbd
      rw [List.mem_singleton.mp hrep]
      exact shows_report hap hheld hc
  | mouse =>
      have htake := HidMouse.take_of_mem_burst (fun _ => rfl) (fun _ => rfl) hrep
      rw [shows, head_of_take htake]
      rfl
  | pointer =>
      rw [flushReports] at hrep
      split at hrep
      · have htake := HidMouse.take_of_mem_burst (fun _ => rfl) (fun _ => rfl) hrep
        rw [shows, head_of_take htake]
        rfl
      · exact absurd hrep List.not_mem_nil

lemma length_flushReports (ev : HidEvent) (hf : f = .pointer → s.absPlaced = true) :
    ∃ more, (s.flushReports ev f).length = more + 1 := by
  cases f with
  | keyboard => exact ⟨0, rfl⟩
  | mouse => exact ⟨_, List.length_cons⟩
  | pointer =>
      rw [flushReports, if_pos (hf rfl)]
      exact ⟨_, List.length_cons⟩

lemma tracked_devFlush (s : HidInput) (ev : HidEvent) (f g : HidFunc) (code : ℕ) :
    (s.devFlush ev g).tracked f code = s.tracked f code := by
  cases g with
  | keyboard | mouse => cases f <;> rfl
  | pointer =>
      rw [devFlush]
      split
      · cases f <;> rfl
      · rfl

/-- After a flush the last report is what is tracked. -/
lemma view_devFlush (hap : HidKbd.Apart usage) (hs : s.Tracks usage) (hc : Trackable usage f code)
    (hf : f = .pointer → s.absPlaced = true) (more : ℕ) :
    (s.devFlush ev f).view usage f code = (s.view usage f code).act (.sample more) := by
  have hlast : shows usage f ((s.devFlush ev f).lastReport f) code = s.tracked f code := by
    cases f with
    | keyboard =>
        obtain ⟨held, hheld⟩ := hs.kbd
        exact shows_report hap hheld hc
    | mouse =>
        simp only [devFlush, mouseFlush, lastReport, Function.update_self]
        rfl
    | pointer =>
        simp only [devFlush, if_pos (hf rfl), ptrFlush, lastReport, Function.update_self]
        rfl
  obtain ⟨-, -, -, -, hdirty⟩ := devFlush_sends (s := s) (f := f) ev hf
  rw [view, hlast, tracked_devFlush, hdirty, Function.update_self]
  rfl

end reports

/-! ## Presses and releases -/

section presses

variable {usage : ℕ → UInt8} {s s' : HidInput} {ev : HidEvent} {f : HidFunc} {code : ℕ} {v : ℤ}

/-- A press or release that is accepted. -/
structure Taken (usage : ℕ → UInt8) (s : HidInput) (ev : HidEvent) (f : HidFunc) (code : ℕ) (v : ℤ)
    (s' : HidInput) : Prop where
  value : v = 0 ∨ v = 1
  change : s.tracked f code = !decide (v = 1)
  accepts : v = 1 → s.Accepts usage f code
  placed : f = .pointer → s.absPlaced = true
  tracked : ∀ c, Trackable usage f c →
    s'.tracked f c = if c = code then decide (v = 1) else s.tracked f c
  last : s'.lastReport f =
    (if s.early usage f code v then s.devFlush ev f else s).lastReport f
  dirty : s'.dirty f = true

/-- What happens at a press or release. -/
def KeyStep (usage : ℕ → UInt8) (s : HidInput) (ev : HidEvent) (f : HidFunc) (code : ℕ) (v : ℤ)
    (s' : HidInput) : Prop :=
  (s' = s ∧ s.early usage f code v = false ∧ (v = 1 → ¬s.Accepts usage f code)) ∨
    Taken usage s ev f code v s'

lemma accepts_keyboard (hap : HidKbd.Apart usage) {held : List ℕ}
    (h : HidKbd.Represents usage s.kbd held) :
    s.Accepts usage .keyboard code ↔ (s.kbd.key usage code 1).2 = .changed := by
  have hroom : 0 ∈ s.kbd.keys ↔ (HidKbd.slotUsages usage held).length < 6 := by
    rw [← Vector.mem_toList_iff, h.keys.eq, List.mem_append, List.mem_replicate]
    constructor
    · rintro (hmem | hmem)
      · exact absurd hmem (HidKbd.zero_not_mem_slotUsages h.usable)
      · omega
    · exact fun hlt => .inr ⟨by omega, rfl⟩
  have hdown : s.kbd.down code = false ↔ code ∉ held := by
    rw [← h.down, Bool.not_eq_true]
  have hle := h.keys.room
  rw [(h.key hap code 1).1, Accepts, hroom, hdown, HidKbd.answer]
  by_cases hu : HidKbd.Usable usage code
  · rw [if_neg (not_not.mpr hu), if_neg (by decide)]
    by_cases hc : code ∈ held
    · simp [hc]
    · by_cases hmod : usage code < 0xE0
      · have hlow : ¬0xE0 ≤ usage code := UInt8.not_le.mpr hmod
        by_cases hfull : (HidKbd.slotUsages usage held).length = 6
        · simp [hu, hc, hmod, hlow, hfull]
        · have hlt : (HidKbd.slotUsages usage held).length < 6 := by omega
          simp [hu, hc, hlow, hfull, hlt]
      · have hhigh : 0xE0 ≤ usage code := UInt8.not_lt.mp hmod
        simp [hu, hc, hmod, hhigh]
  · simp [hu]

/-- A key that changes was in the other state. -/
lemma key_change {k : HidKbd} (h : (k.key usage code v).2 = .changed) :
    (v = 0 ∨ v = 1) ∧ k.down code = !decide (v = 1) := by
  unfold HidKbd.key at h
  split at h
  · exact nomatch h
  split at h
  · exact nomatch h
  rename_i hv
  split at h
  · exact nomatch h
  rename_i hdown
  refine ⟨by omega, ?_⟩
  cases hc : k.down code <;> cases hd : decide (v = 1) <;> simp_all

/-- **A key** is ignored or taken. -/
lemma keyStep_onKey (hap : HidKbd.Apart usage) (hs : s.Tracks usage) (ev : HidEvent) (code : ℕ)
    (v : ℤ) : KeyStep usage s ev .keyboard code v (s.onKey usage ev code v) := by
  obtain ⟨held, hheld⟩ := hs.kbd
  have hearly : s.early usage .keyboard code v =
      decide (v = 0 ∧ s.kbd.held code = true ∧ s.kbdUsageSent usage code = false) := rfl
  obtain ⟨hsame, hr⟩ | ⟨hu, hr, hdown⟩ := key_cases usage s.kbd code v
  · have hflush : ¬(v = 0 ∧ s.kbd.held code = true ∧ s.kbdUsageSent usage code = false) := by
      rintro ⟨rfl, hheld', -⟩
      have hcode : s.kbd.down code = true := (Bool.and_eq_true_iff.mp hheld').2
      exact hr (key_release (hheld.usable code ((hheld.down code).mp hcode)) hcode)
    refine .inl ⟨?_, ?_, ?_⟩
    · rw [onKey, if_neg hflush]
      dsimp only
      rw [if_neg hr, hsame]
    · rw [hearly, decide_eq_false hflush]
    · rintro rfl hacc
      exact hr ((accepts_keyboard hap hheld).mp hacc)
  · obtain ⟨hv, hchange⟩ := key_change hr
    have hkbd : (s.onKey usage ev code v).kbd = (s.kbd.key usage code v).1 := onKey_kbd ..
    refine .inr ⟨hv, hchange, ?_, fun hf => absurd hf (by decide), fun c _ => ?_, ?_, ?_⟩
    · rintro rfl
      exact (accepts_keyboard hap hheld).mpr hr
    · rw [HidInput.tracked, hkbd, hdown, Function.update_apply]
      rfl
    · rw [hearly]
      unfold onKey
      by_cases hc : v = 0 ∧ s.kbd.held code = true ∧ s.kbdUsageSent usage code = false
      · rw [if_pos hc, if_pos (decide_eq_true hc)]
        dsimp only
        split <;> rfl
      · rw [if_neg hc, decide_eq_false hc]
        dsimp only
        split <;> rfl
    · unfold onKey
      by_cases hc : v = 0 ∧ s.kbd.held code = true ∧ s.kbdUsageSent usage code = false
      · have hr' : ((s.kbdFlush ev).kbd.key usage code v).2 = .changed := hr
        rw [if_pos hc]
        dsimp only
        rw [if_pos hr']
        simp only [Function.update_self]
      · rw [if_neg hc]
        dsimp only
        rw [if_pos hr]
        simp only [Function.update_self]

lemma tracked_of_ne (hf : f ≠ .keyboard) (s : HidInput) (code : ℕ) :
    s.tracked f code = buttonOn (s.mouseOf f).buttons code := by
  cases f with
  | keyboard => exact absurd rfl hf
  | mouse | pointer => rfl

lemma trackable_of_ne (hf : f ≠ .keyboard) :
    Trackable usage f code ↔ (hidButtonBit code).isSome := by
  cases f with
  | keyboard => exact absurd rfl hf
  | mouse | pointer => rfl

lemma accepts_of_ne (hf : f ≠ .keyboard) : s.Accepts usage f code ↔
    (hidButtonBit code).isSome ∧ buttonOn (s.mouseOf f).buttons code = false ∧
      (f = .pointer → s.absPlaced = true) := by
  cases f with
  | keyboard => exact absurd rfl hf
  | mouse => exact ⟨fun h => ⟨h.1, h.2, nofun⟩, fun h => ⟨h.1, h.2.1⟩⟩
  | pointer => exact ⟨fun h => ⟨h.1, h.2.1, fun _ => h.2.2⟩, fun h => ⟨h.1, h.2.1, h.2.2 rfl⟩⟩

lemma lastReport_setMouse (s : HidInput) (m : HidMouse) :
    (s.setMouse f m).lastReport f = s.lastReport f := by
  cases f <;> rfl

/-- **A button** is ignored or taken. -/
lemma keyStep_onButton (hs : s.Tracks usage) (ev : HidEvent) (hf : f ≠ .keyboard) (code : ℕ)
    (v : ℤ) : KeyStep usage s ev f code v (s.onButton ev f code v) := by
  have hon {b : ℕ} (hb : hidButtonBit code = some b) : s.tracked f code =
      decide ((s.mouseOf f).buttons &&& buttonBit b ≠ 0) := by
    rw [tracked_of_ne hf, buttonOn, hb]
  by_cases hok : ∃ b, hidButtonBit code = some b ∧ s.ButtonOk f b v
  · obtain ⟨b, hb, hok⟩ := hok
    rw [onButton_of_ok usage ev hf hb hok]
    dsimp only
    have hchange : s.tracked f code = !decide (v = 1) := (hon hb).trans hok.change
    -- a button that is on belongs to a pointer that is placed
    have hput : f = .pointer → s.absPlaced = true := by
      rintro rfl
      by_contra hfalse
      rw [Bool.not_eq_true] at hfalse
      have hpress : v ≠ 1 := fun h => absurd ((hok.placed rfl h).symm.trans hfalse) (by decide)
      have hzero : (s.mouseOf .pointer).buttons = 0 := (hs.unplaced hfalse).1
      have hdown := hok.change
      rw [hzero, decide_eq_false hpress] at hdown
      simp at hdown
    have hbuttons : ((if s.early usage f code v then s.devFlush ev f else s).mouseOf f).buttons =
        (s.mouseOf f).buttons := by
      split
      · cases f with
        | keyboard => exact absurd rfl hf
        | mouse => rfl
        | pointer => rw [devFlush, if_pos (hput rfl)]; rfl
      · rfl
    refine .inr ⟨hok.value, hchange, fun h1 => ?_, hput, fun c hc => ?_, ?_, by
      simp only [Function.update_self]⟩
    · refine (accepts_of_ne hf).mpr ⟨by rw [hb]; rfl, ?_, hput⟩
      rw [← tracked_of_ne hf, hchange, h1]
      rfl
    · have hset := buttonOn_set (s.mouseOf f).buttons hb (decide (v = 1))
        ((trackable_of_ne hf).mp hc)
      rw [tracked_of_ne hf, tracked_of_ne hf, ← hset]
      simp only [decide_eq_true_eq]
      rw [← hbuttons]
      exact congrArg (fun m : HidMouse => buttonOn m.buttons c) (mouseOf_setMouse hf _ _)
    · exact lastReport_setMouse _ _
  · obtain ⟨hsame, hearly⟩ := onButton_of_not usage ev hf fun b hb hb' => hok ⟨b, hb, hb'⟩
    refine .inl ⟨hsame, hearly, ?_⟩
    rintro rfl hacc
    obtain ⟨hsome, hup, hput⟩ := (accepts_of_ne hf).mp hacc
    obtain ⟨b, hb⟩ := Option.isSome_iff_exists.mp hsome
    refine hok ⟨b, hb, .inr rfl, ?_, fun hp _ => hput hp⟩
    rw [← hon hb, tracked_of_ne hf, hup]
    rfl

end presses

/-! ## One message -/

section messages

variable {usage : ℕ → UInt8} {s s' : HidInput} {ev : HidEvent} {f : HidFunc} {code : ℕ}

/-- The acts of a key or button that a message makes. -/
structure Explains (usage : ℕ → UInt8) (s : HidInput) (ev : HidEvent) (f : HidFunc) (code : ℕ)
    (as : List Signal.Act) : Prop where
  ok : Along Signal.Ok Signal.act (s.view usage f code) as
  run : run Signal.act (s.view usage f code) as = (s.step usage ev).view usage f code
  log : (s.view usage f code).log as = s.marks usage ev f code
  fresh : Along Signal.Fresh Signal.act (s.view usage f code) as ↔
    (s.Presses usage ev f code → shows usage f (s.lastReport f) code = false)

/-- Every report is written. -/
def Accepted (ev : HidEvent) : Prop := ∀ f i, ev.writes f i = .accepted

lemma written_eq (hw : Accepted ev) : s.written usage ev f = s.sent usage ev f := by
  rw [written, List.filter_eq_self.mpr fun p _ => decide_eq_true (hw f p.2)]
  exact List.zipIdx_map_fst 0 _

lemma view_of_part (h : s'.part f = s.part f) : s'.view usage f code = s.view usage f code := by
  cases f with
  | keyboard =>
      exact congrArg (fun p : HidPart =>
        (⟨p.kbd.down code, shows usage .keyboard p.lastKbd code, p.dirty⟩ : Signal)) h
  | mouse | pointer =>
      exact congrArg (fun p : HidPart =>
        (⟨buttonOn p.mouse.buttons code, buttonOn p.lastBtn code, p.dirty⟩ : Signal)) h

/-- What a flush writes down. -/
lemma map_flushReports (hap : HidKbd.Apart usage) (hs : s.Tracks usage)
    (hc : Trackable usage f code) {more : ℕ} (hlen : (s.flushReports ev f).length = more + 1) :
    (s.flushReports ev f).map (fun rep => Mark.shown (shows usage f rep code)) =
      (s.view usage f code).marks (.sample more) := by
  rw [Signal.marks, ← hlen, List.eq_replicate_iff, List.length_map]
  refine ⟨rfl, fun m hm => ?_⟩
  obtain ⟨rep, hrep, rfl⟩ := List.mem_map.mp hm
  rw [shows_flushReports hap hs hc hrep]
  rfl

/-- A message that is not for this function. -/
lemma explains_other (hall : ¬(ev.msg.dev = indevAll ∧ ev.msg.evType = 0))
    (hf : HidFunc.ofDev ev.msg.dev ≠ some f ∨ (s.node f).opened = false) :
    Explains usage s ev f code [] where
  ok := trivial
  run := (view_of_part (part_step usage s hall hf)).symm
  log := by
    rw [marks]
    by_cases hdev : ev.msg.dev = indevAll
    · rw [if_pos hdev, if_neg fun h => hall ⟨hdev, h⟩]
      rfl
    · rw [if_neg hdev, if_pos hf]
      rfl
  fresh := iff_of_true trivial fun h =>
    hf.elim (fun hne => absurd h.1 hne) fun hclosed => by
      rw [h.2.1] at hclosed
      exact nomatch hclosed

lemma buttonOn_zero (code : ℕ) : buttonOn 0 code = false := by
  unfold buttonOn
  split
  · rfl
  · simp

lemma tracked_letGo (s : HidInput) (f : HidFunc) (code : ℕ) : s.letGo.tracked f code = false := by
  cases f with
  | keyboard => rfl
  | mouse | pointer => exact buttonOn_zero code

lemma Tracks.letGo (hs : s.Tracks usage) : s.letGo.Tracks usage where
  kbd := ⟨[], HidKbd.represents_empty usage⟩
  unplaced h := ⟨rfl, (hs.unplaced h).2⟩

lemma Tracks.devFlush (hs : s.Tracks usage) (ev : HidEvent) (g : HidFunc) :
    (s.devFlush ev g).Tracks usage where
  kbd := by
    rw [devFlush_kbd]
    exact hs.kbd
  unplaced h := by
    rw [devFlush_absPlaced] at h
    cases g with
    | keyboard | mouse => exact hs.unplaced h
    | pointer =>
        rw [devFlush_unplaced ev h]
        exact hs.unplaced h

/-- After `release_all` nothing is held and nothing was reported as held. -/
lemma view_releaseAll (hap : HidKbd.Apart usage) (hs : s.Tracks usage) (ev : HidEvent)
    (hc : Trackable usage f code) : (s.releaseAll ev).view usage f code = {} := by
  have hflush (t : HidInput) (ht : t.Tracks usage) (hf : f = .pointer → t.absPlaced = true)
      (hnow : t.tracked f code = false) : (t.devFlush ev f).view usage f code = {} := by
    rw [view_devFlush hap ht hc hf 0, Signal.act, view, hnow]
  simp only [releaseAll]
  cases f with
  | keyboard =>
      have hview := hflush s.letGo hs.letGo (fun hf => absurd hf (by decide))
        (tracked_letGo s _ _)
      refine (view_of_part ?_).trans hview
      exact (part_mark _ false (by decide)).trans
        ((part_devFlush _ ev (by decide)).trans (part_devFlush _ ev (by decide)))
  | mouse =>
      have hview := hflush (s.letGo.devFlush ev .keyboard) (hs.letGo.devFlush ev _)
        (fun hf => absurd hf (by decide)) ((tracked_devFlush ..).trans (tracked_letGo s _ _))
      refine (view_of_part ?_).trans hview
      exact (part_mark _ false (by decide)).trans (part_devFlush _ ev (by decide))
  | pointer =>
      have ht := (hs.letGo.devFlush ev .keyboard).devFlush ev .mouse
      have hnow : ((s.letGo.devFlush ev .keyboard).devFlush ev .mouse).tracked .pointer code =
          false := by rw [tracked_devFlush, tracked_devFlush, tracked_letGo]
      generalize (s.letGo.devFlush ev .keyboard).devFlush ev .mouse = t at ht hnow
      have hview : (t.devFlush ev .pointer).tracked .pointer code = false ∧
          shows usage .pointer ((t.devFlush ev .pointer).lastReport .pointer) code = false := by
        by_cases hplaced : t.absPlaced = true
        · have heq := hflush t ht (fun _ => hplaced) hnow
          exact ⟨congrArg Signal.now heq, congrArg Signal.last heq⟩
        · have hfalse : t.absPlaced = false := by simpa using hplaced
          rw [devFlush_unplaced ev hfalse]
          refine ⟨hnow, ?_⟩
          rw [lastReport, (ht.unplaced hfalse).2]
          exact buttonOn_zero code
      have hdirty : Function.update (t.devFlush ev .pointer).dirty HidFunc.pointer false .pointer =
          false := by simp only [Function.update_self]
      exact congr (congr (congrArg Signal.mk hview.1) hview.2) hdirty

/-- Everything is let go. -/
lemma explains_all (hap : HidKbd.Apart usage) (hs : s.Tracks usage) (hw : Accepted ev)
    (hc : Trackable usage f code) (hdev : ev.msg.dev = indevAll) (htype : ev.msg.evType = 0) :
    Explains usage s ev f code [.reset (s.sent usage ev f).length] where
  ok := ⟨trivial, trivial⟩
  run := by
    rw [step, if_pos hdev, if_pos htype, view_releaseAll hap hs ev hc]
    rfl
  log := by
    have hsent : ∀ rep ∈ s.sent usage ev f, shows usage f rep code = false := by
      intro rep hrep
      rw [sent, if_pos hdev, if_pos htype] at hrep
      split at hrep
      · exact absurd hrep List.not_mem_nil
      · rw [shows_flushReports hap hs.letGo hc hrep, tracked_letGo]
    have hshown : (s.sent usage ev f).map (fun rep => Mark.shown (shows usage f rep code)) =
        List.replicate (s.sent usage ev f).length (.shown false) := by
      rw [List.eq_replicate_iff, List.length_map]
      refine ⟨rfl, fun m hm => ?_⟩
      obtain ⟨rep, hrep, rfl⟩ := List.mem_map.mp hm
      rw [hsent rep hrep]
    rw [marks, if_pos hdev, if_pos htype, written_eq hw, hshown]
    exact List.append_nil _
  fresh := iff_of_true ⟨trivial, trivial⟩ fun h => absurd hdev (dev_ne_all h.1)

/-- A message for this function. -/
lemma marks_of_msg (usage : ℕ → UInt8) (s : HidInput) (code : ℕ) (hw : Accepted ev)
    (hf : HidFunc.ofDev ev.msg.dev = some f) (hopen : (s.node f).opened = true) :
    s.marks usage ev f code =
      (s.sent usage ev f).map (fun rep => Mark.shown (shows usage f rep code)) ++
        if ev.msg.evType = Evdev.syn ∧ ev.msg.evCode = Evdev.synReport then [.sync]
        else if ev.msg.evType = Evdev.key ∧ ev.msg.evCode = code ∧
          (s.step usage ev).tracked f code ≠ s.tracked f code
        then [.edge ((s.step usage ev).tracked f code)] else [] := by
  have hthis : ¬(HidFunc.ofDev ev.msg.dev ≠ some f ∨ (s.node f).opened = false) := by
    simp [hf, hopen]
  rw [marks, if_neg (dev_ne_all hf), if_neg hthis, written_eq hw]
  dsimp only
  rw [← apply_ite]

lemma not_presses (h : ev.msg.evType ≠ Evdev.key) : ¬s.Presses usage ev f code := fun hp =>
  h hp.2.2.1

/-- A `SYN` for this function. -/
lemma explains_syn (hap : HidKbd.Apart usage) (hs : s.Tracks usage) (hw : Accepted ev)
    (hc : Trackable usage f code) (hf : HidFunc.ofDev ev.msg.dev = some f)
    (hopen : (s.node f).opened = true) (hsyn : ev.msg.evType = Evdev.syn) :
    ∃ as, Explains usage s ev f code as := by
  have hquiet : ¬s.Presses usage ev f code := not_presses (by rw [hsyn]; decide)
  have hnokey : ev.msg.evType ≠ Evdev.key := by rw [hsyn]; decide
  have hlog := marks_of_msg usage s code hw hf hopen
  have hsent := sent_of_msg usage hf hopen
  have hstep := step_of_msg usage hf hopen
  rw [if_pos hsyn] at hsent
  rw [dispatch] at hstep
  dsimp only at hstep
  rw [if_pos hsyn] at hstep
  by_cases hrep : ev.msg.evCode = Evdev.synReport
  · rw [if_pos ⟨hsyn, hrep⟩] at hlog
    by_cases hdirty : s.dirty f = true
    · rw [if_pos ⟨hrep, hdirty⟩] at hsent hstep
      by_cases hplaced : f = .pointer → s.absPlaced = true
      · obtain ⟨more, hlen⟩ := length_flushReports ev hplaced
        refine ⟨[.sample more, .sync], ⟨trivial, .inr rfl, trivial⟩, ?_, ?_,
          iff_of_true ⟨trivial, trivial, trivial⟩ fun h => absurd h hquiet⟩
        · rw [hstep, view_devFlush hap hs hc hplaced more]
          rfl
        · rw [hlog, hsent, map_flushReports hap hs hc hlen]
          rfl
      · rw [Classical.not_imp, Bool.not_eq_true] at hplaced
        obtain ⟨rfl, hfalse⟩ := hplaced
        obtain ⟨hbuttons, hlast⟩ := hs.unplaced hfalse
        refine ⟨[.sync], ⟨.inr ?_, trivial⟩, ?_, ?_,
          iff_of_true ⟨trivial, trivial⟩ fun h => absurd h hquiet⟩
        · simp only [view, tracked, lastReport, shows, hbuttons, hlast]
          rfl
        · rw [hstep, devFlush_unplaced ev hfalse]
          rfl
        · rw [hlog, hsent, flushReports, if_neg (by simp [hfalse])]
          rfl
    · rw [if_neg fun h => hdirty h.2] at hsent hstep
      refine ⟨[.sync], ⟨.inl ?_, trivial⟩, ?_, ?_,
        iff_of_true ⟨trivial, trivial⟩ fun h => absurd h hquiet⟩
      · exact (Bool.not_eq_true _).mp hdirty
      · rw [hstep]
        rfl
      · rw [hlog, hsent]
        rfl
  · rw [if_neg fun h => hrep h.1] at hsent hstep
    rw [if_neg fun h => hrep h.2, if_neg fun h => hnokey h.1, hsent] at hlog
    exact ⟨[], trivial, by rw [hstep]; rfl, hlog.symm,
      iff_of_true trivial fun h => absurd h hquiet⟩

/-- A key that went up without an early report had been reported down. -/
lemma shows_of_not_early (hc : Trackable usage f code) (hon : s.tracked f code = true)
    (hearly : s.early usage f code 0 = false) :
    shows usage f (s.lastReport f) code = true := by
  by_contra hlast
  rw [Bool.not_eq_true] at hlast
  by_cases hf : f = .keyboard
  · subst hf
    have hheld : s.kbd.held code = true := by
      rw [HidKbd.held, decide_eq_true hc.1, Bool.true_and]
      exact hon
    rw [early, if_pos rfl, decide_eq_false_iff_not] at hearly
    exact hearly ⟨rfl, hheld, hlast⟩
  · obtain ⟨b, hb⟩ := Option.isSome_iff_exists.mp ((trackable_of_ne hf).mp hc)
    rw [tracked_of_ne hf, buttonOn, hb] at hon
    have hlast' : buttonOn (s.lastBtn f) code = false := by
      cases f with
      | keyboard => exact absurd rfl hf
      | mouse | pointer => exact hlast
    rw [buttonOn, hb] at hlast'
    rw [early, if_neg hf, hb, decide_eq_false_iff_not] at hearly
    exact hearly ⟨rfl, of_decide_eq_true hon, not_not.mp (of_decide_eq_false hlast')⟩

/-- A press needs no early report. -/
lemma early_press (s : HidInput) (f : HidFunc) (code : ℕ) : s.early usage f code 1 = false := by
  by_cases hf : f = .keyboard
  · rw [early, if_pos hf]
    rfl
  · rw [early, if_neg hf]
    split <;> rfl

lemma keyStep_dispatch (f : HidFunc) (hap : HidKbd.Apart usage) (hs : s.Tracks usage)
    (hkey : ev.msg.evType = Evdev.key) :
    KeyStep usage s ev f ev.msg.evCode ev.msg.evValue (s.dispatch usage ev f) := by
  rw [dispatch]
  dsimp only
  rw [if_neg (by rw [hkey]; decide), if_pos hkey]
  split <;> rename_i hf
  · subst hf
    exact keyStep_onKey hap hs ev _ _
  · exact keyStep_onButton hs ev hf _ _

/-- The early report before a change. -/
lemma explains_early (ev : HidEvent) (hap : HidKbd.Apart usage) (hs : s.Tracks usage)
    (hc : Trackable usage f code) (hf : f = .pointer → s.absPlaced = true) (early : Bool) :
    ∃ pre, run Signal.act (s.view usage f code) pre =
        (if early then s.devFlush ev f else s).view usage f code ∧
      (s.view usage f code).log pre = (if early then s.flushReports ev f else []).map
        (fun rep => Mark.shown (shows usage f rep code)) ∧
      Along Signal.Ok Signal.act (s.view usage f code) pre ∧
      Along Signal.Fresh Signal.act (s.view usage f code) pre := by
  cases early with
  | false => exact ⟨[], rfl, rfl, trivial, trivial⟩
  | true =>
      obtain ⟨more, hlen⟩ := length_flushReports ev hf
      refine ⟨[.sample more], ?_, ?_, ⟨trivial, trivial⟩, ⟨trivial, trivial⟩⟩
      · exact (view_devFlush hap hs hc hf more).symm
      · rw [if_pos rfl, map_flushReports hap hs hc hlen]
        exact List.append_nil _

/-- A press or release for this function. -/
lemma explains_key (hap : HidKbd.Apart usage) (hs : s.Tracks usage) (hw : Accepted ev)
    (hc : Trackable usage f code) (hf : HidFunc.ofDev ev.msg.dev = some f)
    (hopen : (s.node f).opened = true) (hkey : ev.msg.evType = Evdev.key) :
    ∃ as, Explains usage s ev f code as := by
  have hnosyn : ev.msg.evType ≠ Evdev.syn := by rw [hkey]; decide
  have hlog := marks_of_msg usage s code hw hf hopen
  have hsent := sent_of_msg usage hf hopen
  have hstep := step_of_msg usage hf hopen
  rw [if_neg hnosyn, if_pos hkey] at hsent
  rw [if_neg fun h => hnosyn h.1] at hlog
  obtain ⟨hsame, hearly, hrefuse⟩ | htaken := keyStep_dispatch f hap hs hkey
  · rw [hsame] at hstep
    rw [hearly, if_neg Bool.false_ne_true] at hsent
    rw [hstep, if_neg fun h => h.2.2 rfl, hsent] at hlog
    refine ⟨[], trivial, by rw [hstep]; rfl, hlog.symm, iff_of_true trivial fun h => ?_⟩
    obtain ⟨-, -, -, rfl, hv, hacc⟩ := h
    exact absurd hacc (hrefuse hv)
  rw [← hstep] at htaken
  obtain ⟨hv, hchange, haccepts, hplaced, htracked, hlast, hdirty⟩ := htaken
  obtain ⟨pre, hrun, hpre, hok, hfresh⟩ := explains_early ev hap hs hc hplaced
    (s.early usage f ev.msg.evCode ev.msg.evValue)
  rw [← hsent] at hpre
  -- the state between the early report and the change
  have hnow : ((if s.early usage f ev.msg.evCode ev.msg.evValue then s.devFlush ev f else s).view
      usage f code).now = s.tracked f code := by
    split
    · exact tracked_devFlush s ev f f code
    · rfl
  have hview : (s.step usage ev).view usage f code =
      ⟨if code = ev.msg.evCode then decide (ev.msg.evValue = 1) else s.tracked f code,
        ((if s.early usage f ev.msg.evCode ev.msg.evValue then s.devFlush ev f else s).view
          usage f code).last, true⟩ := by
    rw [view, htracked code hc, hlast, hdirty]
    rfl
  by_cases hcode : code = ev.msg.evCode
  · subst hcode
    have hedge : (s.step usage ev).tracked f ev.msg.evCode = decide (ev.msg.evValue = 1) :=
      (htracked _ hc).trans (if_pos rfl)
    rw [if_pos rfl] at hview
    refine ⟨pre ++ [.edge (decide (ev.msg.evValue = 1))], ?_, ?_, ?_, ?_⟩
    · rw [along_append]
      refine ⟨hok, ⟨?_, fun hoff => ?_⟩, trivial⟩
      · rw [hrun, hnow, hchange]
      · have hzero : ev.msg.evValue = 0 := hv.resolve_right (of_decide_eq_false hoff)
        have hon : s.tracked f ev.msg.evCode = true := by rw [hchange, hoff]; rfl
        rw [hrun]
        cases hearly : s.early usage f ev.msg.evCode ev.msg.evValue with
        | true =>
            rw [if_pos rfl, view_devFlush hap hs hc hplaced 0]
            exact hon
        | false =>
            rw [hzero] at hearly
            exact shows_of_not_early hc hon hearly
    · rw [run_append, hrun, hview]
      rfl
    · rw [Signal.log_append, hpre, hlog, hedge, if_pos ⟨hkey, rfl, by rw [hchange]; simp⟩]
      rfl
    · rw [along_append, hrun]
      refine ⟨fun h hp => ?_, fun h => ⟨hfresh, ?_, trivial⟩⟩
      · have hone : ev.msg.evValue = 1 := hp.2.2.2.2.1
        have hnone : s.early usage f ev.msg.evCode ev.msg.evValue = false := by
          rw [hone, early_press]
        have hup := h.2.1
        rw [hnone, hone] at hup
        exact hup
      · by_cases hone : ev.msg.evValue = 1
        · have hnone : s.early usage f ev.msg.evCode ev.msg.evValue = false := by
            rw [hone, early_press]
          rw [hnone, decide_eq_true hone]
          exact h ⟨hf, hopen, hkey, rfl, hone, haccepts hone⟩
        · rw [decide_eq_false hone]
          trivial
  · rw [if_neg hcode] at hview
    refine ⟨pre ++ [.touch], ?_, ?_, ?_, ?_⟩
    · rw [along_append]
      exact ⟨hok, trivial, trivial⟩
    · rw [run_append, hrun, hview]
      exact congrArg (fun b => (⟨b, _, true⟩ : Signal)) hnow
    · rw [Signal.log_append, hpre, hlog, if_neg fun h => hcode h.2.1.symm]
      rfl
    · rw [along_append]
      exact iff_of_true ⟨hfresh, trivial, trivial⟩ fun h => absurd h.2.2.2.1.symm hcode

/-- A movement makes the function dirty, if it does anything. -/
lemma view_move (s : HidInput) (ev : HidEvent) (f : HidFunc) (code : ℕ)
    (hsyn : ev.msg.evType ≠ Evdev.syn) (hkey : ev.msg.evType ≠ Evdev.key) :
    (s.dispatch usage ev f).view usage f code = s.view usage f code ∨
      (s.dispatch usage ev f).view usage f code = (s.view usage f code).act .touch := by
  have hdirty (d : HidFunc → Bool) : Function.update d f true f = true :=
    Function.update_self f true d
  rw [dispatch]
  dsimp only
  rw [if_neg hsyn, if_neg hkey]
  split
  · split <;> rename_i hf
    · exact .inl rfl
    split <;> rename_i hm
    · exact .inl rfl
    · right
      have hbuttons := relMove_buttons hm
      cases f with
      | keyboard => exact absurd rfl hf
      | mouse | pointer =>
          simp only [view, tracked, lastReport, setMouse, hdirty, Signal.act]
          exact congrArg (fun b => (⟨buttonOn b code, _, true⟩ : Signal)) hbuttons
  split
  · split <;> rename_i habs
    · exact .inl rfl
    · right
      rw [not_or, not_not] at habs
      obtain ⟨rfl, -⟩ := habs
      split <;> exact congrArg (Signal.mk _ _) (hdirty s.dirty)
  · exact .inl rfl

/-- A movement for this function. -/
lemma explains_move (hw : Accepted ev) (hf : HidFunc.ofDev ev.msg.dev = some f)
    (hopen : (s.node f).opened = true) (hsyn : ev.msg.evType ≠ Evdev.syn)
    (hkey : ev.msg.evType ≠ Evdev.key) :
    ∃ as, Explains usage s ev f code as := by
  have hlog := marks_of_msg usage s code hw hf hopen
  have hsent := sent_of_msg usage (s := s) hf hopen
  rw [if_neg hsyn, if_neg hkey] at hsent
  rw [if_neg fun h => hsyn h.1, if_neg fun h => hkey h.1, hsent] at hlog
  have hview : (s.step usage ev).view usage f code = s.view usage f code ∨
      (s.step usage ev).view usage f code = (s.view usage f code).act .touch := by
    rw [step_of_msg usage hf hopen]
    exact view_move s ev f code hsyn hkey
  have hquiet : ¬s.Presses usage ev f code := not_presses hkey
  rcases hview with hsame | htouch
  · exact ⟨[], trivial, hsame.symm, hlog.symm, iff_of_true trivial fun h => absurd h hquiet⟩
  · exact ⟨[.touch], ⟨trivial, trivial⟩, htouch.symm, hlog.symm,
      iff_of_true ⟨trivial, trivial⟩ fun h => absurd h hquiet⟩

/-- **One message** makes a few acts of each key and button. -/
lemma exists_explains (hap : HidKbd.Apart usage) (hs : s.Tracks usage) (hw : Accepted ev)
    (hc : Trackable usage f code) : ∃ as, Explains usage s ev f code as := by
  by_cases hall : ev.msg.dev = indevAll ∧ ev.msg.evType = 0
  · exact ⟨_, explains_all hap hs hw hc hall.1 hall.2⟩
  by_cases hf : HidFunc.ofDev ev.msg.dev = some f
  · by_cases hopen : (s.node f).opened = true
    · by_cases hsyn : ev.msg.evType = Evdev.syn
      · exact explains_syn hap hs hw hc hf hopen hsyn
      by_cases hkey : ev.msg.evType = Evdev.key
      · exact explains_key hap hs hw hc hf hopen hkey
      · exact explains_move hw hf hopen hsyn hkey
    · exact ⟨[], explains_other hall (.inr ((Bool.not_eq_true _).mp hopen))⟩
  · exact ⟨[], explains_other hall (.inl hf)⟩

/-! ### What a message keeps -/

lemma releaseAll_kbd (s : HidInput) (ev : HidEvent) : (s.releaseAll ev).kbd = {} := by
  simp only [releaseAll, devFlush_kbd]
  rfl

lemma dispatch_kbd (usage : ℕ → UInt8) (s : HidInput) (ev : HidEvent) :
    (s.dispatch usage ev .keyboard).kbd = s.kbd ∨
    ∃ code v, (s.dispatch usage ev .keyboard).kbd = (s.kbd.key usage code v).1 := by
  unfold dispatch
  dsimp only
  split
  · split
    · exact .inl (devFlush_kbd s ev .keyboard)
    · exact .inl rfl
  split
  · exact .inr ⟨_, _, onKey_kbd s ev _ _⟩
  split
  · exact .inl rfl
  split
  · exact .inl rfl
  · exact .inl rfl

/-- Until it is placed nothing happens to the buttons of the pointer. -/
lemma dispatch_unplaced (hs : s.Tracks usage) (hplaced : s.absPlaced = false) :
    (s.dispatch usage ev .pointer).ptr.buttons = s.ptr.buttons ∧
      (s.dispatch usage ev .pointer).lastBtn .pointer = s.lastBtn .pointer := by
  by_cases hkey : ev.msg.evType = Evdev.key
  · have heq : s.dispatch usage ev .pointer =
        s.onButton ev .pointer ev.msg.evCode ev.msg.evValue := by
      rw [dispatch]
      dsimp only
      rw [if_neg (by rw [hkey]; decide), if_pos hkey, if_neg (by decide)]
    rw [heq]
    obtain ⟨hsame, -⟩ | htaken :=
      keyStep_onButton hs ev (f := .pointer) (by decide) ev.msg.evCode ev.msg.evValue
    · rw [hsame]
      exact ⟨rfl, rfl⟩
    · exact absurd (htaken.placed rfl) (by simp [hplaced])
  · unfold dispatch
    dsimp only
    split
    · split
      · rw [devFlush_unplaced ev hplaced]
        exact ⟨rfl, rfl⟩
      · exact ⟨rfl, rfl⟩
    split
    · split
      · exact ⟨rfl, rfl⟩
      split <;> rename_i hm
      · exact ⟨rfl, rfl⟩
      · exact ⟨relMove_buttons hm, rfl⟩
    split
    · split
      · exact ⟨rfl, rfl⟩
      · split <;> exact ⟨rfl, rfl⟩
    · exact ⟨rfl, rfl⟩

lemma Tracks.step (hap : HidKbd.Apart usage) (hs : s.Tracks usage) (ev : HidEvent) :
    (s.step usage ev).Tracks usage := by
  by_cases hall : ev.msg.dev = indevAll ∧ ev.msg.evType = 0
  · rw [HidInput.step, if_pos hall.1, if_pos hall.2]
    refine ⟨⟨[], ?_⟩, fun h => ?_⟩
    · rw [releaseAll_kbd]
      exact HidKbd.represents_empty usage
    · have hplaced : s.absPlaced = false := (releaseAll_absPlaced s ev).symm.trans h
      have hfinal := ((hs.letGo.devFlush ev .keyboard).devFlush ev .mouse).devFlush ev .pointer
      exact hfinal.unplaced (by simpa [HidInput.letGo] using hplaced)
  · refine ⟨?_, fun h => ?_⟩
    · by_cases hf : HidFunc.ofDev ev.msg.dev ≠ some .keyboard ∨ (s.node .keyboard).opened = false
      · have hkbd : (s.step usage ev).kbd = s.kbd :=
          congrArg HidPart.kbd (part_step usage s hall hf)
        rw [hkbd]
        exact hs.kbd
      · rw [not_or, not_not, Bool.not_eq_false] at hf
        rw [step_of_msg usage hf.1 hf.2]
        obtain hsame | ⟨code, v, hkey⟩ := dispatch_kbd usage s ev
        · rw [hsame]
          exact hs.kbd
        · obtain ⟨held, hheld⟩ := hs.kbd
          rw [hkey]
          exact ⟨_, (hheld.key hap code v).2⟩
    · have hplaced : s.absPlaced = false := by
        by_contra hne
        rw [step_placed ((Bool.not_eq_false _).mp hne) ev] at h
        cases h
      by_cases hf : HidFunc.ofDev ev.msg.dev ≠ some .pointer ∨ (s.node .pointer).opened = false
      · have hpart := part_step (f := .pointer) usage s hall hf
        have hptr : (s.step usage ev).ptr = s.ptr := congrArg HidPart.mouse hpart
        have hlast : (s.step usage ev).lastBtn .pointer = s.lastBtn .pointer :=
          congrArg HidPart.lastBtn hpart
        rw [hptr, hlast]
        exact hs.unplaced hplaced
      · rw [not_or, not_not, Bool.not_eq_false] at hf
        rw [step_of_msg usage hf.1 hf.2]
        obtain ⟨hbuttons, hlast⟩ := dispatch_unplaced hs hplaced
        rw [hbuttons, hlast]
        exact hs.unplaced hplaced

end messages

/-! ## Runs -/

section runs

variable {usage : ℕ → UInt8} {s : HidInput} {f : HidFunc} {code : ℕ}

lemma tracks_start (usage : ℕ → UInt8) (opened : HidFunc → Bool) :
    (start opened).Tracks usage where
  kbd := ⟨[], HidKbd.represents_empty usage⟩
  unplaced _ := ⟨rfl, rfl⟩

/-- The acts of a run. -/
lemma exists_acts (hap : HidKbd.Apart usage) (hs : s.Tracks usage) (hc : Trackable usage f code)
    {es : List HidEvent} (hw : ∀ ev ∈ es, Accepted ev) :
    ∃ as, Along Signal.Ok Signal.act (s.view usage f code) as ∧
      (s.view usage f code).log as = transitions usage f code s es ∧
      (Along Signal.Fresh Signal.act (s.view usage f code) as ↔
        Along (fun s ev => s.Presses usage ev f code →
          shows usage f (s.lastReport f) code = false) (step usage) s es) := by
  induction es generalizing s with
  | nil => exact ⟨[], trivial, rfl, Iff.rfl⟩
  | cons ev es ih =>
      obtain ⟨hev, hes⟩ := List.forall_mem_cons.mp hw
      obtain ⟨as, has⟩ := exists_explains hap hs hev hc
      obtain ⟨bs, hok, hlog, hfresh⟩ := ih (hs.step hap ev) hes
      refine ⟨as ++ bs, ?_, ?_, ?_⟩
      · rw [along_append, has.run]
        exact ⟨has.ok, hok⟩
      · rw [Signal.log_append, has.run, has.log, hlog, transitions]
      · rw [along_append, has.run, has.fresh, hfresh]
        rfl

/-- What is tracked is a key or button that there is. -/
lemma Tracks.trackable (hs : s.Tracks usage) (h : s.tracked f code = true) :
    Trackable usage f code := by
  by_cases hf : f = .keyboard
  · subst hf
    obtain ⟨held, hheld⟩ := hs.kbd
    exact hheld.usable code ((hheld.down code).mp h)
  · rw [tracked_of_ne hf, buttonOn] at h
    rw [trackable_of_ne hf, Option.isSome_iff_ne_none]
    intro hnone
    rw [hnone] at h
    exact nomatch h

lemma edge_not_mem_marks {on : Bool} {ev : HidEvent} (hs : s.Tracks usage)
    (hstep : (s.step usage ev).Tracks usage) (hc : ¬Trackable usage f code) :
    Mark.edge on ∉ s.marks usage ev f code := by
  have hsame : (s.step usage ev).tracked f code = s.tracked f code :=
    ((Bool.not_eq_true _).mp fun h => hc (hstep.trackable h)).trans
      ((Bool.not_eq_true _).mp fun h => hc (hs.trackable h)).symm
  unfold marks
  simp only [hsame]
  split_ifs <;> simp_all

/-- Of what is no key or button nothing is written down. -/
lemma edge_not_mem_transitions {on : Bool} (hap : HidKbd.Apart usage) (hs : s.Tracks usage)
    (hc : ¬Trackable usage f code) (es : List HidEvent) :
    Mark.edge on ∉ transitions usage f code s es := by
  induction es generalizing s with
  | nil => exact List.not_mem_nil
  | cons ev es ih =>
      have hstep := hs.step hap ev
      rw [transitions, List.mem_append, not_or]
      exact ⟨edge_not_mem_marks hs hstep hc, ih hstep⟩

lemma accepts_trackable (h : s.Accepts usage f code) : Trackable usage f code := by
  cases f with
  | keyboard | mouse | pointer => exact h.1

/-- At the start everything is up. -/
lemma view_start (opened : HidFunc → Bool) (hc : Trackable usage f code) :
    (start opened).view usage f code = {} := by
  cases f with
  | keyboard =>
      have hshown : shows usage .keyboard (List.replicate 8 0) code = false := by
        rw [shows]
        split
        · simp
        · simpa using hc.2.1
      exact congrArg (fun b => (⟨false, b, false⟩ : Signal)) hshown
  | mouse | pointer =>
      exact congrArg (fun b => (⟨b, b, false⟩ : Signal)) (buttonOn_zero code)

/-- **Where transitions are lost**: no press or release is lost exactly when every accepted press
comes while the last report does not show the key. -/
theorem transitions_seen_iff (opened : HidFunc → Bool) (es : List HidEvent)
    (hw : ∀ ev ∈ es, Accepted ev) :
    (∀ f code, Mark.Seen (transitions hidUsage f code (start opened) es)) ↔
      Along (FreshPress hidUsage) (step hidUsage) (start opened) es := by
  have hap := HidKbd.hidUsage_apart
  have hstart := tracks_start hidUsage opened
  have hone (f : HidFunc) (code : ℕ) : Mark.Seen (transitions hidUsage f code (start opened) es) ↔
      Along (fun s ev => s.Presses hidUsage ev f code →
        shows hidUsage f (s.lastReport f) code = false) (step hidUsage) (start opened) es := by
    by_cases hc : Trackable hidUsage f code
    · obtain ⟨as, hok, hlog, hfresh⟩ := exists_acts hap hstart hc hw
      rw [view_start opened hc] at hok hlog hfresh
      rw [← hfresh, ← hlog]
      exact Signal.seen_iff_fresh hok
    · refine iff_of_true
        (Mark.seen_of_no_edge fun _ => edge_not_mem_transitions hap hstart hc es) ?_
      exact (along_of_forall (P := fun _ => True) fun _ _ => trivial).mono fun s ev _ hp =>
        absurd (accepts_trackable hp.2.2.2.2.2) hc
  calc (∀ f code, Mark.Seen (transitions hidUsage f code (start opened) es))
      ↔ ∀ f code, Along (fun s ev => s.Presses hidUsage ev f code →
          shows hidUsage f (s.lastReport f) code = false) (step hidUsage) (start opened) es :=
        forall₂_congr hone
    _ ↔ ∀ f, Along (fun s ev => ∀ code, s.Presses hidUsage ev f code →
          shows hidUsage f (s.lastReport f) code = false) (step hidUsage) (start opened) es :=
        forall_congr' fun _ => along_forall.symm
    _ ↔ Along (FreshPress hidUsage) (step hidUsage) (start opened) es := along_forall.symm

/-- The key `A`, pressed in one frame and let go in the next. -/
theorem transitions_seen_typed :
    let key (v : ℤ) : HidEvent := { msg := ⟨indevKeyboard, Evdev.key, 30, v⟩ }
    let syn : HidEvent := { msg := ⟨indevKeyboard, Evdev.syn, Evdev.synReport, 0⟩ }
    ∀ f code,
      Mark.Seen (transitions hidUsage f code (start fun _ => true) [key 1, syn, key 0, syn]) := by
  intro key syn
  have hacc : ∀ ev ∈ [key 1, syn, key 0, syn], Accepted ev := by
    intro ev hev f i
    simp only [List.mem_cons, List.not_mem_nil, or_false] at hev
    rcases hev with rfl | rfl | rfl | rfl <;> rfl
  refine (transitions_seen_iff (fun _ => true) _ hacc).mpr
    ⟨fun f code hp => ?_, fun f code hp => ?_, fun f code hp => ?_, fun f code hp => ?_, trivial⟩
  · obtain rfl : HidFunc.keyboard = f := Option.some_inj.mp hp.1
    obtain rfl : 30 = code := hp.2.2.2.1
    decide +kernel
  · exact absurd hp.2.2.1 (by decide)
  · exact absurd hp.2.2.2.2.1 (by decide)
  · exact absurd hp.2.2.1 (by decide)

/-- Pressed, let go and pressed again in one frame: that it was let go is never reported. -/
theorem exists_transition_lost :
    ∃ es : List HidEvent, (∀ ev ∈ es, Accepted ev) ∧
      ¬∀ f code, Mark.Seen (transitions hidUsage f code (start fun _ => true) es) := by
  let key (v : ℤ) : HidEvent := { msg := ⟨indevKeyboard, Evdev.key, 30, v⟩ }
  let syn : HidEvent := { msg := ⟨indevKeyboard, Evdev.syn, Evdev.synReport, 0⟩ }
  refine ⟨[key 1, key 0, key 1, syn], fun ev hev f i => ?_, fun h => ?_⟩
  · simp only [List.mem_cons, List.not_mem_nil, or_false] at hev
    rcases hev with rfl | rfl | rfl | rfl <;> rfl
  · have hlog : transitions hidUsage .keyboard 30 (start fun _ => true) [key 1, key 0, key 1, syn] =
        [.edge true, .shown true] ++ .edge false :: [.edge true, .shown true, .sync] := by
      decide +kernel
    have hshown := h .keyboard 30 _ _ _ hlog [] _ _ rfl trivial List.not_mem_nil
    exact absurd hshown List.not_mem_nil

end runs

end HidInput

end Sremfb
