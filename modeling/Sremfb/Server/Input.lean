import Mathlib.Logic.Function.Basic
import Mathlib.Data.Int.Notation
import Mathlib.Data.List.Basic
import Sremfb.Lib.Rect

/-!
# Input injection (`input.c`)

A client that was granted input gets four uinput devices.  `sremfb_input_msg` replays one evdev
event of the client on one of them, and keeps for each device the set of keys that are down: a
press of a key that is down and a release of one that is not are both dropped, and a message to
`SREMFB_INDEV_ALL` releases everything.

What the desktop sees is what was written to the device (`Indev.out`); a key is pressed when the
last event written for it was a press.  `Indev.Ok` says that the bookkeeping is right: the keys
marked down are the pressed ones, and only declared keys of an existing device.

Placing the absolute pointer needs the compositor's layout and floating point; whether and where
a position lands is a parameter (`place`) of every message.
-/

namespace Sremfb

open Lib

/-! ## Codes of `linux/input-event-codes.h` -/

namespace Evdev

/-- `EV_SYN` and the other event types. -/
def syn : ℕ := 0
@[inherit_doc syn] def key : ℕ := 1
@[inherit_doc syn] def rel : ℕ := 2
@[inherit_doc syn] def abs : ℕ := 3

/-- `KEY_CNT`. -/
def keyCnt : ℕ := 0x300

/-- `ABS_CNT`. -/
def absCnt : ℕ := 0x40

/-- `BTN_MISC`, the first code that is no key of a keyboard. -/
def btnMisc : ℕ := 0x100

/-- `BTN_LEFT` and the other mouse buttons. -/
def btnLeft : ℕ := 0x110
@[inherit_doc btnLeft] def btnRight : ℕ := 0x111
@[inherit_doc btnLeft] def btnMiddle : ℕ := 0x112
@[inherit_doc btnLeft] def btnSide : ℕ := 0x113
@[inherit_doc btnLeft] def btnExtra : ℕ := 0x114

/-- The buttons of the gamepad: `BTN_A`, `BTN_B`, `BTN_X`, `BTN_Y`, `BTN_TL`, `BTN_TR`,
`BTN_SELECT`, `BTN_START`, `BTN_MODE`, `BTN_THUMBL`, `BTN_THUMBR`. -/
def padButtons : List ℕ :=
  [0x130, 0x131, 0x133, 0x134, 0x136, 0x137, 0x13a, 0x13b, 0x13c, 0x13d, 0x13e]

def relX : ℕ := 0
def relY : ℕ := 1
def relHwheel : ℕ := 6
def relWheel : ℕ := 8
def relWheelHiRes : ℕ := 11
def relHwheelHiRes : ℕ := 12

def absX : ℕ := 0
def absY : ℕ := 1
def absZ : ℕ := 2
def absRx : ℕ := 3
def absRy : ℕ := 4
def absRz : ℕ := 5
def absHat0x : ℕ := 16
def absHat0y : ℕ := 17

end Evdev

/-- `SREMFB_INDEV_ALL` and the devices. -/
def indevAll : ℕ := 0
@[inherit_doc indevAll] def indevKeyboard : ℕ := 1
@[inherit_doc indevAll] def indevMouse : ℕ := 2
@[inherit_doc indevAll] def indevPointer : ℕ := 3
@[inherit_doc indevAll] def indevGamepad : ℕ := 4

/-- `struct sremfb_input_msg` without the fields that frame it. -/
structure InputMsg where
  dev : ℕ
  evType : ℕ
  evCode : ℕ
  evValue : ℤ
  deriving DecidableEq, Repr

/-- `struct input_event`, as written to a device. -/
structure UiEvent where
  type : ℕ
  code : ℕ
  value : ℤ
  deriving DecidableEq, Repr

/-! ## Devices -/

/-- `SremfbIndev`.  `out` is what was written to the device. -/
structure Indev where
  /-- `fd >= 0`. -/
  fd : Bool := false
  keys : ℕ → Bool := fun _ => false
  down : ℕ → Bool := fun _ => false
  rels : ℕ → Bool := fun _ => false
  abss : ℕ → Bool := fun _ => false
  absMin : ℕ → ℤ := fun _ => 0
  absMax : ℕ → ℤ := fun _ => 0
  dirty : Bool := false
  out : List UiEvent := []

namespace Indev

/-- `ui_emit`. -/
def uiEmit (d : Indev) (e : UiEvent) : Indev :=
  { d with out := d.out ++ [e], dirty := decide (e.type ≠ Evdev.syn) }

/-- `bit_put` on `down`. -/
def put (d : Indev) (k : ℕ) (on : Bool) : Indev := { d with down := Function.update d.down k on }

/-- The first loop of `indev_release`, with `any`. -/
def releaseKey (a : Indev × Bool) (k : ℕ) : Indev × Bool :=
  if a.1.down k then ((a.1.uiEmit ⟨Evdev.key, k, 0⟩).put k false, true) else a

/-- The second loop of `indev_release`: sticks and hat to the centre, triggers released. -/
def recentre (a : Indev × Bool) (x : ℕ) : Indev × Bool :=
  if a.1.abss x = true ∧ (a.1.absMin x < 0 ∨ x = Evdev.absZ ∨ x = Evdev.absRz) then
    (a.1.uiEmit ⟨Evdev.abs, x, 0⟩, true)
  else a

/-- `indev_release`. -/
def release (d : Indev) : Indev :=
  if d.fd then
    let a := (List.range Evdev.keyCnt).foldl releaseKey (d, false)
    let a := (List.range Evdev.absCnt).foldl recentre a
    if a.2 || a.1.dirty then a.1.uiEmit ⟨Evdev.syn, 0, 0⟩ else a.1
  else d

/-- The key is pressed: the last event written for it is a press. -/
def pressed (d : Indev) (k : ℕ) : Bool :=
  d.out.foldl (fun b e => if e.type = Evdev.key ∧ e.code = k then decide (e.value ≠ 0) else b) false

/-- The bookkeeping of a device is right. -/
structure Ok (d : Indev) : Prop where
  tracks : ∀ k, d.pressed k = d.down k
  declared : ∀ k, d.down k = true → d.fd = true ∧ d.keys k = true ∧ k < Evdev.keyCnt

/-- Nothing is down. -/
def Free (d : Indev) : Prop := ∀ k, d.down k = false

end Indev

/-- `SremfbInput`. -/
structure Input where
  dev : ℕ → Indev
  geoWarned : Bool := false
  absPlaced : Bool := false
  nEvents : ℕ := 0

/-! ## The devices of a client -/

/-- What `ui_buttons` declares. -/
def mouseButtons (k : ℕ) : Bool :=
  [Evdev.btnLeft, Evdev.btnRight, Evdev.btnMiddle, Evdev.btnSide, Evdev.btnExtra].contains k

/-- The wheels of `ui_buttons`. -/
def wheels (r : ℕ) : Bool :=
  [Evdev.relWheel, Evdev.relHwheel, Evdev.relWheelHiRes, Evdev.relHwheelHiRes].contains r

/-- `ABS_POINTER_MAX`. -/
def absPointerMax : ℤ := 32767

/-- The axes of the gamepad with their ranges. -/
def padAxes : List (ℕ × ℤ × ℤ) :=
  [(Evdev.absX, -32768, 32767), (Evdev.absY, -32768, 32767), (Evdev.absRx, -32768, 32767),
    (Evdev.absRy, -32768, 32767), (Evdev.absZ, 0, 255), (Evdev.absRz, 0, 255),
    (Evdev.absHat0x, -1, 1), (Evdev.absHat0y, -1, 1)]

/-- What `sremfb_input_start` declares for each device. -/
def indevOf (fd : Bool) : ℕ → Indev
  | 1 => { fd := fd, keys := fun k => decide (1 ≤ k) && decide (k < Evdev.btnMisc) }
  | 2 => {
      fd := fd
      keys := mouseButtons
      rels := fun r => wheels r || r == Evdev.relX || r == Evdev.relY }
  | 3 => {
      fd := fd
      keys := mouseButtons
      rels := wheels
      abss := fun x => x == Evdev.absX || x == Evdev.absY
      absMax := fun _ => absPointerMax }
  | 4 => {
      fd := fd
      keys := fun k => Evdev.padButtons.contains k
      abss := fun x => (padAxes.lookup x).isSome
      absMin := fun x => ((padAxes.lookup x).getD (0, 0)).1
      absMax := fun x => ((padAxes.lookup x).getD (0, 0)).2 }
  | _ => {}

/-- `sremfb_input_start` of a client that may have input; `opened` tells which devices uinput
creates.  Without any of them input is not offered. -/
def inputStart (opened : ℕ → Bool) : Option Input :=
  if opened indevKeyboard || opened indevMouse || opened indevPointer || opened indevGamepad then
    some { dev := fun i => indevOf (opened i) i }
  else none

/-! ## Messages -/

namespace Input

/-- `input_release_all`. -/
def releaseAll (s : Input) : Input :=
  { s with dev := fun i => if 1 ≤ i ∧ i ≤ indevGamepad then (s.dev i).release else s.dev i }

/-- The end of `sremfb_input_msg`: the event goes to the device, which is now `d`. -/
def emit (s : Input) (i : ℕ) (d : Indev) (e : UiEvent) : Input :=
  { s with dev := Function.update s.dev i (d.uiEmit e), nEvents := s.nEvents + 1 }

/-- `sremfb_input_msg`; `place` is `layout_map` at that moment. -/
def msg (place : ℕ → ℤ → Option ℤ) (s : Input) (m : InputMsg) : Input :=
  if m.dev = indevAll then (if m.evType = 0 then s.releaseAll else s)
  else if indevGamepad < m.dev then s
  else
    let d := s.dev m.dev
    if d.fd = false then s
    else if m.evType = Evdev.syn then
      if m.evCode ≠ 0 then s else s.emit m.dev d ⟨m.evType, m.evCode, m.evValue⟩
    else if m.evType = Evdev.key then
      if Evdev.keyCnt ≤ m.evCode ∨ d.keys m.evCode = false ∨ (m.evValue ≠ 0 ∧ m.evValue ≠ 1) then s
      -- a click before the pointer was placed would land on another monitor
      else if m.dev = indevPointer ∧ m.evValue = 1 ∧ s.absPlaced = false then s
      else if decide (m.evValue = 1) = d.down m.evCode then s
      else s.emit m.dev (d.put m.evCode (decide (m.evValue = 1))) ⟨m.evType, m.evCode, m.evValue⟩
    else if m.evType = Evdev.rel then
      if 32 ≤ m.evCode ∨ d.rels m.evCode = false then s
      else s.emit m.dev d ⟨m.evType, m.evCode, m.evValue⟩
    else if m.evType = Evdev.abs then
      if Evdev.absCnt ≤ m.evCode ∨ d.abss m.evCode = false then s
      else if m.dev = indevPointer then
        match place m.evCode m.evValue with
        | none => { s with geoWarned := true }
        | some v => Input.emit { s with absPlaced := true } m.dev d ⟨m.evType, m.evCode, v⟩
      else s.emit m.dev d
        ⟨m.evType, m.evCode, clamp m.evValue (d.absMin m.evCode) (d.absMax m.evCode)⟩
    else s

end Input

/-! ## The bookkeeping is kept -/

namespace Indev

variable {d : Indev}

lemma pressed_uiEmit (d : Indev) (e : UiEvent) (k : ℕ) : (d.uiEmit e).pressed k =
    if e.type = Evdev.key ∧ e.code = k then decide (e.value ≠ 0) else d.pressed k := by
  simp only [pressed, uiEmit, List.foldl_append, List.foldl_cons, List.foldl_nil]

lemma Ok.other (h : d.Ok) {e : UiEvent} (he : e.type ≠ Evdev.key) : (d.uiEmit e).Ok := by
  refine ⟨fun k => ?_, h.declared⟩
  rw [pressed_uiEmit, if_neg fun hk => he hk.1]
  exact h.tracks k

/-- A key event is written and its bit set. -/
lemma Ok.key (h : d.Ok) {k : ℕ} {on : Bool} {v : ℤ} (hv : decide (v ≠ 0) = on)
    (hk : on = true → d.fd = true ∧ d.keys k = true ∧ k < Evdev.keyCnt) :
    ((d.put k on).uiEmit ⟨Evdev.key, k, v⟩).Ok := by
  have hdown : ∀ j, ((d.put k on).uiEmit ⟨Evdev.key, k, v⟩).down j =
      Function.update d.down k on j := fun _ => rfl
  constructor
  · intro j
    rw [pressed_uiEmit, hdown]
    by_cases hj : j = k
    · rw [hj, Function.update_self, if_pos ⟨rfl, rfl⟩]
      exact hv
    · rw [Function.update_of_ne hj, if_neg fun h => hj h.2.symm]
      exact h.tracks j
  · intro j hj
    rw [hdown] at hj
    by_cases hjk : j = k
    · rw [hjk, Function.update_self] at hj
      rw [hjk]
      exact hk hj
    · rw [Function.update_of_ne hjk] at hj
      exact h.declared j hj

/-- The loop over the keys leaves those of the list up, and the others as they were. -/
lemma foldl_releaseKey (ks : List ℕ) {a : Indev × Bool} (h : a.1.Ok) :
    (ks.foldl releaseKey a).1.Ok ∧ ∀ k, (ks.foldl releaseKey a).1.down k = true →
      a.1.down k = true ∧ k ∉ ks := by
  induction ks generalizing a with
  | nil => exact ⟨h, fun k hk => ⟨hk, by simp⟩⟩
  | cons j ks ih =>
      rw [List.foldl_cons]
      by_cases hj : a.1.down j = true
      · have hok : ((a.1.uiEmit ⟨Evdev.key, j, 0⟩).put j false).Ok :=
          h.key (v := 0) (by simp) fun h => Bool.noConfusion h
        rw [releaseKey, if_pos hj]
        obtain ⟨hok', hdown⟩ := ih (a := (_, true)) hok
        refine ⟨hok', fun k hk => ?_⟩
        obtain ⟨hk', hks⟩ := hdown k hk
        have hkj : k ≠ j := by
          rintro rfl
          simp at hk'
        refine ⟨?_, by simp [hkj, hks]⟩
        simpa [put, uiEmit, hkj] using hk'
      · rw [releaseKey, if_neg hj]
        obtain ⟨hok', hdown⟩ := ih h
        refine ⟨hok', fun k hk => ?_⟩
        obtain ⟨hk', hks⟩ := hdown k hk
        have hkj : k ≠ j := by
          rintro rfl
          exact hj hk'
        exact ⟨hk', by simp [hkj, hks]⟩

lemma foldl_recentre (xs : List ℕ) {a : Indev × Bool} (h : a.1.Ok) :
    (xs.foldl recentre a).1.Ok ∧ (xs.foldl recentre a).1.down = a.1.down := by
  induction xs generalizing a with
  | nil => exact ⟨h, rfl⟩
  | cons x xs ih =>
      rw [List.foldl_cons]
      by_cases hx : a.1.abss x = true ∧ (a.1.absMin x < 0 ∨ x = Evdev.absZ ∨ x = Evdev.absRz)
      · rw [recentre, if_pos hx]
        exact ih (a := (_, true)) (h.other (by decide : Evdev.abs ≠ Evdev.key))
      · rw [recentre, if_neg hx]
        exact ih h

/-- **A release leaves nothing down.** -/
lemma release_free (h : d.Ok) : d.release.Ok ∧ d.release.Free := by
  unfold release
  by_cases hfd : d.fd = true
  · rw [if_pos hfd]
    obtain ⟨hok₁, hdown₁⟩ := foldl_releaseKey (List.range Evdev.keyCnt) (a := (d, false)) h
    generalize (List.range Evdev.keyCnt).foldl releaseKey (d, false) = a₁ at hok₁ hdown₁
    obtain ⟨hok₂, hdown₂⟩ := foldl_recentre (List.range Evdev.absCnt) hok₁
    dsimp only
    generalize (List.range Evdev.absCnt).foldl recentre a₁ = a₂ at hok₂ hdown₂
    have hfree : a₂.1.Free := by
      intro k
      by_contra hk
      rw [hdown₂, Bool.not_eq_false] at hk
      obtain ⟨hk', hrange⟩ := hdown₁ k hk
      exact hrange (List.mem_range.mpr (h.declared k hk').2.2)
    split
    · exact ⟨hok₂.other (by decide : Evdev.syn ≠ Evdev.key), hfree⟩
    · exact ⟨hok₂, hfree⟩
  · rw [if_neg hfd]
    refine ⟨h, fun k => ?_⟩
    by_contra hk
    exact hfd (h.declared k (by simpa using hk)).1

end Indev

/-! ## What a message does to a device -/

/-- What a message can do to device `i`: nothing, a release of everything, a change of one key,
or an event that is no key. -/
inductive Indev.Moves (i : ℕ) (m : InputMsg) (d : Indev) : Indev → Prop
  | same : Moves i m d d
  | release (hm : m.dev = indevAll) : Moves i m d d.release
  | key (on : Bool) (hm : m = ⟨i, Evdev.key, m.evCode, if on then 1 else 0⟩) (hfd : d.fd = true)
      (hk : d.keys m.evCode = true) (hc : m.evCode < Evdev.keyCnt) :
      Moves i m d ((d.put m.evCode on).uiEmit ⟨Evdev.key, m.evCode, if on then 1 else 0⟩)
  | other (e : UiEvent) (he : e.type ≠ Evdev.key) : Moves i m d (d.uiEmit e)

namespace Input

variable {place : ℕ → ℤ → Option ℤ} {s : Input}

@[simp] lemma emit_dev_self (s : Input) (i : ℕ) (d : Indev) (e : UiEvent) :
    (s.emit i d e).dev i = d.uiEmit e := Function.update_self ..

lemma emit_dev_of_ne (s : Input) {i j : ℕ} (hj : j ≠ i) (d : Indev) (e : UiEvent) :
    (s.emit i d e).dev j = s.dev j := Function.update_of_ne hj ..

/-- What a message comes to: nothing, a release of everything, or one event of its own device. -/
inductive Came (place : ℕ → ℤ → Option ℤ) (s : Input) (m : InputMsg) : (ℕ → Indev) → Prop
  | nothing : Came place s m s.dev
  | release (hm : m.dev = indevAll) : Came place s m s.releaseAll.dev
  | key (on : Bool) (hm : m = ⟨m.dev, Evdev.key, m.evCode, if on then 1 else 0⟩)
      (hfd : (s.dev m.dev).fd = true)
      (hk : (s.dev m.dev).keys m.evCode = true ∧ m.evCode < Evdev.keyCnt)
      (hne : (s.dev m.dev).down m.evCode ≠ on) :
      Came place s m (s.emit m.dev ((s.dev m.dev).put m.evCode on)
        ⟨Evdev.key, m.evCode, if on then 1 else 0⟩).dev
  | other (v : ℤ) (hfd : (s.dev m.dev).fd = true) (hkey : m.evType ≠ Evdev.key)
      (hsyn : m.evType = Evdev.syn → m.evCode = 0)
      (habs : m.evType = Evdev.abs → (s.dev m.dev).abss m.evCode = true ∧
        (m.dev = indevPointer ∧ place m.evCode m.evValue = some v ∨
          v = clamp m.evValue ((s.dev m.dev).absMin m.evCode) ((s.dev m.dev).absMax m.evCode))) :
      Came place s m (s.emit m.dev (s.dev m.dev) ⟨m.evType, m.evCode, v⟩).dev

lemma msg_came (place : ℕ → ℤ → Option ℤ) (s : Input) (m : InputMsg) :
    Came place s m (s.msg place m).dev := by
  unfold msg
  by_cases hall : m.dev = indevAll
  · rw [if_pos hall]
    split
    · exact .release hall
    · exact .nothing
  rw [if_neg hall]
  by_cases hbig : indevGamepad < m.dev
  · rw [if_pos hbig]
    exact .nothing
  rw [if_neg hbig]
  dsimp only
  by_cases hfd : (s.dev m.dev).fd = false
  · rw [if_pos hfd]
    exact .nothing
  rw [if_neg hfd]
  rw [Bool.not_eq_false] at hfd
  by_cases hsyn : m.evType = Evdev.syn
  · rw [if_pos hsyn]
    split <;> rename_i hcode
    · exact .nothing
    · exact .other _ hfd (ne_of_eq_of_ne hsyn (by decide)) (fun _ => not_not.mp hcode)
        fun h => absurd (hsyn.symm.trans h) (by decide)
  rw [if_neg hsyn]
  by_cases hkey : m.evType = Evdev.key
  · rw [if_pos hkey]
    split <;> rename_i hbad
    · exact .nothing
    split
    · exact .nothing
    split <;> rename_i hsame
    · exact .nothing
    · rw [not_or, not_or, not_and_or, not_not, not_not] at hbad
      obtain ⟨hcnt, hdecl, hval⟩ := hbad
      have hv : m.evValue = if decide (m.evValue = 1) = true then 1 else 0 := by
        rcases hval with h | h <;> simp [h]
      have hm : m = ⟨m.dev, Evdev.key, m.evCode, if decide (m.evValue = 1) = true then 1 else 0⟩ := by
        rw [← hv, ← hkey]
      have hkey' : Came place s m _ :=
        .key _ hm hfd ⟨by simpa using hdecl, not_le.mp hcnt⟩ (Ne.symm hsame)
      rwa [← hv, ← hkey] at hkey'
  rw [if_neg hkey]
  by_cases hrel : m.evType = Evdev.rel
  · rw [if_pos hrel]
    split
    · exact .nothing
    · exact .other _ hfd hkey (fun h => absurd h hsyn)
        fun h => absurd (hrel.symm.trans h) (by decide)
  rw [if_neg hrel]
  by_cases habs : m.evType = Evdev.abs
  · rw [if_pos habs]
    split <;> rename_i hbad
    · exact .nothing
    rw [not_or] at hbad
    have hdecl : (s.dev m.dev).abss m.evCode = true := by simpa using hbad.2
    split <;> rename_i hpointer
    · split <;> rename_i hplaced
      · exact .nothing
      · exact .other _ hfd hkey (fun h => absurd h hsyn)
          fun _ => ⟨hdecl, .inl ⟨hpointer, hplaced⟩⟩
    · exact .other _ hfd hkey (fun h => absurd h hsyn) fun _ => ⟨hdecl, .inr rfl⟩
  · rw [if_neg habs]
    exact .nothing

lemma msg_moves (place : ℕ → ℤ → Option ℤ) (s : Input) (m : InputMsg) (i : ℕ) :
    Indev.Moves i m (s.dev i) ((s.msg place m).dev i) := by
  have h := msg_came place s m
  generalize (s.msg place m).dev = devs at h
  cases h with
  | nothing => exact .same
  | release hall =>
      rw [releaseAll]
      dsimp only
      split
      · exact .release hall
      · exact .same
  | key on hm hfd hk hne =>
      by_cases hi : i = m.dev
      · subst hi
        rw [emit_dev_self]
        exact .key on hm hfd hk.1 hk.2
      · rw [emit_dev_of_ne s hi]
        exact .same
  | other v hfd hkey hsyn habs =>
      by_cases hi : i = m.dev
      · subst hi
        rw [emit_dev_self]
        exact .other _ hkey
      · rw [emit_dev_of_ne s hi]
        exact .same

/-- The bookkeeping of every device is right. -/
def Ok (s : Input) : Prop := ∀ i, (s.dev i).Ok

lemma Ok.msg (hs : s.Ok) (place : ℕ → ℤ → Option ℤ) (m : InputMsg) : (s.msg place m).Ok := by
  intro i
  have h := msg_moves place s m i
  generalize (s.msg place m).dev i = d' at h
  cases h with
  | same => exact hs i
  | release => exact (Indev.release_free (hs i)).1
  | key on hm hfd hk hc => exact (hs i).key (by cases on <;> simp) fun _ => ⟨hfd, hk, hc⟩
  | other e he => exact (hs i).other he

/-- A key goes down only by its own press. -/
lemma down_of_msg (hs : s.Ok) {m : InputMsg} {i k : ℕ}
    (hk : ((s.msg place m).dev i).down k = true) :
    (s.dev i).down k = true ∨ m = ⟨i, Evdev.key, k, 1⟩ := by
  have h := msg_moves place s m i
  generalize (s.msg place m).dev i = d' at h hk
  cases h with
  | same => exact .inl hk
  | release =>
      rw [(Indev.release_free (hs i)).2 k] at hk
      cases hk
  | other e he => exact .inl hk
  | key on hm hfd hkeys hc =>
      by_cases hkc : k = m.evCode
      · cases on with
        | true =>
            rw [hkc]
            exact .inr hm
        | false => simp [Indev.uiEmit, Indev.put, hkc] at hk
      · left
        simpa [Indev.uiEmit, Indev.put, hkc] using hk

/-- A release that arrives leaves its key up. -/
lemma up_of_release (hs : s.Ok) {i : ℕ} (hi : 1 ≤ i ∧ i ≤ indevGamepad) (k : ℕ) :
    ((s.msg place ⟨i, Evdev.key, k, 0⟩).dev i).down k = false := by
  by_contra hk
  rw [Bool.not_eq_false] at hk
  have hdown : (s.dev i).down k = true := by
    rcases down_of_msg hs hk with h | h
    · exact h
    · simp at h
  obtain ⟨hfd, hkeys, hcnt⟩ := (hs i).declared k hdown
  have hmsg : s.msg place ⟨i, Evdev.key, k, 0⟩ =
      s.emit i ((s.dev i).put k false) ⟨Evdev.key, k, 0⟩ := by
    unfold msg
    dsimp only
    rw [if_neg (by rw [indevAll]; omega), if_neg (by omega), if_neg (by simp [hfd]),
      if_neg (by decide), if_pos rfl, if_neg (by simp [hkeys, hcnt]), if_neg (by simp),
      if_neg (by simp [hdown])]
    simp
  rw [hmsg, emit_dev_self] at hk
  simp [Indev.uiEmit, Indev.put] at hk

/-- The release of everything leaves nothing down. -/
lemma free_of_releaseAll (hs : s.Ok) {i : ℕ} (hi : 1 ≤ i ∧ i ≤ indevGamepad) :
    ((s.msg place ⟨indevAll, 0, 0, 0⟩).dev i).Free := by
  have hmsg : s.msg place ⟨indevAll, 0, 0, 0⟩ = s.releaseAll := rfl
  rw [hmsg, releaseAll]
  dsimp only
  rw [if_pos hi]
  exact (Indev.release_free (hs i)).2

/-! ## Messages in order -/

/-- The messages are delivered one after the other. -/
def msgs (place : ℕ → ℤ → Option ℤ) (s : Input) (ms : List InputMsg) : Input :=
  ms.foldl (Input.msg place) s

@[simp] lemma msgs_append (s : Input) (ms ms' : List InputMsg) :
    s.msgs place (ms ++ ms') = (s.msgs place ms).msgs place ms' := List.foldl_append

lemma Ok.msgs (hs : s.Ok) (place : ℕ → ℤ → Option ℤ) (ms : List InputMsg) :
    (s.msgs place ms).Ok := by
  induction ms generalizing s with
  | nil => exact hs
  | cons m ms ih => exact ih (hs.msg place m)

/-- A key that is down after some messages was down before or was pressed by one of them. -/
lemma down_of_msgs (hs : s.Ok) {ms : List InputMsg} {i k : ℕ}
    (hk : ((s.msgs place ms).dev i).down k = true) :
    (s.dev i).down k = true ∨ ⟨i, Evdev.key, k, 1⟩ ∈ ms := by
  induction ms generalizing s with
  | nil => exact .inl hk
  | cons m ms ih =>
      rcases ih (hs.msg place m) hk with h | h
      · rcases down_of_msg hs h with h | rfl
        · exact .inl h
        · exact .inr (List.mem_cons_self ..)
      · exact .inr (List.mem_cons_of_mem _ h)

end Input

end Sremfb
