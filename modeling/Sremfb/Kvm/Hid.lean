import Mathlib.Data.List.Basic
import Mathlib.Tactic.Cases
import Sremfb.Lib.Run
import Sremfb.Server.Input

/-!
# Input to the target (`input_hid.c`)

With the KVM backend the target is another computer, and the events of the client become HID
reports on three functions of the USB gadget.  The writes do not block: a target that sleeps or
reboots does not read, and the report is lost (`HidWrite.dropped`).  `HidNode.got` is the last
report that did arrive.

A function is dirty while there is something to say about it; a flush sends the state and takes
the mark away, whether the report arrived or not.  `HidInput.Mirrors` is what the mark should mean:
of a function that is not dirty the target holds what the client holds.

Two things are parameters: the table `sremfb_hid_usage`, which is generated, and where
`sremfb_kvm_abs_map` places the pointer, which is floating point.  The counters and marks that only
serve messages (`stalled`, `warned`, `n_events`) are left out.
-/

namespace Sremfb

open Lib

/-- `SYN_REPORT`. -/
def Evdev.synReport : ℕ := 0

/-! ## Encoding -/

/-- `SREMFB_HID_KBD_USAGE_MAX`. -/
def hidKbdUsageMax : UInt8 := 0x65

/-- `struct sremfb_hid_kbd`. -/
structure HidKbd where
  down : ℕ → Bool := fun _ => false
  mods : UInt8 := 0
  keys : Vector UInt8 6 := Vector.replicate 6 0

/-- What `sremfb_hid_kbd_key` answers. -/
inductive HidKey
  | same
  | changed
  | noUsage
  | rollover
  deriving DecidableEq

namespace HidKbd

/-- `sremfb_hid_kbd_held`. -/
def held (k : HidKbd) (code : ℕ) : Bool := decide (code < Evdev.keyCnt) && k.down code

/-- The bit of a modifier, whose usages start at `0xE0`. -/
def modBit (u : UInt8) : UInt8 := 1 <<< (u - 0xE0)

/-- A key that is let go leaves its slot, and those behind it move up. -/
def leave (keys : Vector UInt8 6) (u : UInt8) : Vector UInt8 6 :=
  match keys.findFinIdx? (· == u) with
  | none => keys
  | some i => Vector.ofFn fun j =>
      if j < i then keys[j] else if h : j.val + 1 < 6 then keys[j.val + 1] else 0

/-- The key has a usage that the descriptor of the keyboard declares. -/
def Usable (usage : ℕ → UInt8) (code : ℕ) : Prop :=
  code < Evdev.keyCnt ∧ usage code ≠ 0 ∧
    (usage code ≤ hidKbdUsageMax ∨ (0xE0 ≤ usage code ∧ usage code ≤ 0xE7))

instance (usage : ℕ → UInt8) (code : ℕ) : Decidable (Usable usage code) :=
  inferInstanceAs (Decidable (_ ∧ _ ∧ _))

/-- `sremfb_hid_kbd_key`. -/
def key (usage : ℕ → UInt8) (k : HidKbd) (code : ℕ) (value : ℤ) : HidKbd × HidKey :=
  if ¬ Usable usage code then (k, .noUsage)
  else if value ≠ 0 ∧ value ≠ 1 then (k, .same)
  else if decide (value = 1) = k.down code then (k, .same)
  else
    let u := usage code
    let k' := { k with down := Function.update k.down code (decide (value = 1)) }
    if 0xE0 ≤ u then
      let mods := if value = 1 then k.mods ||| modBit u else k.mods &&& ~~~ modBit u
      ({ k' with mods := mods }, .changed)
    else if value = 1 then
      match k.keys.findFinIdx? (· == 0) with
      | none => (k, .rollover)
      | some i => ({ k' with keys := k.keys.set i u }, .changed)
    else ({ k' with keys := leave k.keys u }, .changed)

/-- `sremfb_hid_kbd_report`. -/
def report (k : HidKbd) : List UInt8 := k.mods :: 0 :: k.keys.toList

end HidKbd

/-- `sremfb_hid_button_bit`. -/
def hidButtonBit (code : ℕ) : Option ℕ :=
  if code = Evdev.btnLeft then some 0
  else if code = Evdev.btnRight then some 1
  else if code = Evdev.btnMiddle then some 2
  else if code = Evdev.btnSide then some 3
  else if code = Evdev.btnExtra then some 4
  else none

/-- `struct sremfb_hid_mouse`. -/
structure HidMouse where
  buttons : UInt8 := 0
  dx : ℤ := 0
  dy : ℤ := 0
  wheel : ℤ := 0
  hwheel : ℤ := 0

/-- `take127`: the value taken, and what is left. -/
def take127 (acc : ℤ) : ℤ × ℤ :=
  let v := max (-127) (min 127 acc)
  (v, acc - v)

/-- `HID_ABS_MAX`. -/
def hidAbsMax : ℤ := 32767

namespace HidMouse

/-- `sremfb_hid_mouse_report`: the report, what is left, and whether there is more to say. -/
def mouseReport (m : HidMouse) : List UInt8 × HidMouse × Bool :=
  let x := take127 m.dx
  let y := take127 m.dy
  let wh := take127 m.wheel
  let hw := take127 m.hwheel
  ([m.buttons, UInt8.ofInt x.1, UInt8.ofInt y.1, UInt8.ofInt wh.1, UInt8.ofInt hw.1],
    { m with dx := x.2, dy := y.2, wheel := wh.2, hwheel := hw.2 },
    decide (x.2 ≠ 0 ∨ y.2 ≠ 0 ∨ wh.2 ≠ 0 ∨ hw.2 ≠ 0))

/-- `sremfb_hid_pointer_report`. -/
def pointerReport (place : ℤ × ℤ) (m : HidMouse) : List UInt8 × HidMouse × Bool :=
  let hx := max 0 (min hidAbsMax place.1)
  let hy := max 0 (min hidAbsMax place.2)
  let wh := take127 m.wheel
  let hw := take127 m.hwheel
  ([m.buttons, UInt8.ofInt (hx % 256), UInt8.ofInt (hx / 256), UInt8.ofInt (hy % 256),
      UInt8.ofInt (hy / 256), UInt8.ofInt wh.1, UInt8.ofInt hw.1],
    { m with dx := 0, dy := 0, wheel := wh.2, hwheel := hw.2 },
    decide (wh.2 ≠ 0 ∨ hw.2 ≠ 0))

/-- The reports that the loop of `mouse_flush` and of `ptr_flush` sends, at most `n`. -/
def burst (report : HidMouse → List UInt8 × HidMouse × Bool) : ℕ → HidMouse → List (List UInt8)
  | 0, _ => []
  | n + 1, m =>
      let r := report m
      r.1 :: if r.2.2 then burst report n r.2.1 else []

/-- What a flush leaves of the device: the buttons. -/
def settled (m : HidMouse) : HidMouse := { buttons := m.buttons }

end HidMouse

/-- `HID_MAX_SPLIT`. -/
def hidMaxSplit : ℕ := 32

/-! ## Nodes of the gadget -/

/-- The functions of the gadget. -/
inductive HidFunc
  | keyboard
  | mouse
  | pointer
  deriving DecidableEq

/-- The function that a message is for. -/
def HidFunc.ofDev (dev : ℕ) : Option HidFunc :=
  if dev = indevKeyboard then some .keyboard
  else if dev = indevMouse then some .mouse
  else if dev = indevPointer then some .pointer
  else none

/-- The outcome of one write. -/
inductive HidWrite
  | accepted
  /-- `EAGAIN`, `ESHUTDOWN` or a partial write: the target does not read. -/
  | dropped
  /-- `ENODEV` and the like. -/
  | failed
  deriving DecidableEq

/-- `HidNode`, with the last report that the target got. -/
structure HidNode where
  /-- `fd >= 0`. -/
  opened : Bool
  got : List UInt8

namespace HidNode

/-- `node_write`. -/
def write (n : HidNode) (r : HidWrite) (rep : List UInt8) : HidNode :=
  if n.opened = false then n
  else
    match r with
    | .accepted => { n with got := rep }
    | .dropped => n
    | .failed => { n with opened := false }

/-- Reports written one after the other. -/
def writes (n : HidNode) (w : ℕ → HidWrite) : List (List UInt8) → HidNode
  | [] => n
  | rep :: reps => (n.write (w 0) rep).writes (fun i => w (i + 1)) reps

end HidNode

/-! ## Messages -/

/-- `SremfbInput`, with the nodes of the gadget. -/
structure HidInput where
  kbd : HidKbd := {}
  mouse : HidMouse := {}
  ptr : HidMouse := {}
  lastKbd : List UInt8 := List.replicate 8 0
  lastBtn : HidFunc → UInt8 := fun _ => 0
  dirty : HidFunc → Bool := fun _ => false
  absPlaced : Bool := false
  absX : ℤ := 0
  absY : ℤ := 0
  node : HidFunc → HidNode

/-- A message, with what the rest of the world does about it: the map of the pointer at that time
and the outcome of the writes to each function. -/
structure HidEvent where
  msg : InputMsg
  absMap : ℤ → ℤ → ℤ × ℤ := fun x y => (x, y)
  writes : HidFunc → ℕ → HidWrite := fun _ _ => .accepted

namespace HidInput

/-- A target on which nothing is held. -/
def freshNode (opened : HidFunc → Bool) (f : HidFunc) : HidNode where
  opened := opened f
  got := List.replicate (match f with | .keyboard => 8 | .mouse => 5 | .pointer => 7) 0

/-- `sremfb_input_start` of the client that takes the inputs; `opened` tells which nodes open. -/
def start (opened : HidFunc → Bool) : HidInput where
  node := freshNode opened

/-- The reports go out and the function is not dirty any more. -/
def send (s : HidInput) (f : HidFunc) (w : ℕ → HidWrite) (reps : List (List UInt8)) : HidInput :=
  { s with
    node := Function.update s.node f ((s.node f).writes w reps)
    dirty := Function.update s.dirty f false }

/-- `kbd_flush`. -/
def kbdFlush (ev : HidEvent) (s : HidInput) : HidInput :=
  { s.send .keyboard (ev.writes .keyboard) [s.kbd.report] with lastKbd := s.kbd.report }

/-- `mouse_flush`. -/
def mouseFlush (ev : HidEvent) (s : HidInput) : HidInput :=
  { s.send .mouse (ev.writes .mouse) (HidMouse.burst HidMouse.mouseReport hidMaxSplit s.mouse) with
    mouse := s.mouse.settled
    lastBtn := Function.update s.lastBtn .mouse s.mouse.buttons }

/-- `ptr_flush`. -/
def ptrFlush (ev : HidEvent) (s : HidInput) : HidInput :=
  let report := HidMouse.pointerReport (ev.absMap s.absX s.absY)
  { s.send .pointer (ev.writes .pointer) (HidMouse.burst report hidMaxSplit s.ptr) with
    ptr := s.ptr.settled
    lastBtn := Function.update s.lastBtn .pointer s.ptr.buttons }

/-- `dev_flush`. -/
def devFlush (ev : HidEvent) (s : HidInput) : HidFunc → HidInput
  | .keyboard => s.kbdFlush ev
  | .mouse => s.mouseFlush ev
  | .pointer => if s.absPlaced then s.ptrFlush ev else s

/-- The `memset`s of `release_all`. -/
def letGo (s : HidInput) : HidInput := { s with kbd := {}, mouse := {}, ptr := {} }

/-- `release_all`. -/
def releaseAll (ev : HidEvent) (s : HidInput) : HidInput :=
  let s := ((s.letGo.devFlush ev .keyboard).devFlush ev .mouse).devFlush ev .pointer
  { s with dirty := Function.update s.dirty .pointer false }

/-- `kbd_usage_sent`. -/
def kbdUsageSent (usage : ℕ → UInt8) (s : HidInput) (code : ℕ) : Bool :=
  let u := usage code
  if 0xE0 ≤ u ∧ u ≤ 0xE7 then decide (s.lastKbd.headD 0 &&& HidKbd.modBit u ≠ 0)
  else (s.lastKbd.drop 2).contains u

/-- `on_key`. -/
def onKey (usage : ℕ → UInt8) (ev : HidEvent) (s : HidInput) (code : ℕ) (v : ℤ) : HidInput :=
  -- pressed and let go in one frame: the press goes first, or the target would see nothing
  let s := if v = 0 ∧ s.kbd.held code = true ∧ s.kbdUsageSent usage code = false then s.kbdFlush ev
    else s
  let r := s.kbd.key usage code v
  let s := { s with kbd := r.1 }
  if r.2 = .changed then { s with dirty := Function.update s.dirty .keyboard true } else s

/-- The mouse of a function, with its buttons. -/
def mouseOf (s : HidInput) (f : HidFunc) : HidMouse := if f = .pointer then s.ptr else s.mouse

/-- The other way round. -/
def setMouse (s : HidInput) (f : HidFunc) (m : HidMouse) : HidInput :=
  if f = .pointer then { s with ptr := m } else { s with mouse := m }

/-- `on_button`. -/
def onButton (ev : HidEvent) (s : HidInput) (f : HidFunc) (code : ℕ) (v : ℤ) : HidInput :=
  match hidButtonBit code with
  | none => s
  | some b =>
      let bit : UInt8 := 1 <<< UInt8.ofNat b
      if v ≠ 0 ∧ v ≠ 1 then s
      else if decide ((s.mouseOf f).buttons &&& bit ≠ 0) = decide (v = 1) then s
      -- a click before the first position would land wherever the pointer of the target is
      else if f = .pointer ∧ v = 1 ∧ s.absPlaced = false then s
      else
        let s := if v = 0 ∧ s.lastBtn f &&& bit = 0 then s.devFlush ev f else s
        let m := s.mouseOf f
        let m := { m with buttons := if v = 1 then m.buttons ||| bit else m.buttons &&& ~~~ bit }
        let s := s.setMouse f m
        { s with dirty := Function.update s.dirty f true }

/-- `EV_REL` of a mouse or of the pointer: the new device, if the event says anything. -/
def relMove (f : HidFunc) (m : HidMouse) (code : ℕ) (v : ℤ) : Option HidMouse :=
  if code = Evdev.relWheel then some { m with wheel := m.wheel + v }
  else if code = Evdev.relHwheel then some { m with hwheel := m.hwheel + v }
  else if code = Evdev.relX ∧ f = .mouse then some { m with dx := m.dx + v }
  else if code = Evdev.relY ∧ f = .mouse then some { m with dy := m.dy + v }
  else none

/-- `sremfb_input_msg` for one of the functions whose node is open. -/
def dispatch (usage : ℕ → UInt8) (ev : HidEvent) (s : HidInput) (f : HidFunc) : HidInput :=
  let m := ev.msg
  if m.evType = Evdev.syn then
    if m.evCode = Evdev.synReport ∧ s.dirty f = true then s.devFlush ev f else s
  else if m.evType = Evdev.key then
    if f = .keyboard then s.onKey usage ev m.evCode m.evValue
    else s.onButton ev f m.evCode m.evValue
  else if m.evType = Evdev.rel then
    if f = .keyboard then s
    else
      match relMove f (s.mouseOf f) m.evCode m.evValue with
      | none => s
      | some mm =>
          let s := s.setMouse f mm
          { s with dirty := Function.update s.dirty f true }
  else if m.evType = Evdev.abs then
    if f ≠ .pointer ∨ (m.evCode ≠ Evdev.absX ∧ m.evCode ≠ Evdev.absY) then s
    else
      let s := if m.evCode = Evdev.absX then { s with absX := m.evValue }
        else { s with absY := m.evValue }
      { s with absPlaced := true, dirty := Function.update s.dirty f true }
  else s

/-- `sremfb_input_msg` of the client that holds the inputs. -/
def step (usage : ℕ → UInt8) (s : HidInput) (ev : HidEvent) : HidInput :=
  if ev.msg.dev = indevAll then (if ev.msg.evType = 0 then s.releaseAll ev else s)
  else
    match HidFunc.ofDev ev.msg.dev with
    | none => s
    | some f => if (s.node f).opened = false then s else s.dispatch usage ev f

/-! ## What the target holds -/

/-- The bytes of a report that say what is held. -/
def heldBytes : HidFunc → List UInt8 → List UInt8
  | .keyboard, rep => rep
  | .mouse, rep | .pointer, rep => rep.take 1

/-- What the client holds. -/
def held (s : HidInput) : HidFunc → List UInt8
  | .keyboard => s.kbd.report
  | .mouse => [s.mouse.buttons]
  | .pointer => [s.ptr.buttons]

/-- Of a function that is open and not dirty, the target holds what the client holds. -/
def Mirrors (s : HidInput) (f : HidFunc) : Prop :=
  (s.node f).opened = true → s.dirty f = false → heldBytes f (s.node f).got = s.held f

/-- How many reports of at most 127 steps an axis takes. -/
def splits (axes : List ℤ) : ℕ :=
  min hidMaxSplit (max 1 (((axes.map Int.natAbs).foldr max 0 + 126) / 127))

/-- How many reports a flush sends. -/
def reports (s : HidInput) : HidFunc → ℕ
  | .keyboard => 1
  | .mouse => splits [s.mouse.dx, s.mouse.dy, s.mouse.wheel, s.mouse.hwheel]
  | .pointer => splits [s.ptr.wheel, s.ptr.hwheel]

/-- What a message takes to be delivered: the held bytes it sends for `f`, in how many reports,
when it leaves `f` clean. -/
def settles (s : HidInput) (m : InputMsg) (f : HidFunc) : Option (List UInt8 × ℕ) :=
  if f = .pointer ∧ s.absPlaced = false then none
  else if m.dev = indevAll ∧ m.evType = 0 then some (s.letGo.held f, 1)
  else if HidFunc.ofDev m.dev = some f ∧ m.evType = Evdev.syn ∧ m.evCode = Evdev.synReport ∧
      s.dirty f = true then some (s.held f, s.reports f)
  else none

/-- Of the reports with which the message leaves an open function clean, one is not lost, unless
the target held that state before. -/
def Delivered (s : HidInput) (ev : HidEvent) : Prop :=
  ∀ f, (s.node f).opened = true → ∀ x ∈ s.settles ev.msg f,
    (∃ i < x.2, ev.writes f i ≠ .dropped) ∨ heldBytes f (s.node f).got = x.1

end HidInput

/-! ## Bursts -/

namespace HidMouse

/-- What `take127` leaves. -/
lemma natAbs_take127 (acc : ℤ) : (take127 acc).2.natAbs = acc.natAbs - 127 := by
  simp only [take127]
  omega

variable {report : HidMouse → List UInt8 × HidMouse × Bool}

/-- A burst has as many reports as 127 goes into the size of the movement, up to the bound. -/
lemma length_burst (size : HidMouse → ℕ) (hmore : ∀ m, (report m).2.2 = true ↔ 127 < size m)
    (hsize : ∀ m, size (report m).2.1 = size m - 127) (n : ℕ) (m : HidMouse) :
    (burst report (n + 1) m).length = min (n + 1) (max 1 ((size m + 126) / 127)) := by
  induction n generalizing m with
  | zero =>
      simp only [burst, ite_self, List.length_cons, List.length_nil]
      omega
  | succ n ih =>
      rw [burst]
      by_cases hm : 127 < size m
      · rw [if_pos ((hmore m).mpr hm), List.length_cons, ih, hsize]
        omega
      · rw [if_neg (mt (hmore m).mp hm), List.length_singleton]
        omega

/-- Every report of a burst carries the buttons. -/
lemma take_of_mem_burst (hout : ∀ m, (report m).1.take 1 = [m.buttons])
    (hkeep : ∀ m, (report m).2.1.buttons = m.buttons) {n : ℕ} {m : HidMouse} {rep : List UInt8}
    (h : rep ∈ burst report n m) : rep.take 1 = [m.buttons] := by
  induction n generalizing m with
  | zero => simp [burst] at h
  | succ n ih =>
      rw [burst] at h
      rcases List.mem_cons.mp h with rfl | hrest
      · exact hout m
      · split at hrest
        · rw [ih hrest, hkeep]
        · cases hrest

end HidMouse

/-! ## Writes -/

namespace HidNode

variable {n : HidNode} {w : ℕ → HidWrite} {reps : List (List UInt8)}

lemma write_of_closed (hn : n.opened = false) (r : HidWrite) (rep : List UInt8) :
    n.write r rep = n := if_pos hn

lemma write_of_opened (hn : n.opened = true) (r : HidWrite) (rep : List UInt8) :
    n.write r rep =
      match r with
      | .accepted => { n with got := rep }
      | .dropped => n
      | .failed => { n with opened := false } := if_neg (by rw [hn]; decide)

lemma writes_of_closed (hn : n.opened = false) : n.writes w reps = n := by
  induction reps generalizing w with
  | nil => rfl
  | cons rep reps ih =>
      rw [writes, write_of_closed hn]
      exact ih

/-- A target that is sent the same held bytes in every report has them afterwards when one of the
reports is not lost, or when it had them before. -/
lemma writes_held {α : Type*} (g : List UInt8 → α) {h : α} (hn : n.opened = true)
    (hreps : ∀ rep ∈ reps, g rep = h) :
    ((n.writes w reps).opened = true → g (n.writes w reps).got = h) ↔
      (∃ i < reps.length, w i ≠ .dropped) ∨ g n.got = h := by
  induction reps generalizing n w with
  | nil => simp [writes, hn]
  | cons rep reps ih =>
      obtain ⟨hrep, hreps⟩ := List.forall_mem_cons.mp hreps
      rw [writes, write_of_opened hn]
      cases hw : w 0 with
      | accepted =>
          rw [ih (n := { n with got := rep }) hn hreps]
          simp only [hrep, or_true, true_iff]
          exact .inl ⟨0, Nat.succ_pos _, by rw [hw]; decide⟩
      | dropped =>
          rw [ih hn hreps]
          refine or_congr_left ⟨?_, ?_⟩
          · rintro ⟨i, hi, hwi⟩
            exact ⟨i + 1, Nat.succ_lt_succ hi, hwi⟩
          · rintro ⟨i, hi, hwi⟩
            cases i with
            | zero => exact absurd hw hwi
            | succ i => exact ⟨i, Nat.lt_of_succ_lt_succ hi, hwi⟩
      | failed =>
          have hclosed : (writes { n with opened := false } (fun i => w (i + 1)) reps).opened =
              false := by rw [writes_of_closed rfl]
          simp only [hclosed, Bool.false_eq_true, false_imp_iff, true_iff]
          exact .inl ⟨0, Nat.succ_pos _, by rw [hw]; decide⟩

end HidNode

/-! ## Flushes -/

namespace HidInput

variable {s s' : HidInput} {ev : HidEvent} {f g : HidFunc} {usage : ℕ → UInt8}

lemma length_mouseBurst (m : HidMouse) :
    (HidMouse.burst HidMouse.mouseReport hidMaxSplit m).length =
      splits [m.dx, m.dy, m.wheel, m.hwheel] := by
  refine HidMouse.length_burst
    (fun m => max m.dx.natAbs (max m.dy.natAbs (max m.wheel.natAbs (max m.hwheel.natAbs 0))))
    (fun m => ?_) (fun m => ?_) 31 m
  · simp only [HidMouse.mouseReport, decide_eq_true_eq, ← Int.natAbs_ne_zero,
      HidMouse.natAbs_take127, Nat.sub_ne_zero_iff_lt, Nat.max_zero, lt_max_iff]
  · simp only [HidMouse.mouseReport, HidMouse.natAbs_take127, Nat.max_zero, Nat.sub_max_sub_right]

lemma length_pointerBurst (place : ℤ × ℤ) (m : HidMouse) :
    (HidMouse.burst (HidMouse.pointerReport place) hidMaxSplit m).length =
      splits [m.wheel, m.hwheel] := by
  refine HidMouse.length_burst (fun m => max m.wheel.natAbs (max m.hwheel.natAbs 0))
    (fun m => ?_) (fun m => ?_) 31 m
  · simp only [HidMouse.pointerReport, decide_eq_true_eq, ← Int.natAbs_ne_zero,
      HidMouse.natAbs_take127, Nat.sub_ne_zero_iff_lt, Nat.max_zero, lt_max_iff]
  · simp only [HidMouse.pointerReport, HidMouse.natAbs_take127, Nat.max_zero,
      Nat.sub_max_sub_right]

/-- A flush: every report carries what is held, and the mark is gone. -/
lemma devFlush_sends (ev : HidEvent) (hf : f = .pointer → s.absPlaced = true) :
    ∃ reps : List (List UInt8), reps.length = s.reports f ∧
      (∀ rep ∈ reps, heldBytes f rep = s.held f) ∧
      (s.devFlush ev f).node = Function.update s.node f ((s.node f).writes (ev.writes f) reps) ∧
      (s.devFlush ev f).dirty = Function.update s.dirty f false := by
  cases f with
  | keyboard =>
      refine ⟨[s.kbd.report], rfl, ?_, rfl, rfl⟩
      intro rep hrep
      rw [List.mem_singleton.mp hrep]
      rfl
  | mouse =>
      refine ⟨_, length_mouseBurst s.mouse, fun rep hrep => ?_, rfl, rfl⟩
      exact HidMouse.take_of_mem_burst (fun _ => rfl) (fun _ => rfl) hrep
  | pointer =>
      rw [devFlush, if_pos (hf rfl)]
      refine ⟨_, length_pointerBurst _ s.ptr, fun rep hrep => ?_, rfl, rfl⟩
      exact HidMouse.take_of_mem_burst (fun _ => rfl) (fun _ => rfl) hrep

/-- Without a position nothing is said to the pointer. -/
lemma devFlush_unplaced (ev : HidEvent) (hs : s.absPlaced = false) :
    s.devFlush ev .pointer = s := by
  rw [devFlush, if_neg (by rw [hs]; decide)]

@[simp] lemma devFlush_absPlaced (s : HidInput) (ev : HidEvent) (f : HidFunc) :
    (s.devFlush ev f).absPlaced = s.absPlaced := by
  cases f with
  | keyboard | mouse => rfl
  | pointer =>
      rw [devFlush]
      split <;> rfl

@[simp] lemma devFlush_kbd (s : HidInput) (ev : HidEvent) (f : HidFunc) :
    (s.devFlush ev f).kbd = s.kbd := by
  cases f with
  | keyboard | mouse => rfl
  | pointer =>
      rw [devFlush]
      split <;> rfl

/-- A flush does not change what the client holds. -/
@[simp] lemma devFlush_held (s : HidInput) (ev : HidEvent) (f g : HidFunc) :
    (s.devFlush ev f).held g = s.held g := by
  cases f with
  | keyboard | mouse => cases g <;> rfl
  | pointer =>
      rw [devFlush]
      split
      · cases g <;> rfl
      · rfl

lemma devFlush_other (s : HidInput) (ev : HidEvent) (hg : g ≠ f) :
    (s.devFlush ev f).node g = s.node g ∧ (s.devFlush ev f).dirty g = s.dirty g := by
  by_cases hf : f = .pointer → s.absPlaced = true
  · obtain ⟨_, -, -, hnode, hdirty⟩ := devFlush_sends ev hf
    rw [hnode, hdirty, Function.update_of_ne hg, Function.update_of_ne hg]
    exact ⟨rfl, rfl⟩
  · rw [Classical.not_imp, Bool.not_eq_true] at hf
    rw [hf.1, devFlush_unplaced ev hf.2]
    exact ⟨rfl, rfl⟩

end HidInput

/-! ## Steps -/

namespace HidInput

section Steps

variable {s s' : HidInput} {ev : HidEvent} {f g : HidFunc} {usage : ℕ → UInt8}

/-- What holds of the bookkeeping in any case: only keys with a usage are down, and until a position
came the pointer holds no button, on the target neither. -/
structure Sound (usage : ℕ → UInt8) (s : HidInput) : Prop where
  usable : ∀ code, s.kbd.down code = true → HidKbd.Usable usage code
  unplaced : s.absPlaced = false →
    s.ptr.buttons = 0 ∧ heldBytes .pointer (s.node .pointer).got = [0]

/-- What a message can do to a function. -/
inductive Moves (s : HidInput) (ev : HidEvent) (f : HidFunc) (s' : HidInput) : Prop
  | keeps (hnode : s'.node f = s.node f) (hdirty : s'.dirty f = s.dirty f)
      (hheld : s'.held f = s.held f) (hquiet : s.settles ev.msg f = none)
  | marks (hdirty : s'.dirty f = true) (hplaced : f = .pointer → s'.absPlaced = true ∨
      (s'.node f = s.node f ∧ s'.held f = s.held f)) (hquiet : s.settles ev.msg f = none)
  | sends (reps : List (List UInt8)) (hsend : s.settles ev.msg f = some (s'.held f, reps.length))
      (hreps : ∀ rep ∈ reps, heldBytes f rep = s'.held f)
      (hnode : s'.node f = (s.node f).writes (ev.writes f) reps) (hdirty : s'.dirty f = false)
  /-- Nothing can be said to a pointer that is not placed, and nothing has to be. -/
  | unplaced (hf : f = .pointer) (hplaced : s.absPlaced = false) (hnode : s'.node f = s.node f)
      (hheld : s'.held f = [0]) (hquiet : s.settles ev.msg f = none)

lemma settles_unplaced (m : InputMsg) (hs : s.absPlaced = false) :
    s.settles m .pointer = none := if_pos ⟨rfl, hs⟩

/-- What is neither `SREMFB_INDEV_ALL` nor the `SYN_REPORT` of a dirty function settles nothing. -/
lemma settles_quiet {m : InputMsg} (hall : ¬ (m.dev = indevAll ∧ m.evType = 0))
    (hsyn : ¬ (HidFunc.ofDev m.dev = some f ∧ m.evType = Evdev.syn ∧
      m.evCode = Evdev.synReport ∧ s.dirty f = true)) : s.settles m f = none := by
  simp only [settles, if_neg hall, if_neg hsyn, ite_self]

lemma held_dirty (s : HidInput) (d : HidFunc → Bool) (g : HidFunc) :
    HidInput.held { s with dirty := d } g = s.held g := by cases g <;> rfl

lemma reports_letGo (s : HidInput) (f : HidFunc) : s.letGo.reports f = 1 := by
  have hfour : splits [0, 0, 0, 0] = 1 := by decide
  have htwo : splits [0, 0] = 1 := by decide
  cases f with
  | keyboard => rfl
  | mouse => exact hfour
  | pointer => exact htwo

/-! ### `release_all` -/

lemma releaseAll_held (s : HidInput) (ev : HidEvent) (f : HidFunc) :
    (s.releaseAll ev).held f = s.letGo.held f := by
  rw [releaseAll, held_dirty, devFlush_held, devFlush_held, devFlush_held]

lemma releaseAll_absPlaced (s : HidInput) (ev : HidEvent) :
    (s.releaseAll ev).absPlaced = s.absPlaced := by
  simp [releaseAll, letGo]

/-- `release_all` sends one report to each function, except to a pointer that is not placed. -/
lemma releaseAll_sends (ev : HidEvent) (hf : f = .pointer → s.absPlaced = true) :
    ∃ reps : List (List UInt8), reps.length = 1 ∧
      (∀ rep ∈ reps, heldBytes f rep = s.letGo.held f) ∧
      (s.releaseAll ev).node f = (s.node f).writes (ev.writes f) reps ∧
      (s.releaseAll ev).dirty f = false := by
  cases f with
  | keyboard =>
      obtain ⟨reps, hlen, hreps, hnode, hdirty⟩ :=
        devFlush_sends (s := s.letGo) (f := .keyboard) ev nofun
      refine ⟨reps, hlen, hreps, ?_, ?_⟩
      · simp only [releaseAll]
        rw [(devFlush_other _ ev (by decide)).1, (devFlush_other _ ev (by decide)).1, hnode,
          Function.update_self]
        rfl
      · simp only [releaseAll]
        rw [Function.update_of_ne (by decide), (devFlush_other _ ev (by decide)).2,
          (devFlush_other _ ev (by decide)).2, hdirty, Function.update_self]
  | mouse =>
      obtain ⟨reps, hlen, hreps, hnode, hdirty⟩ :=
        devFlush_sends (s := s.letGo.devFlush ev .keyboard) (f := .mouse) ev nofun
      rw [devFlush_held] at hreps
      refine ⟨reps, hlen.trans (reports_letGo s .mouse), hreps, ?_, ?_⟩
      · simp only [releaseAll]
        rw [(devFlush_other _ ev (by decide)).1, hnode, Function.update_self,
          (devFlush_other _ ev (by decide)).1]
        rfl
      · simp only [releaseAll]
        rw [Function.update_of_ne (by decide), (devFlush_other _ ev (by decide)).2, hdirty,
          Function.update_self]
  | pointer =>
      obtain ⟨reps, hlen, hreps, hnode, hdirty⟩ :=
        devFlush_sends (s := (s.letGo.devFlush ev .keyboard).devFlush ev .mouse) (f := .pointer) ev
          (by simpa [letGo] using hf)
      rw [devFlush_held, devFlush_held] at hreps
      refine ⟨reps, hlen.trans (reports_letGo s .pointer), hreps, ?_, ?_⟩
      · simp only [releaseAll]
        rw [hnode, Function.update_self, (devFlush_other _ ev (by decide)).1,
          (devFlush_other _ ev (by decide)).1]
        rfl
      · simp only [releaseAll]
        rw [Function.update_self]

lemma releaseAll_unplaced (ev : HidEvent) (hs : s.absPlaced = false) :
    (s.releaseAll ev).node .pointer = s.node .pointer := by
  simp only [releaseAll]
  rw [devFlush_unplaced ev (by simpa [letGo] using hs), (devFlush_other _ ev (by decide)).1,
    (devFlush_other _ ev (by decide)).1]
  rfl

lemma moves_releaseAll (hall : ev.msg.dev = indevAll ∧ ev.msg.evType = 0) :
    Moves s ev f (s.releaseAll ev) := by
  by_cases hf : f = .pointer → s.absPlaced = true
  · obtain ⟨reps, hlen, hreps, hnode, hdirty⟩ := releaseAll_sends ev hf
    rw [← releaseAll_held s ev f] at hreps
    refine .sends reps ?_ hreps hnode hdirty
    have hplaced : ¬ (f = .pointer ∧ s.absPlaced = false) := fun h => by
      rw [hf h.1] at h
      exact absurd h.2 (by decide)
    rw [settles, if_neg hplaced, if_pos hall, releaseAll_held, hlen]
  · rw [Classical.not_imp, Bool.not_eq_true] at hf
    obtain ⟨rfl, hplaced⟩ := hf
    exact .unplaced rfl hplaced (releaseAll_unplaced ev hplaced) (releaseAll_held s ev .pointer)
      (settles_unplaced _ hplaced)

/-! ### Keys -/

/-- A key is either not taken, and then nothing changes, or it has a usage and goes up or down. -/
lemma key_cases (usage : ℕ → UInt8) (k : HidKbd) (code : ℕ) (v : ℤ) :
    ((k.key usage code v).1 = k ∧ (k.key usage code v).2 ≠ .changed) ∨
      (HidKbd.Usable usage code ∧ (k.key usage code v).2 = .changed ∧
        (k.key usage code v).1.down = Function.update k.down code (decide (v = 1))) := by
  unfold HidKbd.key
  split <;> rename_i hu
  · exact .inl ⟨rfl, nofun⟩
  rw [not_not] at hu
  split
  · exact .inl ⟨rfl, nofun⟩
  split
  · exact .inl ⟨rfl, nofun⟩
  dsimp only
  split
  · exact .inr ⟨hu, rfl, rfl⟩
  split
  · split
    · exact .inl ⟨rfl, nofun⟩
    · exact .inr ⟨hu, rfl, rfl⟩
  · exact .inr ⟨hu, rfl, rfl⟩

/-- Only keys with a usage come down. -/
lemma key_usable {k : HidKbd} (hk : ∀ c, k.down c = true → HidKbd.Usable usage c) (code : ℕ)
    (v : ℤ) (c : ℕ) (h : (k.key usage code v).1.down c = true) : HidKbd.Usable usage c := by
  obtain ⟨hsame, -⟩ | ⟨hu, -, hdown⟩ := key_cases usage k code v
  · exact hk c (hsame ▸ h)
  · by_cases hc : c = code
    · exact hc ▸ hu
    · rw [hdown, Function.update_of_ne hc] at h
      exact hk c h

/-- Letting go of a key that is down is always a change. -/
lemma key_release {k : HidKbd} {code : ℕ} (hu : HidKbd.Usable usage code)
    (hdown : k.down code = true) : (k.key usage code 0).2 = .changed := by
  unfold HidKbd.key
  rw [if_neg (not_not.mpr hu), if_neg (by simp), if_neg (by rw [hdown]; decide)]
  dsimp only
  split <;> rfl

/-- The flush in `on_key` comes before a change, so the keyboard ends up dirty or as it was. -/
lemma onKey_cases (hs : s.Sound usage) (ev : HidEvent) (code : ℕ) (v : ℤ) :
    s.onKey usage ev code v = s ∨ (s.onKey usage ev code v).dirty .keyboard = true := by
  obtain ⟨hsame, hr⟩ | ⟨-, hr, -⟩ := key_cases usage s.kbd code v
  · have hflush : ¬ (v = 0 ∧ s.kbd.held code = true ∧ s.kbdUsageSent usage code = false) := by
      rintro ⟨rfl, hheld, -⟩
      have hdown : s.kbd.down code = true := (Bool.and_eq_true_iff.mp hheld).2
      exact hr (key_release (hs.usable code hdown) hdown)
    left
    rw [onKey, if_neg hflush]
    dsimp only
    rw [if_neg hr, hsame]
  · right
    unfold onKey
    have hkbd : ∀ c : Prop, [Decidable c] → (if c then s.kbdFlush ev else s).kbd = s.kbd := by
      intro c _
      split <;> rfl
    dsimp only
    rw [hkbd, if_pos hr]
    simp only [Function.update_self]

/-- Only the function `g` is touched, and the pointer stays placed. -/
structure Only (g : HidFunc) (s s' : HidInput) : Prop where
  node : ∀ f, f ≠ g → s'.node f = s.node f
  dirty : ∀ f, f ≠ g → s'.dirty f = s.dirty f
  held : ∀ f, f ≠ g → s'.held f = s.held f
  placed : s.absPlaced = true → s'.absPlaced = true

namespace Only

lemma refl (g : HidFunc) (s : HidInput) : Only g s s :=
  ⟨fun _ _ => rfl, fun _ _ => rfl, fun _ _ => rfl, id⟩

lemma trans {s'' : HidInput} (h : Only g s s') (h' : Only g s' s'') : Only g s s'' where
  node f hf := (h'.node f hf).trans (h.node f hf)
  dirty f hf := (h'.dirty f hf).trans (h.dirty f hf)
  held f hf := (h'.held f hf).trans (h.held f hf)
  placed hs := h'.placed (h.placed hs)

lemma ite {c : Prop} [Decidable c] (h : Only g s s') : Only g s (if c then s' else s) := by
  split
  · exact h
  · exact refl g s

lemma devFlush (s : HidInput) (ev : HidEvent) (g : HidFunc) : Only g s (s.devFlush ev g) where
  node _ hf := (devFlush_other s ev hf).1
  dirty _ hf := (devFlush_other s ev hf).2
  held f _ := devFlush_held s ev g f
  placed hs := (devFlush_absPlaced s ev g).trans hs

lemma mark (s : HidInput) (g : HidFunc) (b : Bool) :
    Only g s { s with dirty := Function.update s.dirty g b } where
  node _ _ := rfl
  dirty _ hf := Function.update_of_ne hf ..
  held _ _ := held_dirty ..
  placed := id

lemma setKbd (s : HidInput) (k : HidKbd) : Only .keyboard s { s with kbd := k } where
  node _ _ := rfl
  dirty _ _ := rfl
  held f hf := by
    cases f with
    | keyboard => exact absurd rfl hf
    | mouse | pointer => rfl
  placed := id

lemma setMouse (s : HidInput) (hg : g ≠ .keyboard) (m : HidMouse) :
    Only g s (s.setMouse g m) := by
  unfold HidInput.setMouse
  split <;> rename_i hp
  · refine ⟨fun _ _ => rfl, fun _ _ => rfl, fun f hf => ?_, id⟩
    cases f with
    | keyboard | mouse => rfl
    | pointer => exact absurd hp.symm hf
  · refine ⟨fun _ _ => rfl, fun _ _ => rfl, fun f hf => ?_, id⟩
    cases f with
    | keyboard | pointer => rfl
    | mouse =>
        cases g with
        | keyboard => exact absurd rfl hg
        | mouse => exact absurd rfl hf
        | pointer => exact absurd rfl hp

lemma onKey (s : HidInput) (ev : HidEvent) (code : ℕ) (v : ℤ) :
    Only .keyboard s (s.onKey usage ev code v) := by
  unfold HidInput.onKey
  have hflush : Only .keyboard s (if v = 0 ∧ s.kbd.held code = true ∧
      s.kbdUsageSent usage code = false then s.kbdFlush ev else s) :=
    (devFlush s ev .keyboard).ite
  generalize (if v = 0 ∧ s.kbd.held code = true ∧
    s.kbdUsageSent usage code = false then s.kbdFlush ev else s) = s₁ at hflush ⊢
  dsimp only
  split
  · exact (hflush.trans (setKbd s₁ _)).trans (mark _ _ _)
  · exact hflush.trans (setKbd s₁ _)

lemma onButton (s : HidInput) (ev : HidEvent) (hg : g ≠ .keyboard) (code : ℕ) (v : ℤ) :
    Only g s (s.onButton ev g code v) := by
  unfold HidInput.onButton
  split
  · exact refl g s
  rename_i b _
  dsimp only
  split
  · exact refl g s
  split
  · exact refl g s
  split
  · exact refl g s
  exact (((devFlush s ev g).ite).trans (setMouse _ hg _)).trans (mark _ _ _)

end Only

/-- A button event is ignored, or it leaves the function dirty; the pointer is then placed. -/
lemma onButton_cases (hs : s.Sound usage) (ev : HidEvent) (g : HidFunc) (code : ℕ) (v : ℤ) :
    s.onButton ev g code v = s ∨
      ((s.onButton ev g code v).dirty g = true ∧ (g = .pointer → s.absPlaced = true)) := by
  unfold onButton
  split
  · exact .inl rfl
  rename_i b _
  dsimp only
  split
  · exact .inl rfl
  rename_i hv
  split
  · exact .inl rfl
  rename_i hsame
  split
  · exact .inl rfl
  rename_i hplaced
  refine .inr ⟨by simp only [Function.update_self], ?_⟩
  rintro rfl
  by_contra hfalse
  rw [Bool.not_eq_true] at hfalse
  -- a release needs a button that is held, and there is none
  have hpress : v ≠ 1 := fun hv1 => hplaced ⟨rfl, hv1, hfalse⟩
  have hnone : (s.mouseOf .pointer).buttons = 0 := (hs.unplaced hfalse).1
  simp [hpress, hnone] at hsame

lemma relMove_buttons {m mm : HidMouse} {code : ℕ} {v : ℤ} (h : relMove f m code v = some mm) :
    mm.buttons = m.buttons := by
  unfold relMove at h
  split at h
  · exact (Option.some.inj h) ▸ rfl
  split at h
  · exact (Option.some.inj h) ▸ rfl
  split at h
  · exact (Option.some.inj h) ▸ rfl
  split at h
  · exact (Option.some.inj h) ▸ rfl
  · cases h

/-- What an event does to the function it is for. -/
lemma dispatch_cases (hs : s.Sound usage) (ev : HidEvent) (g : HidFunc) :
    (ev.msg.evType = Evdev.syn ∧ ev.msg.evCode = Evdev.synReport ∧ s.dirty g = true ∧
      s.dispatch usage ev g = s.devFlush ev g) ∨
    (¬ (ev.msg.evType = Evdev.syn ∧ ev.msg.evCode = Evdev.synReport ∧ s.dirty g = true) ∧
      (s.dispatch usage ev g = s ∨ ((s.dispatch usage ev g).dirty g = true ∧
        (g = .pointer → (s.dispatch usage ev g).absPlaced = true ∨
          ((s.dispatch usage ev g).node g = s.node g ∧
            (s.dispatch usage ev g).held g = s.held g))))) := by
  unfold dispatch
  dsimp only
  split <;> rename_i hsyn
  · split <;> rename_i hrep
    · exact .inl ⟨hsyn, hrep.1, hrep.2, rfl⟩
    · exact .inr ⟨fun h => hrep h.2, .inl rfl⟩
  refine .inr ⟨fun h => hsyn h.1, ?_⟩
  split
  · split <;> rename_i hg
    · subst hg
      exact (onKey_cases hs ev _ _).imp_right fun h => ⟨h, nofun⟩
    · refine (onButton_cases hs ev g _ _).imp_right fun h => ⟨h.1, fun hp => .inl ?_⟩
      exact (Only.onButton s ev hg _ _).placed (h.2 hp)
  split
  · split <;> rename_i hg
    · exact .inl rfl
    split <;> rename_i hm
    · exact .inl rfl
    · refine .inr ⟨by simp only [Function.update_self], fun hp => .inr ?_⟩
      subst hp
      exact ⟨rfl, congrArg (fun b => [b]) (relMove_buttons hm)⟩
  split
  · split <;> rename_i habs
    · exact .inl rfl
    · exact .inr ⟨by simp only [Function.update_self], fun _ => .inl rfl⟩
  · exact .inl rfl

/-- What an event does to the others: nothing. -/
lemma Only.dispatch (s : HidInput) (ev : HidEvent) (g : HidFunc) :
    Only g s (s.dispatch usage ev g) := by
  unfold HidInput.dispatch
  dsimp only
  split
  · split
    · exact devFlush s ev g
    · exact refl g s
  split
  · split <;> rename_i hg
    · subst hg
      exact onKey s ev _ _
    · exact onButton s ev hg _ _
  split
  · split <;> rename_i hg
    · exact refl g s
    split
    · exact refl g s
    · exact (setMouse s hg _).trans (mark _ _ _)
  split
  · split <;> rename_i habs
    · exact refl g s
    · have hpointer : g = .pointer := by
        by_contra hne
        exact habs (.inl hne)
      subst hpointer
      split
      · exact ⟨fun _ _ => rfl, fun _ hf => Function.update_of_ne hf ..,
          fun f _ => by cases f <;> rfl, fun _ => rfl⟩
      · exact ⟨fun _ _ => rfl, fun _ hf => Function.update_of_ne hf ..,
          fun f _ => by cases f <;> rfl, fun _ => rfl⟩
  · exact refl g s

lemma Moves.same (h : s.settles ev.msg f = none) : Moves s ev f s := .keeps rfl rfl rfl h

/-- A message to another function. -/
lemma Moves.of_only (h : Only g s s') (hf : f ≠ g) (hquiet : s.settles ev.msg f = none) :
    Moves s ev f s' :=
  .keeps (h.node f hf) (h.dirty f hf) (h.held f hf) hquiet

/-- The step lemma.  A function whose node is closed is left alone, unless everything is let go. -/
lemma step_moves (hs : s.Sound usage) (ev : HidEvent)
    (hopen : (s.node f).opened = true ∨ s.settles ev.msg f = none) :
    Moves s ev f (s.step usage ev) := by
  unfold step
  split <;> rename_i hall
  · split <;> rename_i htype
    · exact moves_releaseAll ⟨hall, htype⟩
    · have hdev : HidFunc.ofDev ev.msg.dev ≠ some f := by
        rw [hall]
        exact nofun
      exact .same (settles_quiet (fun h => htype h.2) fun h => hdev h.1)
  have hall' : ¬ (ev.msg.dev = indevAll ∧ ev.msg.evType = 0) := fun h => hall h.1
  split <;> rename_i hdev
  · exact .same (settles_quiet hall' fun h => by rw [hdev] at h; cases h.1)
  rename_i g
  by_cases hfg : f = g
  · subst hfg
    split <;> rename_i hclosed
    · exact .same (hopen.resolve_left (by rw [hclosed]; decide))
    obtain ⟨hsyn, hcode, hdirty, hflush⟩ | ⟨hnosyn, hcase⟩ := dispatch_cases hs ev f
    · rw [hflush]
      by_cases hf : f = .pointer → s.absPlaced = true
      · obtain ⟨reps, hlen, hreps, hnode, hclean⟩ := devFlush_sends ev hf
        have hplaced : ¬ (f = .pointer ∧ s.absPlaced = false) := fun h => by
          rw [hf h.1] at h
          exact absurd h.2 (by decide)
        refine .sends reps ?_ (by rwa [devFlush_held]) (by rw [hnode, Function.update_self])
          (by rw [hclean, Function.update_self])
        rw [settles, if_neg hplaced, if_neg hall', if_pos ⟨hdev, hsyn, hcode, hdirty⟩,
          devFlush_held, hlen]
      · rw [Classical.not_imp, Bool.not_eq_true] at hf
        obtain ⟨rfl, hplaced⟩ := hf
        rw [devFlush_unplaced ev hplaced]
        exact .same (settles_unplaced _ hplaced)
    · have hquiet := settles_quiet (f := f) hall' fun h => hnosyn h.2
      obtain hsame | ⟨hdirty, hplaced⟩ := hcase
      · rw [hsame]
        exact .same hquiet
      · exact .marks hdirty hplaced hquiet
  · have hquiet := settles_quiet (s := s) (f := f) hall' fun h => by
      rw [hdev] at h
      exact hfg (Option.some.inj h.1).symm
    split
    · exact .same hquiet
    · exact .of_only (Only.dispatch s ev g) hfg hquiet

/-- A node that is closed stays closed. -/
lemma step_closed (ev : HidEvent) (hclosed : (s.node f).opened = false) :
    ((s.step usage ev).node f).opened = false := by
  unfold step
  split
  · split
    · by_cases hf : f = .pointer → s.absPlaced = true
      · obtain ⟨reps, -, -, hnode, -⟩ := releaseAll_sends ev hf
        rw [hnode, HidNode.writes_of_closed hclosed]
        exact hclosed
      · rw [Classical.not_imp, Bool.not_eq_true] at hf
        obtain ⟨rfl, hplaced⟩ := hf
        rw [releaseAll_unplaced ev hplaced]
        exact hclosed
    · exact hclosed
  split
  · exact hclosed
  rename_i g hdev
  split <;> rename_i hg
  · exact hclosed
  · have hfg : f ≠ g := fun h => hg (h ▸ hclosed)
    rw [(Only.dispatch s ev g).node f hfg]
    exact hclosed

lemma setMouse_kbd (s : HidInput) (g : HidFunc) (m : HidMouse) : (s.setMouse g m).kbd = s.kbd := by
  unfold setMouse
  split <;> rfl

lemma onKey_kbd (s : HidInput) (ev : HidEvent) (code : ℕ) (v : ℤ) :
    (s.onKey usage ev code v).kbd = (s.kbd.key usage code v).1 := by
  unfold onKey
  dsimp only
  rw [apply_ite HidInput.kbd, ite_self, apply_ite HidInput.kbd]
  exact congrArg (fun k => (HidKbd.key usage k code v).1) (ite_self s.kbd)

lemma onButton_kbd (s : HidInput) (ev : HidEvent) (g : HidFunc) (code : ℕ) (v : ℤ) :
    (s.onButton ev g code v).kbd = s.kbd := by
  unfold onButton
  split
  · rfl
  dsimp only
  split
  · rfl
  split
  · rfl
  split
  · rfl
  dsimp only
  rw [setMouse_kbd]
  split
  · exact devFlush_kbd ..
  · rfl

lemma step_usable (hs : ∀ c, s.kbd.down c = true → HidKbd.Usable usage c) (ev : HidEvent) (c : ℕ)
    (h : (s.step usage ev).kbd.down c = true) : HidKbd.Usable usage c := by
  unfold step at h
  split at h
  · split at h
    · simp [releaseAll, letGo] at h
    · exact hs c h
  split at h
  · exact hs c h
  split at h
  · exact hs c h
  unfold dispatch at h
  dsimp only at h
  split at h
  · split at h
    · rw [devFlush_kbd] at h
      exact hs c h
    · exact hs c h
  split at h
  · split at h
    · rw [onKey_kbd] at h
      exact key_usable hs _ _ c h
    · rw [onButton_kbd] at h
      exact hs c h
  split at h
  · split at h
    · exact hs c h
    split at h
    · exact hs c h
    · dsimp only at h
      rw [setMouse_kbd] at h
      exact hs c h
  split at h
  · split at h
    · exact hs c h
    · refine hs c ?_
      rw [← h]
      dsimp only
      split <;> rfl
  · exact hs c h

lemma step_placed (hs : s.absPlaced = true) (ev : HidEvent) :
    (s.step usage ev).absPlaced = true := by
  unfold step
  split
  · split
    · rw [releaseAll_absPlaced]
      exact hs
    · exact hs
  split
  · exact hs
  split
  · exact hs
  · exact (Only.dispatch s ev _).placed hs

lemma Sound.step (hs : s.Sound usage) (ev : HidEvent) : (s.step usage ev).Sound usage where
  usable := step_usable hs.usable ev
  unplaced hfalse := by
    have hplaced : s.absPlaced = false := by
      by_contra h
      rw [step_placed (by simpa using h)] at hfalse
      cases hfalse
    obtain ⟨hbuttons, hgot⟩ := hs.unplaced hplaced
    have hheld : s.held .pointer = [0] := congrArg (fun b => [b]) hbuttons
    have hnow : ((s.step usage ev).node .pointer) = s.node .pointer ∧
        (s.step usage ev).held .pointer = [0] := by
      cases step_moves (f := .pointer) hs ev (.inr (settles_unplaced _ hplaced)) with
      | keeps hnode _ hsame _ => exact ⟨hnode, hsame.trans hheld⟩
      | marks _ hsame _ =>
          obtain htrue | ⟨hnode, hsame⟩ := hsame rfl
          · rw [htrue] at hfalse
            cases hfalse
          · exact ⟨hnode, hsame.trans hheld⟩
      | sends _ hsend _ _ _ =>
          rw [settles_unplaced _ hplaced] at hsend
          cases hsend
      | unplaced _ _ hnode hzero _ => exact ⟨hnode, hzero⟩
    exact ⟨List.head_eq_of_cons_eq hnow.2, hnow.1 ▸ hgot⟩

/-! ## What a dropped report costs -/

/-- A step keeps a function mirrored exactly when what it settles arrives. -/
lemma mirrors_step_iff (hs : s.Sound usage) (ev : HidEvent) (hf : s.Mirrors f) :
    (s.step usage ev).Mirrors f ↔
      ((s.node f).opened = true → ∀ x ∈ s.settles ev.msg f,
        (∃ i < x.2, ev.writes f i ≠ .dropped) ∨ heldBytes f (s.node f).got = x.1) := by
  by_cases hopen : (s.node f).opened = true
  · cases step_moves hs ev (.inl hopen) with
    | keeps hnode hdirty hheld hquiet =>
        simp only [Mirrors, hnode, hdirty, hheld, hquiet, Option.mem_def, reduceCtorEq,
          false_imp_iff, implies_true, iff_true]
        exact hf
    | marks hdirty hplaced hquiet =>
        simp only [Mirrors, hdirty, hquiet, Option.mem_def, reduceCtorEq, false_imp_iff,
          implies_true]
    | sends reps hsend hreps hnode hdirty =>
        rw [hsend]
        simp only [Mirrors, hnode, hdirty, Option.mem_def, Option.some.injEq, forall_eq',
          forall_const, hopen]
        exact HidNode.writes_held (heldBytes f) hopen hreps
    | unplaced hpointer hplaced hnode hzero hquiet =>
        subst hpointer
        simp only [Mirrors, hnode, hzero, hquiet, (hs.unplaced hplaced).2, Option.mem_def,
          reduceCtorEq, false_imp_iff, implies_true]
  · rw [Bool.not_eq_true] at hopen
    simp [Mirrors, step_closed ev hopen, hopen]

lemma start_sound (usage : ℕ → UInt8) (opened : HidFunc → Bool) : (start opened).Sound usage where
  usable _ h := by cases h
  unplaced _ := ⟨rfl, rfl⟩

lemma start_mirrors (opened : HidFunc → Bool) (f : HidFunc) : (start opened).Mirrors f := by
  cases f <;> exact fun _ _ => rfl

/-- **What the target holds.**  It follows the client in every function that is open and not dirty,
through the whole run, exactly when every burst of reports that takes the mark away gets a report
through, or was not needed. -/
theorem target_mirrors_iff (usage : ℕ → UInt8) (opened : HidFunc → Bool) (es : List HidEvent) :
    (∀ n f, (run (step usage) (start opened) (es.take n)).Mirrors f) ↔
      Along Delivered (step usage) (start opened) es :=
  forall_run_iff_along (Q := fun _ => True) (J := Sound usage) (P := fun s => ∀ f, s.Mirrors f)
    (fun _ ev _ hs => hs.step ev)
    (fun _ ev _ hs hf => forall_congr' fun f => mirrors_step_iff hs ev (hf f))
    (start_sound usage opened) (start_mirrors opened) (fun _ _ => trivial)

/-- `a` is pressed, let go while the target sleeps, and stays pressed on the target: the mark is
gone, and the next frame, which the target does read, says nothing. -/
theorem dropped_release_stays_held :
    let usage : ℕ → UInt8 := fun code => if code = 30 then 4 else 0
    let key (v : ℤ) : HidEvent := { msg := ⟨indevKeyboard, Evdev.key, 30, v⟩ }
    let syn (w : HidWrite) : HidEvent :=
      { msg := ⟨indevKeyboard, Evdev.syn, Evdev.synReport, 0⟩, writes := fun _ _ => w }
    let s := run (step usage) (start fun _ => true)
      [key 1, syn .accepted, key 0, syn .dropped, syn .accepted]
    (s.node .keyboard).opened = true ∧ s.dirty .keyboard = false ∧
      s.held .keyboard = List.replicate 8 0 ∧ (s.node .keyboard).got = [0, 0, 4, 0, 0, 0, 0, 0] ∧
      ¬ s.Mirrors .keyboard := by
  refine ⟨by decide +kernel, by decide +kernel, by decide +kernel, by decide +kernel, fun h => ?_⟩
  exact absurd (h (by decide +kernel) (by decide +kernel)) (by decide +kernel)

end Steps

end HidInput

end Sremfb
