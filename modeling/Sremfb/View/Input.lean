import Sremfb.Server.Input

/-!
# The viewer's keyboard and mouse (`sremfb-view.c`, `keymap.c`)

Once the server confirmed input, every local event is turned into evdev events for its devices.
The mouse has two modes: as an absolute pointer over the remote screen, or captured as a
relative mouse.  Right Ctrl is the host key: a tap toggles the capture, keys pressed with it stay
local, and it is never forwarded itself.  Losing the focus leaves the capture and releases
everything.

Messages are collected in a queue of 64 that goes out in one write; `ViewInput.sent` is what went
out.  SDL's scancodes are USB usages.  The floating-point parts of an event (the position in
stream pixels, the whole-pixel motion, the wheel in 1/120 notches) are taken as SDL and the
viewer's rounding give them, and come with the event.
-/

namespace Sremfb

/-! ## Key codes -/

/-- `keymap`: the evdev code of each scancode that has one, in the order of the source: letters,
digits, the keys around them, F1 to F24, navigation, keypad, editing, international, modifiers,
media. -/
def keymap : List (ℕ × ℕ) :=
  [(4, 30), (5, 48), (6, 46), (7, 32), (8, 18), (9, 33), (10, 34), (11, 35), (12, 23), (13, 36),
    (14, 37), (15, 38), (16, 50), (17, 49), (18, 24), (19, 25), (20, 16), (21, 19), (22, 31),
    (23, 20), (24, 22), (25, 47), (26, 17), (27, 45), (28, 21), (29, 44),
    (30, 2), (31, 3), (32, 4), (33, 5), (34, 6), (35, 7), (36, 8), (37, 9), (38, 10), (39, 11),
    (40, 28), (41, 1), (42, 14), (43, 15), (44, 57), (45, 12), (46, 13), (47, 26), (48, 27),
    (49, 43), (50, 43), (51, 39), (52, 40), (53, 41), (54, 51), (55, 52), (56, 53), (57, 58),
    (58, 59), (59, 60), (60, 61), (61, 62), (62, 63), (63, 64), (64, 65), (65, 66), (66, 67),
    (67, 68), (68, 87), (69, 88), (104, 183), (105, 184), (106, 185), (107, 186), (108, 187),
    (109, 188), (110, 189), (111, 190), (112, 191), (113, 192), (114, 193), (115, 194),
    (70, 99), (71, 70), (72, 119), (73, 110), (74, 102), (75, 104), (76, 111), (77, 107),
    (78, 109), (79, 106), (80, 105), (81, 108), (82, 103),
    (83, 69), (84, 98), (85, 55), (86, 74), (87, 78), (88, 96), (89, 79), (90, 80), (91, 81),
    (92, 75), (93, 76), (94, 77), (95, 71), (96, 72), (97, 73), (98, 82), (99, 83), (103, 117),
    (133, 121),
    (100, 86), (101, 127), (102, 116), (117, 138), (118, 139), (119, 353), (120, 128),
    (121, 129), (122, 131), (123, 137), (124, 133), (125, 135), (126, 136), (127, 113),
    (128, 115), (129, 114),
    (135, 89), (136, 93), (137, 124), (138, 92), (139, 94), (144, 122), (145, 123),
    (224, 29), (225, 42), (226, 56), (227, 125), (228, 97), (229, 54), (230, 100), (231, 126),
    (258, 142), (259, 143), (262, 200), (263, 201), (264, 167), (265, 208), (266, 168),
    (267, 163), (268, 165), (269, 166), (270, 161), (271, 164), (280, 217), (281, 172),
    (282, 158), (283, 159), (285, 173), (286, 156)]

/-- `SDL_SCANCODE_COUNT`. -/
def scancodeCount : ℕ := 512

/-- `view_scancode_to_evdev`; `0` is no code. -/
def viewScancodeToEvdev (sc : ℕ) : ℕ :=
  if sc = 0 ∨ scancodeCount ≤ sc then 0 else (keymap.lookup sc).getD 0

/-- `SDL_SCANCODE_RCTRL`, the host key. -/
def scancodeRctrl : ℕ := 228

/-- `SDL_SCANCODE_Q`. -/
def scancodeQ : ℕ := 20

/-- `in_button_code`, of SDL's left, middle, right, X1 and X2. -/
def inButtonCode : ℕ → ℕ
  | 1 => Evdev.btnLeft
  | 2 => Evdev.btnMiddle
  | 3 => Evdev.btnRight
  | 4 => Evdev.btnSide
  | 5 => Evdev.btnExtra
  | _ => 0

/-- `pad_button_code`, of SDL's south, east, west, north, back, guide, start, the two sticks and
the two shoulders. -/
def padButtonCode : ℕ → ℕ
  | 0 => 0x130
  | 1 => 0x131
  | 2 => 0x133
  | 3 => 0x134
  | 4 => 0x13a
  | 5 => 0x13c
  | 6 => 0x13b
  | 7 => 0x13d
  | 8 => 0x13e
  | 9 => 0x136
  | 10 => 0x137
  | _ => 0

/-- `SDL_GAMEPAD_BUTTON_COUNT`. -/
def padButtonCount : ℕ := 26

/-! ## The state and the queue -/

/-- The struct `I`, with `D.input`, `local_only` and what was sent. -/
structure ViewInput where
  input : Bool := false
  localOnly : Bool := false
  captured : Bool := false
  rctrlDown : Bool := false
  rctrlCombo : Bool := false
  wheelV : ℤ := 0
  wheelH : ℤ := 0
  absX : ℤ := -1
  absY : ℤ := -1
  /-- `pad != NULL`. -/
  pad : Bool := false
  /-- Bits up, down, left, right. -/
  dpad : BitVec 4 := 0
  q : List InputMsg := []
  sent : List InputMsg := []

namespace ViewInput

/-- `in_flush`. -/
def inFlush (v : ViewInput) : ViewInput :=
  if v.input then { v with sent := v.sent ++ v.q, q := [] } else { v with q := [] }

/-- `in_push`; a full queue goes out first. -/
def inPush (v : ViewInput) (m : InputMsg) : ViewInput :=
  let v := if v.q.length = 64 then v.inFlush else v
  { v with q := v.q ++ [m] }

/-- `in_syn`. -/
def inSyn (v : ViewInput) (dev : ℕ) : ViewInput := v.inPush ⟨dev, Evdev.syn, 0, 0⟩

/-- Several messages pushed in a row. -/
def inPushes (v : ViewInput) (ms : List InputMsg) : ViewInput := ms.foldl inPush v

/-- `in_release_all`. -/
def inReleaseAll (v : ViewInput) : ViewInput :=
  { (v.inPush ⟨indevAll, 0, 0, 0⟩).inFlush with dpad := 0 }

/-- `capture_set`. -/
def captureSet (v : ViewInput) (on : Bool) : ViewInput :=
  if on = true ∧ v.input = false then v
  else if on = v.captured then v
  else
    let v := { v with captured := on, absX := -1, absY := -1 }
    if on then v else v.inReleaseAll

/-- `in_abs_from`; `pos` is the position in stream pixels, `none` before the first picture. -/
def inAbsFrom (v : ViewInput) (pos : Option (ℤ × ℤ)) : ViewInput :=
  match pos with
  | none => v
  | some (x, y) =>
      if x = v.absX ∧ y = v.absY then v
      else
        let v := { v with absX := x, absY := y }
        let v := v.inPush ⟨indevPointer, Evdev.abs, Evdev.absX, x⟩
        let v := v.inPush ⟨indevPointer, Evdev.abs, Evdev.absY, y⟩
        v.inSyn indevPointer

/-- The classic notches of a wheel at `w` 1/120 notches; the loops of `in_wheel` take off 120 at
a time. -/
def notches (dev code : ℕ) (w : ℤ) : List InputMsg :=
  List.replicate (w.tdiv 120).natAbs ⟨dev, Evdev.rel, code, if 0 ≤ w then 1 else -1⟩

/-- `in_wheel`, of rounded 1/120 notches. -/
def inWheel (v : ViewInput) (dev : ℕ) (hv hh : ℤ) : ViewInput :=
  let v :=
    if hv = 0 then v
    else
      let w := v.wheelV + hv
      let v := v.inPush ⟨dev, Evdev.rel, Evdev.relWheelHiRes, hv⟩
      { v.inPushes (notches dev Evdev.relWheel w) with wheelV := w.tmod 120 }
  let v :=
    if hh = 0 then v
    else
      let w := v.wheelH + hh
      let v := v.inPush ⟨dev, Evdev.rel, Evdev.relHwheelHiRes, hh⟩
      { v.inPushes (notches dev Evdev.relHwheel w) with wheelH := w.tmod 120 }
  if hv = 0 ∧ hh = 0 then v else v.inSyn dev

/-- The bit of a direction of the hat. -/
def dpadBit : ℕ → BitVec 4
  | 11 => 1
  | 12 => 2
  | 13 => 4
  | 14 => 8
  | _ => 0

/-- `!!(dpad & plus) - !!(dpad & minus)`. -/
def hat (dpad plus minus : BitVec 4) : ℤ :=
  (if dpad &&& plus = 0 then 0 else 1) - (if dpad &&& minus = 0 then 0 else 1)

/-- `pad_button`. -/
def padButton (v : ViewInput) (b : ℕ) (down : Bool) : ViewInput :=
  let bit := dpadBit b
  if bit = 0 ∧ padButtonCode b = 0 then v
  else
    let v :=
      if bit = 0 then
        v.inPush ⟨indevGamepad, Evdev.key, padButtonCode b, if down then 1 else 0⟩
      else
        let d := if down then v.dpad ||| bit else v.dpad &&& ~~~bit
        let v := { v with dpad := d }
        let v := v.inPush ⟨indevGamepad, Evdev.abs, Evdev.absHat0x, hat d 8 4⟩
        v.inPush ⟨indevGamepad, Evdev.abs, Evdev.absHat0y, hat d 2 1⟩
    (v.inSyn indevGamepad).inFlush

/-- The evdev axis of SDL's left and right sticks and the two triggers. -/
def padAxisCode : ℕ → Option ℕ
  | 0 => some Evdev.absX
  | 1 => some Evdev.absY
  | 2 => some Evdev.absRx
  | 3 => some Evdev.absRy
  | 4 => some Evdev.absZ
  | 5 => some Evdev.absRz
  | _ => none

/-- `pad_axis`. -/
def padAxis (v : ViewInput) (a : ℕ) (x : ℤ) : ViewInput :=
  match padAxisCode a with
  | none => v
  | some code =>
      let x := if a = 4 ∨ a = 5 then (if x ≤ 0 then 0 else (x * 255 + 16383).tdiv 32767) else x
      ((v.inPush ⟨indevGamepad, Evdev.abs, code, x⟩).inSyn indevGamepad).inFlush

/-- `pad_neutral`. -/
def padNeutral (v : ViewInput) : ViewInput :=
  let codes := ((List.range padButtonCount).map padButtonCode).filter (· ≠ 0)
  let v := v.inPushes (codes.map fun c => ⟨indevGamepad, Evdev.key, c, 0⟩)
  let v := { v with dpad := 0 }
  let v := v.inPush ⟨indevGamepad, Evdev.abs, Evdev.absHat0x, 0⟩
  let v := v.inPush ⟨indevGamepad, Evdev.abs, Evdev.absHat0y, 0⟩
  let v := v.inPushes ((List.range 6).map fun a => ⟨indevGamepad, Evdev.abs, a, 0⟩)
  (v.inSyn indevGamepad).inFlush

/-! ## Events -/

end ViewInput

/-- A key goes down, repeats, or goes up. -/
inductive KeyEdge
  | down
  | rep
  | up
  deriving DecidableEq, Repr

/-- The local events `input_event` handles; those of a gamepad are of the one that is open. -/
inductive InputEvent
  | key (sc : ℕ) (edge : KeyEdge)
  /-- The pointer moved: by whole pixels when captured, and to a position in the stream. -/
  | motion (dx dy : ℤ) (pos : Option (ℤ × ℤ))
  | button (b : ℕ) (down : Bool) (pos : Option (ℤ × ℤ))
  | wheel (hv hh : ℤ) (pos : Option (ℤ × ℤ))
  | focusLost
  /-- A gamepad appeared; `opens` is `SDL_OpenGamepad`. -/
  | padAdded (opens : Bool)
  | padRemoved
  | padButton (b : ℕ) (down : Bool)
  | padAxis (a : ℕ) (x : ℤ)
  deriving DecidableEq, Repr

namespace ViewInput

/-- The host key: a tap without a combination toggles the capture. -/
def hostKey (v : ViewInput) (edge : KeyEdge) : ViewInput :=
  match edge with
  | .down => { v with rctrlDown := true, rctrlCombo := false }
  | .rep => v
  | .up =>
      let v := if v.rctrlDown = true ∧ v.rctrlCombo = false then v.captureSet (!v.captured) else v
      { v with rctrlDown := false }

/-- A key while the host key is held stays local; with Q the viewer quits. -/
def hostCombo (v : ViewInput) (sc : ℕ) (edge : KeyEdge) : ViewInput × Bool :=
  if edge = .down then ({ v with rctrlCombo := true }, decide (sc = scancodeQ)) else (v, false)

/-- A key of the remote keyboard. -/
def forwardKey (v : ViewInput) (sc : ℕ) (edge : KeyEdge) : ViewInput :=
  if edge = .rep then v
  else
    let code := viewScancodeToEvdev sc
    if code = 0 then v
    else
      let v := v.inPush ⟨indevKeyboard, Evdev.key, code, if edge = .down then 1 else 0⟩
      (v.inSyn indevKeyboard).inFlush

/-- The device of the mouse in its present mode. -/
def mouseDev (v : ViewInput) : ℕ := if v.captured then indevMouse else indevPointer

/-- `input_event`; the result tells to quit. -/
def inputEvent (v : ViewInput) : InputEvent → ViewInput × Bool
  | .key sc edge =>
      if v.input = false ∨ v.localOnly = true then (v, false)
      else if sc = scancodeRctrl then (v.hostKey edge, false)
      else if v.rctrlDown then v.hostCombo sc edge
      else (v.forwardKey sc edge, false)
  | .motion dx dy pos =>
      if v.input = false ∨ v.localOnly = true then (v, false)
      else if v.captured then
        if dx = 0 ∧ dy = 0 then (v, false)
        else
          let v := if dx = 0 then v else v.inPush ⟨indevMouse, Evdev.rel, Evdev.relX, dx⟩
          let v := if dy = 0 then v else v.inPush ⟨indevMouse, Evdev.rel, Evdev.relY, dy⟩
          ((v.inSyn indevMouse).inFlush, false)
      else ((v.inAbsFrom pos).inFlush, false)
  | .button b down pos =>
      if v.input = false ∨ v.localOnly = true then (v, false)
      else
        let code := inButtonCode b
        if code = 0 then (v, false)
        else
          let dev := v.mouseDev
          let v := if v.captured then v else v.inAbsFrom pos
          let v := v.inPush ⟨dev, Evdev.key, code, if down then 1 else 0⟩
          ((v.inSyn dev).inFlush, false)
  | .wheel hv hh pos =>
      if v.input = false ∨ v.localOnly = true then (v, false)
      else
        let dev := v.mouseDev
        let v := if v.captured then v else v.inAbsFrom pos
        ((v.inWheel dev hv hh).inFlush, false)
  | .focusLost =>
      let v := { v with rctrlDown := false }
      if v.input then ((v.captureSet false).inReleaseAll, false) else (v, false)
  | .padAdded opens => ({ v with pad := v.pad || opens }, false)
  | .padRemoved =>
      if v.pad then
        let v := { v with pad := false }
        (if v.input then v.padNeutral else v, false)
      else (v, false)
  | .padButton b down =>
      if v.input = true ∧ v.localOnly = false ∧ v.pad = true then (v.padButton b down, false)
      else (v, false)
  | .padAxis a x =>
      if v.input = true ∧ v.localOnly = false ∧ v.pad = true then (v.padAxis a x, false)
      else (v, false)

/-! ## What is sent -/

/-- Everything handed to the queue so far, in order. -/
def pushed (v : ViewInput) : List InputMsg := v.sent ++ v.q

/-- `v'` is `v` with more messages handed over, in the same mode. -/
structure Puts (v : ViewInput) (ms : List InputMsg) (v' : ViewInput) : Prop where
  pushed : v'.pushed = v.pushed ++ ms
  input : v'.input = v.input
  localOnly : v'.localOnly = v.localOnly
  captured : v'.captured = v.captured

variable {v v' v'' : ViewInput} {ms ms' : List InputMsg}

lemma Puts.trans (h : v.Puts ms v') (h' : v'.Puts ms' v'') : v.Puts (ms ++ ms') v'' :=
  ⟨by rw [h'.pushed, h.pushed, List.append_assoc], h'.input.trans h.input,
    h'.localOnly.trans h.localOnly, h'.captured.trans h.captured⟩

/-- What the input stream is made of. -/
def link (v : ViewInput) : List InputMsg × List InputMsg × Bool × Bool × Bool :=
  (v.q, v.sent, v.input, v.localOnly, v.captured)

/-- Nothing is handed over. -/
lemma Puts.nothing (h : v'.link = v.link) : v.Puts [] v' := by
  simp only [link, Prod.mk.injEq] at h
  obtain ⟨hq, hs, hi, hl, hc⟩ := h
  exact ⟨by simp [ViewInput.pushed, hq, hs], hi, hl, hc⟩

lemma Puts.refl (v : ViewInput) : v.Puts [] v := .nothing rfl

lemma puts_inFlush (hi : v.input = true) : v.Puts [] v.inFlush := by
  unfold inFlush
  rw [if_pos hi]
  exact ⟨by simp [ViewInput.pushed], rfl, rfl, rfl⟩

/-- **Nothing is lost in the queue**: a full one goes out first. -/
lemma puts_inPush (hi : v.input = true) (m : InputMsg) : v.Puts [m] (v.inPush m) := by
  unfold inPush
  dsimp only
  split
  · have hput : v.inFlush.Puts [m] { v.inFlush with q := v.inFlush.q ++ [m] } :=
      ⟨by simp [ViewInput.pushed], rfl, rfl, rfl⟩
    exact (puts_inFlush hi).trans hput
  · exact ⟨by simp [ViewInput.pushed], rfl, rfl, rfl⟩

lemma puts_inPushes (hi : v.input = true) (ms : List InputMsg) : v.Puts ms (v.inPushes ms) := by
  induction ms generalizing v with
  | nil => exact .refl v
  | cons m ms ih =>
      have hm := puts_inPush hi m
      exact hm.trans (ih (hm.input.trans hi))

/-- A push after others. -/
lemma Puts.push (h : v.Puts ms v') (hi : v.input = true) (m : InputMsg) :
    v.Puts (ms ++ [m]) (v'.inPush m) := h.trans (puts_inPush (h.input.trans hi) m)

/-- Messages that press no key of the keyboard, the mouse or the pointer. -/
def Quiet (ms : List InputMsg) : Prop :=
  ∀ m ∈ ms, m.evType ≠ Evdev.key ∨ m.dev = indevGamepad

lemma quiet_nil : Quiet [] := fun m hm => by cases hm

lemma Quiet.append (h : Quiet ms) (h' : Quiet ms') : Quiet (ms ++ ms') := by
  intro m hm
  rcases List.mem_append.mp hm with hm | hm
  · exact h m hm
  · exact h' m hm

lemma quiet_singleton {m : InputMsg} (h : m.evType ≠ Evdev.key ∨ m.dev = indevGamepad) :
    Quiet [m] := List.forall_mem_singleton.mpr h

/-- Quiet messages are handed over. -/
def PutsQuiet (v v' : ViewInput) : Prop := ∃ ms, v.Puts ms v' ∧ Quiet ms

lemma PutsQuiet.refl (v : ViewInput) : v.PutsQuiet v := ⟨[], .refl v, quiet_nil⟩

lemma PutsQuiet.push (h : v.PutsQuiet v') (hi : v.input = true) {m : InputMsg}
    (hm : m.evType ≠ Evdev.key ∨ m.dev = indevGamepad) : v.PutsQuiet (v'.inPush m) := by
  obtain ⟨ms, hp, hq⟩ := h
  exact ⟨_, hp.push hi m, hq.append (quiet_singleton hm)⟩

lemma PutsQuiet.pushes (h : v.PutsQuiet v') (hi : v.input = true) (hms : Quiet ms) :
    v.PutsQuiet (v'.inPushes ms) := by
  obtain ⟨ms₀, hp, hq⟩ := h
  exact ⟨_, hp.trans (puts_inPushes (hp.input.trans hi) ms), hq.append hms⟩

/-- Changes of the fields that are not of the queue or the mode. -/
lemma PutsQuiet.aside (h : v.PutsQuiet v') (hlink : v''.link = v'.link) : v.PutsQuiet v'' := by
  obtain ⟨ms, hp, hms⟩ := h
  refine ⟨ms, ?_, hms⟩
  simpa using hp.trans (.nothing hlink)

lemma PutsQuiet.ite {p : Prop} [Decidable p] (h : v.PutsQuiet v') (h' : v.PutsQuiet v'') :
    v.PutsQuiet (if p then v' else v'') := by
  split
  · exact h
  · exact h'

/-- An event that is no key. -/
lemma PutsQuiet.event (h : v.PutsQuiet v') (hi : v.input = true) (dev : ℕ) {type : ℕ}
    (ht : type ≠ Evdev.key) (code : ℕ) (x : ℤ) :
    v.PutsQuiet (v'.inPush ⟨dev, type, code, x⟩) := h.push hi (.inl ht)

lemma rel_ne_key : Evdev.rel ≠ Evdev.key := by decide

lemma abs_ne_key : Evdev.abs ≠ Evdev.key := by decide

lemma PutsQuiet.inSyn (h : v.PutsQuiet v') (hi : v.input = true) (dev : ℕ) :
    v.PutsQuiet (v'.inSyn dev) := h.event hi dev (by decide) 0 0

lemma PutsQuiet.inAbsFrom (h : v.PutsQuiet v') (hi : v.input = true) (pos : Option (ℤ × ℤ)) :
    v.PutsQuiet (v'.inAbsFrom pos) := by
  unfold ViewInput.inAbsFrom
  split
  · exact h
  split
  · exact h
  · refine .inSyn (.event (.event ?_ hi _ abs_ne_key _ _) hi _ abs_ne_key _ _) hi _
    exact h.aside rfl

lemma quiet_notches (dev code : ℕ) (w : ℤ) : Quiet (notches dev code w) := by
  intro m hm
  rw [(List.mem_replicate.mp hm).2]
  exact .inl rel_ne_key

/-- The pushes of one wheel. -/
lemma PutsQuiet.turn (h : v.PutsQuiet v') (hi : v.input = true) (dev code code' : ℕ) (x w : ℤ) :
    v.PutsQuiet ((v'.inPush ⟨dev, Evdev.rel, code, x⟩).inPushes (notches dev code' w)) :=
  (h.event hi dev rel_ne_key code x).pushes hi (quiet_notches dev code' w)

lemma PutsQuiet.inWheel (h : v.PutsQuiet v') (hi : v.input = true) (dev : ℕ) (hv hh : ℤ) :
    v.PutsQuiet (v'.inWheel dev hv hh) := by
  unfold ViewInput.inWheel
  by_cases h₁ : hv = 0
  · by_cases h₂ : hh = 0
    · simp only [h₁, h₂, if_true, and_self]
      exact h
    · simp only [h₁, h₂, if_true, if_false, and_false]
      refine PutsQuiet.inSyn ?_ hi dev
      exact (h.turn hi dev _ _ hh (v'.wheelH + hh)).aside rfl
  · have hfirst := h.turn hi dev Evdev.relWheelHiRes Evdev.relWheel hv (v'.wheelV + hv)
    by_cases h₂ : hh = 0
    · simp only [h₁, h₂, if_true, if_false, false_and]
      refine PutsQuiet.inSyn ?_ hi dev
      exact hfirst.aside rfl
    · simp only [h₁, h₂, if_false, false_and]
      refine PutsQuiet.inSyn ?_ hi dev
      refine PutsQuiet.aside (PutsQuiet.turn ?_ hi dev _ _ hh _) rfl
      exact hfirst.aside rfl

/-- The gamepad's messages are quiet, and flushed. -/
lemma padButton_flushed (hi : v.input = true) (b : ℕ) (down : Bool) :
    v.padButton b down = v ∨ ∃ u, v.PutsQuiet u ∧ v.padButton b down = u.inFlush := by
  unfold ViewInput.padButton
  dsimp only
  split
  · exact .inl rfl
  · refine .inr ⟨_, PutsQuiet.inSyn (.ite ?_ ?_) hi _, rfl⟩
    · exact (PutsQuiet.refl v).push hi (.inr rfl)
    · refine PutsQuiet.event (PutsQuiet.event ?_ hi _ abs_ne_key _ _) hi _ abs_ne_key _ _
      exact (PutsQuiet.refl v).aside rfl

lemma padAxis_flushed (hi : v.input = true) (a : ℕ) (x : ℤ) :
    v.padAxis a x = v ∨ ∃ u, v.PutsQuiet u ∧ v.padAxis a x = u.inFlush := by
  unfold ViewInput.padAxis
  split
  · exact .inl rfl
  · exact .inr ⟨_, .inSyn (.event (.refl v) hi _ abs_ne_key _ _) hi _, rfl⟩

lemma padNeutral_flushed (h : v.PutsQuiet v') (hi : v.input = true) :
    ∃ u, v.PutsQuiet u ∧ v'.padNeutral = u.inFlush := by
  have hpad : ∀ {α : Type} (l : List α) (f : α → InputMsg), (∀ x, (f x).dev = indevGamepad) →
      Quiet (l.map f) := by
    intro α l f hf m hm
    obtain ⟨x, -, rfl⟩ := List.mem_map.mp hm
    exact .inr (hf x)
  unfold ViewInput.padNeutral
  dsimp only
  set codes := ((List.range padButtonCount).map padButtonCode).filter (· ≠ 0) with hcodes
  clear_value codes
  have h₁ : v.PutsQuiet
      (v'.inPushes (codes.map fun c => ⟨indevGamepad, Evdev.key, c, 0⟩)) :=
    h.pushes hi (hpad codes _ fun _ => rfl)
  have h₂ : v.PutsQuiet { v'.inPushes
      (codes.map fun c => ⟨indevGamepad, Evdev.key, c, 0⟩) with dpad := 0 } :=
    h₁.aside rfl
  refine ⟨_, PutsQuiet.inSyn (PutsQuiet.pushes ?_ hi ?_) hi _, rfl⟩
  · exact (h₂.event hi _ abs_ne_key _ _).event hi _ abs_ne_key _ _
  · exact hpad (List.range 6) _ fun _ => rfl

/-- The queue is empty after a flush, and everything handed over is out. -/
lemma inFlush_sent (hi : v.input = true) : v.inFlush.sent = v.pushed ∧ v.inFlush.q = [] := by
  unfold inFlush
  rw [if_pos hi]
  exact ⟨rfl, rfl⟩

/-! ## What an event does -/

/-- With input granted the viewer has sent `ms`, and nothing waits in the queue. -/
structure Out (ms : List InputMsg) (v : ViewInput) : Prop where
  input : v.input = true
  localOnly : v.localOnly = false
  q : v.q = []
  sent : v.sent = ms

/-- The event does not concern the remote keys: it is no release that the viewer would forward. -/
def Swallows (v : ViewInput) : InputEvent → Prop
  | .key sc .up => sc = scancodeRctrl ∨ v.rctrlDown = true ∨ viewScancodeToEvdev sc = 0
  | .button b false _ => inButtonCode b = 0
  | .focusLost => False
  | _ => True

/-- The host key turns the capture on. -/
def TurnsOn (v : ViewInput) (ev : InputEvent) : Prop :=
  ev = .key scancodeRctrl .up ∧ v.rctrlDown = true ∧ v.rctrlCombo = false ∧ v.captured = false

/-- What an event does to a viewer with input: send quiet messages only, one key, one button of
the present mouse, turn the capture on, or leave it with a release of everything. -/
inductive Acts (v : ViewInput) (ev : InputEvent) (v' : ViewInput) : Prop
  | quiet (ms : List InputMsg) (hev : v.Swallows ev) (hms : Quiet ms) (ho : v'.Out ms)
      (hc : v'.captured = v.captured)
  | key (sc : ℕ) (edge : KeyEdge) (hev : ev = .key sc edge) (hedge : edge ≠ .rep)
      (hsc : sc ≠ scancodeRctrl) (hcode : viewScancodeToEvdev sc ≠ 0)
      (ho : v'.Out [⟨indevKeyboard, Evdev.key, viewScancodeToEvdev sc,
        if edge = .down then 1 else 0⟩, ⟨indevKeyboard, Evdev.syn, 0, 0⟩])
      (hc : v'.captured = v.captured)
  | button (b : ℕ) (down : Bool) (pos : Option (ℤ × ℤ)) (ms : List InputMsg)
      (hev : ev = .button b down pos) (hcode : inButtonCode b ≠ 0) (hms : Quiet ms)
      (ho : v'.Out (ms ++ [⟨v.mouseDev, Evdev.key, inButtonCode b, if down then 1 else 0⟩,
        ⟨v.mouseDev, Evdev.syn, 0, 0⟩]))
      (hc : v'.captured = v.captured)
  | turnOn (hev : v.TurnsOn ev) (ho : v'.Out []) (hc : v'.captured = true)
  | releaseAll (ms : List InputMsg) (hev : ev = .focusLost ∨ ev = .key scancodeRctrl .up)
      (hms : Quiet ms) (ho : v'.Out (ms ++ [⟨indevAll, 0, 0, 0⟩])) (hc : v'.captured = false)

/-- What was handed over since the viewer was at rest is out after a flush. -/
lemma Out.flush (hg : v.Out []) (h : v.Puts ms v') : v'.inFlush.Out ms := by
  have hi := h.input.trans hg.input
  have hp := puts_inFlush hi
  obtain ⟨hs, hq⟩ := inFlush_sent hi
  refine ⟨hp.input.trans hi, hp.localOnly.trans (h.localOnly.trans hg.localOnly), hq, ?_⟩
  rw [hs, h.pushed, pushed, hg.sent, hg.q]
  rfl

lemma Out.quiet (hg : v.Out []) (h : v.PutsQuiet v') {ev : InputEvent} (hev : v.Swallows ev) :
    v.Acts ev v'.inFlush := by
  obtain ⟨ms, hp, hq⟩ := h
  refine .quiet ms hev hq (hg.flush hp) ?_
  exact (puts_inFlush (hp.input.trans hg.input)).captured.trans hp.captured

/-- Nothing is sent. -/
lemma Out.nothing (hg : v.Out []) {ev : InputEvent} (hev : v.Swallows ev)
    (h : v'.link = v.link) : v.Acts ev v' := by
  simp only [link, Prod.mk.injEq] at h
  obtain ⟨hq, hs, hi, hl, hc⟩ := h
  exact .quiet [] hev quiet_nil ⟨hi.trans hg.input, hl.trans hg.localOnly, hq.trans hg.q,
    hs.trans hg.sent⟩ hc

lemma Out.inReleaseAll (hg : v.Out ms) : v.inReleaseAll.Out (ms ++ [⟨indevAll, 0, 0, 0⟩]) ∧
    v.inReleaseAll.captured = v.captured := by
  have hp := puts_inPush hg.input ⟨indevAll, 0, 0, 0⟩
  have hi := hp.input.trans hg.input
  obtain ⟨hs, hq⟩ := inFlush_sent hi
  have hf := puts_inFlush hi
  refine ⟨⟨hf.input.trans hi, hf.localOnly.trans (hp.localOnly.trans hg.localOnly), hq, ?_⟩,
    hf.captured.trans hp.captured⟩
  rw [show v.inReleaseAll.sent = (v.inPush ⟨indevAll, 0, 0, 0⟩).inFlush.sent from rfl, hs,
    hp.pushed, pushed, hg.q, hg.sent, List.append_nil]

lemma hostKey_acts (hg : v.Out []) (edge : KeyEdge) :
    v.Acts (.key scancodeRctrl edge) (v.hostKey edge) := by
  unfold hostKey
  cases edge with
  | down => exact hg.nothing trivial rfl
  | rep => exact hg.nothing trivial rfl
  | up =>
      dsimp only
      by_cases ht : v.rctrlDown = true ∧ v.rctrlCombo = false
      · rw [if_pos ht, captureSet, if_neg (by simp [hg.input]), if_neg (by simp)]
        by_cases hc : v.captured = true
        · have hout : Out [] { v with captured := !v.captured, absX := -1, absY := -1 } :=
            ⟨hg.input, hg.localOnly, hg.q, hg.sent⟩
          obtain ⟨ho, hcap⟩ := hout.inReleaseAll
          rw [if_neg (by simp [hc])]
          refine .releaseAll [] (.inr rfl) quiet_nil ⟨ho.input, ho.localOnly, ho.q, ho.sent⟩ ?_
          refine hcap.trans ?_
          simp [hc]
        · rw [if_pos (by simp [hc])]
          refine .turnOn ⟨rfl, ht.1, ht.2, by simpa using hc⟩
            ⟨hg.input, hg.localOnly, hg.q, hg.sent⟩ ?_
          simp [hc]
      · rw [if_neg ht]
        exact hg.nothing (.inl rfl) rfl

lemma forwardKey_acts (hg : v.Out []) {sc : ℕ} (hsc : sc ≠ scancodeRctrl) (edge : KeyEdge) :
    v.Acts (.key sc edge) (v.forwardKey sc edge) := by
  unfold forwardKey
  by_cases hrep : edge = .rep
  · rw [if_pos hrep, hrep]
    exact hg.nothing trivial rfl
  rw [if_neg hrep]
  dsimp only
  by_cases hcode : viewScancodeToEvdev sc = 0
  · rw [if_pos hcode]
    refine hg.nothing ?_ rfl
    cases edge with
    | down => exact trivial
    | rep => exact trivial
    | up => exact .inr (.inr hcode)
  · rw [if_neg hcode]
    have hp := ((Puts.refl v).push hg.input ⟨indevKeyboard, Evdev.key, viewScancodeToEvdev sc,
      if edge = .down then 1 else 0⟩).push hg.input ⟨indevKeyboard, Evdev.syn, 0, 0⟩
    refine .key sc edge rfl hrep hsc hcode (hg.flush hp) ?_
    exact (puts_inFlush (hp.input.trans hg.input)).captured.trans hp.captured

/-- **What an event does.** -/
lemma inputEvent_acts (hg : v.Out []) (ev : InputEvent) : v.Acts ev (v.inputEvent ev).1 := by
  have hin : ¬(v.input = false ∨ v.localOnly = true) := by simp [hg.input, hg.localOnly]
  cases ev with
  | key sc edge =>
      rw [inputEvent, if_neg hin]
      by_cases hsc : sc = scancodeRctrl
      · rw [if_pos hsc, hsc]
        exact hostKey_acts hg edge
      rw [if_neg hsc]
      by_cases hr : v.rctrlDown = true
      · rw [if_pos hr, hostCombo]
        split <;> rename_i hedge
        · subst hedge
          exact hg.nothing trivial rfl
        · refine hg.nothing ?_ rfl
          cases edge with
          | down => exact trivial
          | rep => exact trivial
          | up => exact .inr (.inl hr)
      · rw [if_neg hr]
        exact forwardKey_acts hg hsc edge
  | motion dx dy pos =>
      rw [inputEvent, if_neg hin]
      by_cases hc : v.captured = true
      · rw [if_pos hc]
        split
        · exact hg.nothing trivial rfl
        · refine hg.quiet (.inSyn (.ite (.ite (.refl v) ?_) (.event (.ite (.refl v) ?_) hg.input _
            rel_ne_key _ _)) hg.input _) trivial
          · exact .event (.refl v) hg.input _ rel_ne_key _ _
          · exact .event (.refl v) hg.input _ rel_ne_key _ _
      · rw [if_neg hc]
        exact hg.quiet (.inAbsFrom (.refl v) hg.input pos) trivial
  | button b down pos =>
      rw [inputEvent, if_neg hin]
      dsimp only
      by_cases hcode : inButtonCode b = 0
      · rw [if_pos hcode]
        refine hg.nothing ?_ rfl
        cases down with
        | true => exact trivial
        | false => exact hcode
      · rw [if_neg hcode]
        obtain ⟨ms, hp, hq⟩ : v.PutsQuiet (if v.captured then v else v.inAbsFrom pos) :=
          .ite (.refl v) (.inAbsFrom (.refl v) hg.input pos)
        have hp' := (hp.push hg.input ⟨v.mouseDev, Evdev.key, inButtonCode b,
          if down then 1 else 0⟩).push hg.input ⟨v.mouseDev, Evdev.syn, 0, 0⟩
        rw [List.append_assoc] at hp'
        refine .button b down pos ms rfl hcode hq (hg.flush hp') ?_
        exact (puts_inFlush (hp'.input.trans hg.input)).captured.trans hp'.captured
  | wheel hv hh pos =>
      rw [inputEvent, if_neg hin]
      refine hg.quiet (.inWheel (.ite (.refl v) ?_) hg.input _ hv hh) trivial
      exact .inAbsFrom (.refl v) hg.input pos
  | focusLost =>
      rw [inputEvent]
      dsimp only
      rw [if_pos hg.input]
      obtain ⟨ms, hq, ho, hc⟩ : ∃ ms, Quiet ms ∧
          (captureSet { v with rctrlDown := false } false).Out ms ∧
          (captureSet { v with rctrlDown := false } false).captured = false := by
        rw [captureSet, if_neg (by simp)]
        dsimp only
        by_cases hc : v.captured = true
        · have hout : Out [] { v with
              rctrlDown := false, captured := false, absX := -1, absY := -1 } :=
            ⟨hg.input, hg.localOnly, hg.q, hg.sent⟩
          obtain ⟨ho, hcap⟩ := hout.inReleaseAll
          rw [if_neg (by simp [hc]), if_neg (by simp)]
          exact ⟨_, quiet_singleton (.inl (show (0 : ℕ) ≠ Evdev.key by decide)), ho, hcap⟩
        · rw [if_pos (by simp [hc])]
          exact ⟨[], quiet_nil, ⟨hg.input, hg.localOnly, hg.q, hg.sent⟩, by simpa using hc⟩
      obtain ⟨ho', hc'⟩ := ho.inReleaseAll
      exact .releaseAll ms (.inl rfl) hq ho' (hc'.trans hc)
  | padAdded opens => exact hg.nothing trivial rfl
  | padRemoved =>
      rw [inputEvent]
      split
      · dsimp only
        rw [if_pos hg.input]
        have h₀ : v.PutsQuiet { v with pad := false } :=
          (PutsQuiet.refl v).aside rfl
        obtain ⟨u, hu, he⟩ := padNeutral_flushed h₀ hg.input
        rw [he]
        exact hg.quiet hu trivial
      · exact hg.nothing trivial rfl
  | padButton b down =>
      rw [inputEvent]
      split
      · obtain he | ⟨u, hu, he⟩ := padButton_flushed hg.input b down
        · rw [he]
          exact hg.nothing trivial rfl
        · rw [he]
          exact hg.quiet hu trivial
      · exact hg.nothing trivial rfl
  | padAxis a x =>
      rw [inputEvent]
      split
      · obtain he | ⟨u, hu, he⟩ := padAxis_flushed hg.input a x
        · rw [he]
          exact hg.nothing trivial rfl
        · rw [he]
          exact hg.quiet hu trivial
      · exact hg.nothing trivial rfl

end ViewInput

end Sremfb
