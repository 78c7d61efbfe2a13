import Sremfb.View.Input
import Sremfb.Lib.Run

/-!
# Keys that stay down

The viewer and the server's devices together.  Each local event is handled by the viewer and the
messages it sends are delivered to the server in order.  The keys and buttons that are down
locally are recorded as the viewer's window hears of them; without the focus it hears of none, so
they count as up.

A press is forwarded to the device of its moment and its release must reach the same device.  Two
things come between them.  A key released while the host key is held is swallowed, although its
press was forwarded.  And a mouse button pressed on the absolute pointer and released after the
capture was turned on is released on the relative mouse, which never saw it.  `Tidy` excludes the
two; under it, what is down remotely is held locally (`Fair`), so with nothing held here nothing
is down there (`nothing_stuck`).
-/

namespace Sremfb

open Lib

/-- Where the compositor's layout puts a position. -/
abbrev Placement := ℕ → ℤ → Option ℤ

/-- The viewer, the server's devices, and the local keys and buttons that are down. -/
structure Desk where
  view : ViewInput
  remote : Input
  keys : List ℕ := []
  buttons : List ℕ := []
  quit : Bool := false

namespace Desk

/-- The keys that are down after an event. -/
def keysAfter (ks : List ℕ) : InputEvent → List ℕ
  | .key sc .up => ks.filter (· ≠ sc)
  | .key sc _ => sc :: ks
  | .focusLost => []
  | _ => ks

/-- The mouse buttons that are down after an event. -/
def buttonsAfter (bs : List ℕ) : InputEvent → List ℕ
  | .button b down _ => if down then b :: bs else bs.filter (· ≠ b)
  | .focusLost => []
  | _ => bs

/-- One local event, with the layout at that moment.  A viewer that quit is gone. -/
def step (s : Desk) (a : Placement × InputEvent) : Desk :=
  if s.quit then s
  else
    let r := s.view.inputEvent a.2
    { view := { r.1 with sent := [] }
      remote := s.remote.msgs a.1 r.1.sent
      keys := keysAfter s.keys a.2
      buttons := buttonsAfter s.buttons a.2
      quit := r.2 }

/-- A connection on which input was just granted. -/
structure Start (s : Desk) : Prop where
  view : s.view.Out []
  remote : ∃ opened, inputStart opened = some s.remote

/-- The event is none of the two that leave something down: a key that is down remotely is not
released while the host key is held, and the capture is not turned on while a button of the
pointer is down. -/
def Tidy (s : Desk) (a : Placement × InputEvent) : Prop :=
  match a.2 with
  | .key sc .up =>
      (sc ≠ scancodeRctrl → s.view.rctrlDown = true →
        (s.remote.dev indevKeyboard).down (viewScancodeToEvdev sc) = false) ∧
      (s.view.TurnsOn (.key sc .up) → (s.remote.dev indevPointer).Free)
  | _ => True

/-- The device of the mouse in the other mode. -/
def otherDev (v : ViewInput) : ℕ := if v.captured then indevPointer else indevMouse

/-- **The joint invariant.**  What is down remotely is held locally, and the mouse of the other
mode has nothing down. -/
structure Fair (s : Desk) : Prop where
  view : s.view.Out []
  ok : s.remote.Ok
  keyboard : ∀ k, (s.remote.dev indevKeyboard).down k = true →
    k ≠ 0 ∧ ∃ sc ∈ s.keys, sc ≠ scancodeRctrl ∧ viewScancodeToEvdev sc = k
  mouse : ∀ k, (s.remote.dev s.view.mouseDev).down k = true →
    k ≠ 0 ∧ ∃ b ∈ s.buttons, inButtonCode b = k
  other : (s.remote.dev (otherDev s.view)).Free

/-! ## The start -/

lemma indevOf_clear (fd : Bool) (i : ℕ) :
    (indevOf fd i).down = (fun _ => false) ∧ (indevOf fd i).out = [] := by
  unfold indevOf
  split <;> exact ⟨rfl, rfl⟩

lemma Start.remote_clear {s : Desk} (h : s.Start) : s.remote.Ok ∧ ∀ i, (s.remote.dev i).Free := by
  obtain ⟨opened, ho⟩ := h.remote
  have hdev : ∀ i, s.remote.dev i = indevOf (opened i) i := by
    intro i
    unfold inputStart at ho
    split at ho
    · rw [← Option.some.inj ho]
    · cases ho
  have hfree : ∀ i, (s.remote.dev i).Free := by
    intro i k
    rw [hdev, (indevOf_clear _ i).1]
  refine ⟨fun i => ⟨fun k => ?_, fun k hk => ?_⟩, hfree⟩
  · rw [hfree i k, Indev.pressed, hdev, (indevOf_clear _ i).2]
    rfl
  · rw [hfree i k] at hk
    cases hk

lemma Start.fair {s : Desk} (h : s.Start) : s.Fair := by
  obtain ⟨hok, hfree⟩ := h.remote_clear
  refine ⟨h.view, hok, fun k hk => ?_, fun k hk => ?_, hfree _⟩
  · rw [hfree _ k] at hk
    cases hk
  · rw [hfree _ k] at hk
    cases hk

/-! ## One event -/

section Step

variable {place : Placement} {s : Input} {v v' : ViewInput} {ms : List InputMsg}

lemma not_mem_of_quiet (hq : ViewInput.Quiet ms) {i : ℕ} (hi : i ≠ indevGamepad) (k : ℕ) :
    ⟨i, Evdev.key, k, 1⟩ ∉ ms := by
  intro h
  rcases hq _ h with h | h
  · exact absurd rfl h
  · exact absurd h hi

lemma down_of_quiet (hs : s.Ok) (hq : ViewInput.Quiet ms) {i k : ℕ} (hi : i ≠ indevGamepad)
    (hk : ((s.msgs place ms).dev i).down k = true) : (s.dev i).down k = true := by
  rcases Input.down_of_msgs hs hk with h | h
  · exact h
  · exact absurd h (not_mem_of_quiet hq hi k)

/-- After a forwarded release the keys that are down are others, and were down before. -/
lemma down_of_forwarded_release (hs : s.Ok) {i c k : ℕ} (hi : 1 ≤ i ∧ i ≤ indevGamepad)
    (hk : ((s.msgs place [⟨i, Evdev.key, c, 0⟩, ⟨i, Evdev.syn, 0, 0⟩]).dev i).down k = true) :
    (s.dev i).down k = true ∧ k ≠ c := by
  have hk₁ : ((s.msg place ⟨i, Evdev.key, c, 0⟩).dev i).down k = true := by
    have hsyn : s.msgs place [⟨i, Evdev.key, c, 0⟩, ⟨i, Evdev.syn, 0, 0⟩] =
        (s.msg place ⟨i, Evdev.key, c, 0⟩).msgs place [⟨i, Evdev.syn, 0, 0⟩] := rfl
    rw [hsyn] at hk
    refine (Input.down_of_msgs (hs.msg _ _) hk).resolve_right fun h => ?_
    simp [Evdev.key, Evdev.syn] at h
  constructor
  · refine (Input.down_of_msg hs hk₁).resolve_right fun h => ?_
    simp at h
  · rintro rfl
    rw [Input.up_of_release hs hi] at hk₁
    cases hk₁

/-- A device nothing is pressed on stays free. -/
lemma free_of_msgs (hs : s.Ok) {i : ℕ} (hfree : (s.dev i).Free)
    (hno : ∀ k, ⟨i, Evdev.key, k, 1⟩ ∉ ms) : ((s.msgs place ms).dev i).Free := by
  intro k
  by_contra hk
  rcases Input.down_of_msgs hs (Bool.not_eq_false _ ▸ hk) with h | h
  · rw [hfree k] at h
    cases h
  · exact hno k h

lemma mouseDev_cases (v : ViewInput) :
    v.captured = true ∧ v.mouseDev = indevMouse ∧ otherDev v = indevPointer ∨
      v.captured = false ∧ v.mouseDev = indevPointer ∧ otherDev v = indevMouse := by
  unfold ViewInput.mouseDev otherDev
  cases v.captured <;> simp

/-- The two mice are devices of their own. -/
lemma mouseDev_ne (v : ViewInput) : v.mouseDev ≠ indevGamepad ∧ otherDev v ≠ indevGamepad ∧
    v.mouseDev ≠ indevKeyboard ∧ otherDev v ≠ indevKeyboard ∧ otherDev v ≠ v.mouseDev ∧
    1 ≤ v.mouseDev ∧ v.mouseDev ≤ indevGamepad ∧ 1 ≤ otherDev v ∧ otherDev v ≤ indevGamepad := by
  rcases mouseDev_cases v with ⟨-, h, h'⟩ | ⟨-, h, h'⟩ <;> rw [h, h'] <;> decide

lemma sameDevs (hc : v'.captured = v.captured) :
    v'.mouseDev = v.mouseDev ∧ otherDev v' = otherDev v := by
  unfold ViewInput.mouseDev otherDev
  rw [hc]
  exact ⟨rfl, rfl⟩

lemma mem_keysAfter {ks : List ℕ} {sc : ℕ} {ev : InputEvent} (h : sc ∈ ks)
    (hup : ev ≠ .key sc .up) (hfocus : ev ≠ .focusLost) : sc ∈ keysAfter ks ev := by
  cases ev with
  | key sc' edge =>
      cases edge with
      | up =>
          have hne : sc ≠ sc' := fun he => hup (by rw [he])
          simpa [keysAfter, hne] using h
      | down | rep => exact List.mem_cons_of_mem _ h
  | focusLost => exact absurd rfl hfocus
  | motion | button | wheel | padAdded | padRemoved | padButton | padAxis => exact h

lemma mem_buttonsAfter {bs : List ℕ} {b : ℕ} {ev : InputEvent} (h : b ∈ bs)
    (hup : ∀ pos, ev ≠ .button b false pos) (hfocus : ev ≠ .focusLost) :
    b ∈ buttonsAfter bs ev := by
  cases ev with
  | button b' down pos =>
      cases down with
      | true => exact List.mem_cons_of_mem _ h
      | false =>
          have hne : b ≠ b' := fun he => hup pos (by rw [he])
          simpa [buttonsAfter, hne] using h
  | focusLost => exact absurd rfl hfocus
  | key | motion | wheel | padAdded | padRemoved | padButton | padAxis => exact h

end Step

variable {s : Desk} {a : Placement × InputEvent}

/-- The messages of the event were delivered, and the viewer is at rest again. -/
structure Delivered (s : Desk) (a : Placement × InputEvent) (ms : List InputMsg) (s' : Desk) :
    Prop where
  view : s'.view.Out []
  remote : s'.remote = s.remote.msgs a.1 ms
  keys : s'.keys = keysAfter s.keys a.2
  buttons : s'.buttons = buttonsAfter s.buttons a.2

lemma delivered_step (hq : s.quit = false) {ms : List InputMsg}
    (ho : (s.view.inputEvent a.2).1.Out ms) : Delivered s a ms (s.step a) ∧
      (s.step a).view.captured = (s.view.inputEvent a.2).1.captured := by
  unfold step
  rw [if_neg (by simp [hq])]
  refine ⟨⟨⟨ho.input, ho.localOnly, ho.q, rfl⟩, ?_, rfl, rfl⟩, rfl⟩
  dsimp only
  rw [ho.sent]

/-- Quiet messages: nothing goes down, and no forwarded release is missing. -/
lemma Fair.quiet (hf : s.Fair) (ht : Tidy s a) {s' : Desk} {ms : List InputMsg}
    (hd : Delivered s a ms s') (hev : s.view.Swallows a.2) (hms : ViewInput.Quiet ms)
    (hc : s'.view.captured = s.view.captured) : s'.Fair := by
  obtain ⟨hmouse, hother⟩ := sameDevs hc
  obtain ⟨hg, hg', -⟩ := mouseDev_ne s.view
  have hfocus : a.2 ≠ .focusLost := by
    intro he
    rw [he] at hev
    exact hev
  refine ⟨hd.view, ?_, fun k hk => ?_, fun k hk => ?_, fun k => ?_⟩
  · rw [hd.remote]
    exact hf.ok.msgs _ ms
  · rw [hd.remote] at hk
    have hk := down_of_quiet hf.ok hms (by decide) hk
    obtain ⟨hk0, sc, hsc, hrc, hcode⟩ := hf.keyboard k hk
    refine ⟨hk0, sc, ?_, hrc, hcode⟩
    rw [hd.keys]
    refine mem_keysAfter hsc (fun he => ?_) hfocus
    -- the release of a key that is down was not swallowed
    simp only [he, ViewInput.Swallows] at hev
    simp only [Tidy, he] at ht
    rcases hev with h | h | h
    · exact hrc h
    · rw [← hcode, ht.1 hrc h] at hk
      cases hk
    · exact hk0 (hcode.symm.trans h)
  · rw [hd.remote, hmouse] at hk
    have hk := down_of_quiet hf.ok hms hg hk
    obtain ⟨hk0, b, hb, hcode⟩ := hf.mouse k hk
    refine ⟨hk0, b, ?_, hcode⟩
    rw [hd.buttons]
    refine mem_buttonsAfter hb (fun pos he => ?_) hfocus
    rw [he] at hev
    exact hk0 (hcode.symm.trans hev)
  · rw [hd.remote, hother]
    exact free_of_msgs hf.ok hf.other (not_mem_of_quiet hms hg') k

/-- One key of the keyboard. -/
lemma Fair.key (hf : s.Fair) {s' : Desk} {sc : ℕ} {edge : KeyEdge} (hev : a.2 = .key sc edge)
    (hedge : edge ≠ .rep) (hsc : sc ≠ scancodeRctrl) (hcode : viewScancodeToEvdev sc ≠ 0)
    (hd : Delivered s a [⟨indevKeyboard, Evdev.key, viewScancodeToEvdev sc,
      if edge = .down then 1 else 0⟩, ⟨indevKeyboard, Evdev.syn, 0, 0⟩] s')
    (hc : s'.view.captured = s.view.captured) : s'.Fair := by
  obtain ⟨hmouse, hother⟩ := sameDevs hc
  obtain ⟨-, -, hkb, hkb', -⟩ := mouseDev_ne s.view
  have hno : ∀ {i}, i ≠ indevKeyboard → ∀ k, (⟨i, Evdev.key, k, 1⟩ : InputMsg) ∉
      [⟨indevKeyboard, Evdev.key, viewScancodeToEvdev sc, if edge = .down then 1 else 0⟩,
        ⟨indevKeyboard, Evdev.syn, 0, 0⟩] := by
    intro i hi k
    simp [hi]
  refine ⟨hd.view, ?_, fun k hk => ?_, fun k hk => ?_, ?_⟩
  · rw [hd.remote]
    exact hf.ok.msgs _ _
  · rw [hd.keys, hev]
    rw [hd.remote] at hk
    cases edge with
    | rep => exact absurd rfl hedge
    | down =>
        rcases Input.down_of_msgs hf.ok hk with h | h
        · obtain ⟨hk0, sc', hmem, hrest⟩ := hf.keyboard k h
          exact ⟨hk0, sc', List.mem_cons_of_mem _ hmem, hrest⟩
        · obtain rfl : k = viewScancodeToEvdev sc := by simpa using h
          exact ⟨hcode, sc, List.mem_cons_self .., hsc, rfl⟩
    | up =>
        -- the release arrived, so the key that is still down is another one
        obtain ⟨hk₀, hne⟩ := down_of_forwarded_release hf.ok (by decide) hk
        obtain ⟨hk0, sc', hmem, hrc, hcode'⟩ := hf.keyboard k hk₀
        have hne' : sc' ≠ sc := by
          rintro rfl
          exact hne hcode'.symm
        exact ⟨hk0, sc', by simp [keysAfter, hmem, hne'], hrc, hcode'⟩
  · rw [hd.remote, hmouse] at hk
    have hk₀ := (Input.down_of_msgs hf.ok hk).resolve_right (hno hkb k)
    rw [hd.buttons, hev]
    exact hf.mouse k hk₀
  · rw [hd.remote, hother]
    exact free_of_msgs hf.ok hf.other (hno hkb')

/-- One button of the present mouse. -/
lemma Fair.button (hf : s.Fair) {s' : Desk} {b : ℕ} {down : Bool} {pos : Option (ℤ × ℤ)}
    {ms : List InputMsg} (hev : a.2 = .button b down pos) (hcode : inButtonCode b ≠ 0)
    (hms : ViewInput.Quiet ms)
    (hd : Delivered s a (ms ++ [⟨s.view.mouseDev, Evdev.key, inButtonCode b,
      if down then 1 else 0⟩, ⟨s.view.mouseDev, Evdev.syn, 0, 0⟩]) s')
    (hc : s'.view.captured = s.view.captured) : s'.Fair := by
  obtain ⟨hmouse, hother⟩ := sameDevs hc
  obtain ⟨hg, hg', hkb, -, hom, hge, hle, -⟩ := mouseDev_ne s.view
  have hok := hf.ok.msgs a.1 ms
  have hno : ∀ {i}, i ≠ s.view.mouseDev → ∀ k, (⟨i, Evdev.key, k, 1⟩ : InputMsg) ∉
      [⟨s.view.mouseDev, Evdev.key, inButtonCode b, if down then 1 else 0⟩,
        ⟨s.view.mouseDev, Evdev.syn, 0, 0⟩] := by
    intro i hi k
    simp [hi]
  have hremote := hd.remote
  rw [Input.msgs_append] at hremote
  refine ⟨hd.view, ?_, fun k hk => ?_, fun k hk => ?_, ?_⟩
  · rw [hremote]
    exact hok.msgs _ _
  · rw [hremote] at hk
    have hk₁ := (Input.down_of_msgs hok hk).resolve_right (hno (Ne.symm hkb) k)
    rw [hd.keys, hev]
    exact hf.keyboard k (down_of_quiet hf.ok hms (by decide) hk₁)
  · rw [hd.buttons, hev]
    rw [hremote, hmouse] at hk
    cases down with
    | true =>
        rcases Input.down_of_msgs hok hk with h | h
        · obtain ⟨hk0, b', hmem, hb'⟩ := hf.mouse k (down_of_quiet hf.ok hms hg h)
          exact ⟨hk0, b', List.mem_cons_of_mem _ hmem, hb'⟩
        · obtain rfl : k = inButtonCode b := by simpa using h
          exact ⟨hcode, b, List.mem_cons_self .., rfl⟩
    | false =>
        obtain ⟨hk₀, hne⟩ := down_of_forwarded_release hok ⟨hge, hle⟩ hk
        obtain ⟨hk0, b', hmem, hb'⟩ := hf.mouse k (down_of_quiet hf.ok hms hg hk₀)
        have hne' : b' ≠ b := by
          rintro rfl
          exact hne hb'.symm
        exact ⟨hk0, b', by simp [buttonsAfter, hmem, hne'], hb'⟩
  · rw [hremote, hother]
    exact free_of_msgs hok (free_of_msgs hf.ok hf.other (not_mem_of_quiet hms hg')) (hno hom)

/-- The capture is turned on with no button of the pointer down. -/
lemma Fair.turnOn (hf : s.Fair) (ht : Tidy s a) {s' : Desk} (hd : Delivered s a [] s')
    (hev : s.view.TurnsOn a.2) (hc : s'.view.captured = true) : s'.Fair := by
  obtain ⟨he, hrctrl, hcombo, hcap⟩ := hev
  have hremote : s'.remote = s.remote := hd.remote
  obtain ⟨-, hm', ho'⟩ | ⟨h, -⟩ := mouseDev_cases s'.view
  · obtain ⟨h, -⟩ | ⟨-, -, ho⟩ := mouseDev_cases s.view
    · rw [hcap] at h
      cases h
    have hmouse := hf.other
    rw [ho] at hmouse
    simp only [Tidy, he] at ht
    refine ⟨hd.view, hremote ▸ hf.ok, fun k hk => ?_, fun k hk => ?_, ?_⟩
    · rw [hremote] at hk
      obtain ⟨hk0, sc, hmem, hrc, hcode⟩ := hf.keyboard k hk
      refine ⟨hk0, sc, ?_, hrc, hcode⟩
      rw [hd.keys, he]
      simp [keysAfter, hmem, hrc]
    · rw [hremote, hm', hmouse k] at hk
      cases hk
    · rw [hremote, ho']
      exact ht.2 ⟨rfl, hrctrl, hcombo, hcap⟩
  · rw [hc] at h
    cases h

/-- Everything is released. -/
lemma Fair.releaseAll (hf : s.Fair) {s' : Desk} {ms : List InputMsg}
    (hd : Delivered s a (ms ++ [⟨indevAll, 0, 0, 0⟩]) s') : s'.Fair := by
  have hok := hf.ok.msgs a.1 ms
  have hremote : s'.remote = (s.remote.msgs a.1 ms).msg a.1 ⟨indevAll, 0, 0, 0⟩ := by
    rw [hd.remote, Input.msgs_append]
    rfl
  have hfree : ∀ {i}, 1 ≤ i ∧ i ≤ indevGamepad → (s'.remote.dev i).Free := by
    intro i hi
    rw [hremote]
    exact Input.free_of_releaseAll hok hi
  obtain ⟨-, -, -, -, -, hge, hle, hge', hle'⟩ := mouseDev_ne s'.view
  refine ⟨hd.view, ?_, fun k hk => ?_, fun k hk => ?_, hfree ⟨hge', hle'⟩⟩
  · rw [hremote]
    exact hok.msg _ _
  · rw [hfree (by decide) k] at hk
    cases hk
  · rw [hfree ⟨hge, hle⟩ k] at hk
    cases hk

/-- **The step lemma.** -/
lemma Fair.step (hf : s.Fair) (ht : Tidy s a) : (s.step a).Fair := by
  by_cases hq : s.quit = true
  · rw [Desk.step, if_pos hq]
    exact hf
  rw [Bool.not_eq_true] at hq
  cases ViewInput.inputEvent_acts hf.view a.2 with
  | quiet ms hev hms ho hc =>
      obtain ⟨hd, hcap⟩ := delivered_step hq ho
      exact hf.quiet ht hd hev hms (hcap.trans hc)
  | key sc edge hev hedge hsc hcode ho hc =>
      obtain ⟨hd, hcap⟩ := delivered_step hq ho
      exact hf.key hev hedge hsc hcode hd (hcap.trans hc)
  | button b down pos ms hev hcode hms ho hc =>
      obtain ⟨hd, hcap⟩ := delivered_step hq ho
      exact hf.button hev hcode hms hd (hcap.trans hc)
  | turnOn hev ho hc =>
      obtain ⟨hd, hcap⟩ := delivered_step hq ho
      exact hf.turnOn ht hd hev (hcap.trans hc)
  | releaseAll ms hev hms ho hc => exact hf.releaseAll (delivered_step hq ho).1

/-- **Nothing stays down.**  On a connection with input, in every run of tidy events: whenever no
local key and no mouse button is down, no key or button is pressed on the keyboard, the mouse or
the pointer of the server. -/
theorem nothing_stuck {s₀ : Desk} (h₀ : s₀.Start) (as : List (Placement × InputEvent))
    (has : Along Tidy Desk.step s₀ as) :
    let s := run Desk.step s₀ as
    s.keys = [] → s.buttons = [] → ∀ i ∈ [indevKeyboard, indevMouse, indevPointer], ∀ k,
      (s.remote.dev i).pressed k = false := by
  intro s hkeys hbuttons
  have hf : s.Fair := run_invariant (fun s a ht hf => hf.step ht) h₀.fair has
  have hkb : (s.remote.dev indevKeyboard).Free := by
    intro k
    by_contra hk
    obtain ⟨-, sc, hmem, -⟩ := hf.keyboard k (by simpa using hk)
    rw [hkeys] at hmem
    cases hmem
  have hmouse : (s.remote.dev s.view.mouseDev).Free := by
    intro k
    by_contra hk
    obtain ⟨-, b, hmem, -⟩ := hf.mouse k (by simpa using hk)
    rw [hbuttons] at hmem
    cases hmem
  have hother := hf.other
  have hboth : (s.remote.dev indevMouse).Free ∧ (s.remote.dev indevPointer).Free := by
    obtain ⟨-, hm, ho⟩ | ⟨-, hm, ho⟩ := mouseDev_cases s.view
    · rw [hm] at hmouse
      rw [ho] at hother
      exact ⟨hmouse, hother⟩
    · rw [hm] at hmouse
      rw [ho] at hother
      exact ⟨hother, hmouse⟩
  intro i hi k
  rw [(hf.ok i).tracks k]
  simp only [List.mem_cons, List.not_mem_nil, or_false] at hi
  rcases hi with rfl | rfl | rfl
  · exact hkb k
  · exact hboth.1 k
  · exact hboth.2 k

/-! ## Two keys that stay down -/

/-- A connection on which all four devices were created. -/
def granted : Desk where
  view := { input := true }
  remote := { dev := fun i => indevOf true i }

/-- A layout that knows the client's monitor. -/
def placed : Placement := fun _ x => some x

lemma granted_start : granted.Start := ⟨⟨rfl, rfl, rfl, rfl⟩, fun _ => true, rfl⟩

/-- The key A, then a click on the remote screen. -/
theorem nothing_stuck_click :
    let s := run Desk.step granted [(placed, .key 4 .down), (placed, .key 4 .up),
      (placed, .button 1 true (some (3, 5))), (placed, .button 1 false (some (3, 5)))]
    s.remote.nEvents = 11 ∧ ∀ i ∈ [indevKeyboard, indevMouse, indevPointer], ∀ k,
      (s.remote.dev i).pressed k = false := by
  refine ⟨by decide +kernel, nothing_stuck granted_start _ ?_ (by decide +kernel)
    (by decide +kernel)⟩
  refine ⟨trivial, ⟨fun _ h => ?_, fun h => ?_⟩, trivial, trivial, trivial⟩
  · exact absurd h (by decide +kernel)
  · exact absurd h.1 (by decide)

/-- **A key and a button that stay down.**  The key A is released while Right Ctrl is held, and a
button is released after the capture was turned on: all keys and buttons are up here, and one is
pressed there. -/
theorem stuck_key_and_stuck_button :
    let s := run Desk.step granted [(placed, .key 4 .down), (placed, .key scancodeRctrl .down),
      (placed, .key 4 .up), (placed, .key scancodeRctrl .up)]
    let t := run Desk.step granted [(placed, .button 1 true (some (3, 5))),
      (placed, .key scancodeRctrl .down), (placed, .key scancodeRctrl .up),
      (placed, .button 1 false none)]
    (s.keys = [] ∧ s.buttons = [] ∧ (s.remote.dev indevKeyboard).pressed 30 = true) ∧
      (t.keys = [] ∧ t.buttons = [] ∧ t.remote.absPlaced = true ∧
        (t.remote.dev indevPointer).pressed Evdev.btnLeft = true) := by
  decide +kernel

end Desk

end Sremfb
