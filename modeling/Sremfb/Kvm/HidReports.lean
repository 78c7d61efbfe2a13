import Sremfb.Kvm.Hid

/-!
# The reports of a message (`input_hid.c`)

`HidInput.sent` lists the reports that a message makes a function send, in order: those of a flush at
a `SYN_REPORT`, at the release of a key or button whose press has not been reported, and at
`SREMFB_INDEV_ALL`.  `step_node` is the tie to the model of the node: these are the reports that are
written, and no others.

`HidInput.part` is what a function has of its own.  A message touches only the part of the function
it is for (`part_step`), unless it lets everything go.
-/

namespace Sremfb

open Lib

/-- What a function has of its own. -/
structure HidPart where
  node : HidNode
  dirty : Bool
  kbd : HidKbd := {}
  lastKbd : List UInt8 := []
  mouse : HidMouse := {}
  lastBtn : UInt8 := 0

namespace HidInput

def part (s : HidInput) : HidFunc → HidPart
  | .keyboard =>
      { node := s.node .keyboard, dirty := s.dirty .keyboard, kbd := s.kbd, lastKbd := s.lastKbd }
  | .mouse =>
      { node := s.node .mouse, dirty := s.dirty .mouse, mouse := s.mouse, lastBtn := s.lastBtn .mouse }
  | .pointer =>
      { node := s.node .pointer, dirty := s.dirty .pointer, mouse := s.ptr,
        lastBtn := s.lastBtn .pointer }

/-- The reports of a flush. -/
def flushReports (s : HidInput) (ev : HidEvent) : HidFunc → List (List UInt8)
  | .keyboard => [s.kbd.report]
  | .mouse => HidMouse.burst HidMouse.mouseReport hidMaxSplit s.mouse
  | .pointer =>
      if s.absPlaced then
        HidMouse.burst (HidMouse.pointerReport (ev.absMap s.absX s.absY)) hidMaxSplit s.ptr
      else []

/-- The bit of a button. -/
def buttonBit (b : ℕ) : UInt8 := 1 <<< UInt8.ofNat b

/-- A release comes before the press was reported. -/
def early (usage : ℕ → UInt8) (s : HidInput) (f : HidFunc) (code : ℕ) (v : ℤ) : Bool :=
  if f = .keyboard then v = 0 ∧ s.kbd.held code = true ∧ s.kbdUsageSent usage code = false
  else
    match hidButtonBit code with
    | none => false
    | some b => v = 0 ∧ (s.mouseOf f).buttons &&& buttonBit b ≠ 0 ∧ s.lastBtn f &&& buttonBit b = 0

/-- The reports that a message makes the function send. -/
def sent (usage : ℕ → UInt8) (s : HidInput) (ev : HidEvent) (f : HidFunc) : List (List UInt8) :=
  if (s.node f).opened = false then []
  else if ev.msg.dev = indevAll then (if ev.msg.evType = 0 then s.letGo.flushReports ev f else [])
  else if HidFunc.ofDev ev.msg.dev ≠ some f then []
  else if ev.msg.evType = Evdev.syn then
    if ev.msg.evCode = Evdev.synReport ∧ s.dirty f = true then s.flushReports ev f else []
  else if ev.msg.evType = Evdev.key then
    if s.early usage f ev.msg.evCode ev.msg.evValue then s.flushReports ev f else []
  else []

section parts

variable {s s' : HidInput} {ev : HidEvent} {f g : HidFunc} {usage : ℕ → UInt8}

lemma part_of_eq (hnode : s'.node f = s.node f) (hdirty : s'.dirty f = s.dirty f)
    (hkbd : f = .keyboard → s'.kbd = s.kbd ∧ s'.lastKbd = s.lastKbd)
    (hmouse : f ≠ .keyboard → s'.mouseOf f = s.mouseOf f ∧ s'.lastBtn f = s.lastBtn f) :
    s'.part f = s.part f := by
  cases f with
  | keyboard =>
      obtain ⟨hk, hl⟩ := hkbd rfl
      simp only [part, hnode, hdirty, hk, hl]
  | mouse =>
      obtain ⟨hm, hl⟩ := hmouse nofun
      have hm' : s'.mouse = s.mouse := hm
      simp only [part, hnode, hdirty, hm', hl]
  | pointer =>
      obtain ⟨hm, hl⟩ := hmouse nofun
      have hm' : s'.ptr = s.ptr := hm
      simp only [part, hnode, hdirty, hm', hl]

/-- A flush touches its own function. -/
lemma part_devFlush (s : HidInput) (ev : HidEvent) (hf : f ≠ g) :
    (s.devFlush ev g).part f = s.part f := by
  obtain ⟨hnode, hdirty⟩ := devFlush_other s ev hf
  refine part_of_eq hnode hdirty (fun hk => ⟨devFlush_kbd s ev g, ?_⟩) fun hk => ⟨?_, ?_⟩
  · subst hk
    cases g with
    | keyboard => exact absurd rfl hf
    | mouse => rfl
    | pointer => rw [devFlush]; split <;> rfl
  · cases g with
    | keyboard => rfl
    | mouse => cases f <;> first | exact absurd rfl hf | exact absurd rfl hk | rfl
    | pointer =>
        rw [devFlush]
        cases f <;> first | exact absurd rfl hf | exact absurd rfl hk | (split <;> rfl)
  · cases g with
    | keyboard => rfl
    | mouse => exact Function.update_of_ne hf ..
    | pointer =>
        rw [devFlush]
        split
        · exact Function.update_of_ne hf ..
        · rfl

lemma part_mark (s : HidInput) (b : Bool) (hf : f ≠ g) :
    ({ s with dirty := Function.update s.dirty g b } : HidInput).part f = s.part f :=
  part_of_eq rfl (Function.update_of_ne hf ..) (fun _ => ⟨rfl, rfl⟩) fun _ => ⟨rfl, rfl⟩

lemma part_setKbd (s : HidInput) (k : HidKbd) (hf : f ≠ .keyboard) :
    ({ s with kbd := k } : HidInput).part f = s.part f :=
  part_of_eq rfl rfl (fun h => absurd h hf) fun _ => ⟨rfl, rfl⟩

lemma part_setMouse (s : HidInput) (m : HidMouse) (hf : f ≠ g) (hg : g ≠ .keyboard) :
    (s.setMouse g m).part f = s.part f := by
  cases f <;> cases g <;> first | exact absurd rfl hf | exact absurd rfl hg | rfl

lemma part_onKey (s : HidInput) (ev : HidEvent) (code : ℕ) (v : ℤ) (hf : f ≠ .keyboard) :
    (s.onKey usage ev code v).part f = s.part f := by
  unfold onKey
  have hflush : (if v = 0 ∧ s.kbd.held code = true ∧ s.kbdUsageSent usage code = false
      then s.kbdFlush ev else s).part f = s.part f := by
    split
    · exact part_devFlush s ev hf
    · rfl
  generalize (if v = 0 ∧ s.kbd.held code = true ∧ s.kbdUsageSent usage code = false
    then s.kbdFlush ev else s) = s₁ at hflush ⊢
  dsimp only
  split
  · exact (part_mark _ true hf).trans ((part_setKbd s₁ _ hf).trans hflush)
  · exact (part_setKbd s₁ _ hf).trans hflush

lemma part_onButton (s : HidInput) (ev : HidEvent) (code : ℕ) (v : ℤ) (hf : f ≠ g)
    (hg : g ≠ .keyboard) : (s.onButton ev g code v).part f = s.part f := by
  unfold onButton
  split
  · rfl
  dsimp only
  split
  · rfl
  split
  · rfl
  split
  · rfl
  refine (part_mark _ true hf).trans ((part_setMouse _ _ hf hg).trans ?_)
  split
  · exact part_devFlush s ev hf
  · rfl

lemma part_dispatch (s : HidInput) (ev : HidEvent) (hf : f ≠ g) :
    (s.dispatch usage ev g).part f = s.part f := by
  unfold dispatch
  dsimp only
  split
  · split
    · exact part_devFlush s ev hf
    · rfl
  split
  · split <;> rename_i hg
    · subst hg
      exact part_onKey s ev _ _ hf
    · exact part_onButton s ev _ _ hf hg
  split
  · split <;> rename_i hg
    · rfl
    split
    · rfl
    · exact (part_mark _ true hf).trans (part_setMouse s _ hf hg)
  split
  · split
    · rfl
    · refine (part_mark _ true hf).trans ?_
      split <;> exact part_of_eq rfl rfl (fun _ => ⟨rfl, rfl⟩) fun _ => ⟨rfl, rfl⟩
  · rfl

lemma ofDev_all : HidFunc.ofDev indevAll = none := rfl

lemma dev_ne_all (hf : HidFunc.ofDev ev.msg.dev = some f) : ev.msg.dev ≠ indevAll := fun h => by
  rw [h, ofDev_all] at hf
  cases hf

lemma step_of_ofDev (hg : HidFunc.ofDev ev.msg.dev = some g) : s.step usage ev =
    if (s.node g).opened = false then s else s.dispatch usage ev g := by
  rw [step, if_neg (dev_ne_all hg), hg]

/-- **A message for another function** leaves the part of this one alone. -/
lemma part_step (usage : ℕ → UInt8) (s : HidInput) (hall : ¬(ev.msg.dev = indevAll ∧ ev.msg.evType = 0))
    (hf : HidFunc.ofDev ev.msg.dev ≠ some f ∨ (s.node f).opened = false) :
    (s.step usage ev).part f = s.part f := by
  by_cases hdev : ev.msg.dev = indevAll
  · rw [step, if_pos hdev, if_neg fun h => hall ⟨hdev, h⟩]
  · cases hg : HidFunc.ofDev ev.msg.dev with
    | none => rw [step, if_neg hdev, hg]
    | some g =>
        rw [step_of_ofDev hg]
        by_cases hclosed : (s.node g).opened = false
        · rw [if_pos hclosed]
        · rw [if_neg hclosed]
          refine part_dispatch s ev ?_
          rintro rfl
          exact hf.elim (fun h => h hg) hclosed

/-! ### What is written -/

/-- A flush writes its reports. -/
lemma node_devFlush (s : HidInput) (ev : HidEvent) (f : HidFunc) :
    (s.devFlush ev f).node f = (s.node f).writes (ev.writes f) (s.flushReports ev f) := by
  cases f with
  | keyboard => simp only [devFlush, kbdFlush, send, flushReports, Function.update_self]
  | mouse => simp only [devFlush, mouseFlush, send, flushReports, Function.update_self]
  | pointer =>
      rw [devFlush, flushReports]
      split
      · simp only [ptrFlush, send, Function.update_self]
      · rfl

lemma node_onKey (s : HidInput) (ev : HidEvent) (code : ℕ) (v : ℤ) :
    (s.onKey usage ev code v).node .keyboard = (s.node .keyboard).writes (ev.writes .keyboard)
      (if s.early usage .keyboard code v then s.flushReports ev .keyboard else []) := by
  have hearly : s.early usage .keyboard code v =
      decide (v = 0 ∧ s.kbd.held code = true ∧ s.kbdUsageSent usage code = false) := rfl
  rw [hearly]
  unfold onKey
  dsimp only
  rw [apply_ite (fun t : HidInput => t.node .keyboard), ite_self]
  by_cases hc : v = 0 ∧ s.kbd.held code = true ∧ s.kbdUsageSent usage code = false
  · rw [if_pos hc, if_pos (decide_eq_true hc)]
    exact node_devFlush s ev .keyboard
  · rw [if_neg hc, decide_eq_false hc]
    rfl

lemma node_setMouse (s : HidInput) (m : HidMouse) : (s.setMouse g m).node = s.node := by
  unfold setMouse
  split <;> rfl

lemma mouseOf_setMouse (hf : f ≠ .keyboard) (s : HidInput) (m : HidMouse) :
    (s.setMouse f m).mouseOf f = m := by
  cases f with
  | keyboard => exact absurd rfl hf
  | mouse | pointer => rfl

/-- A button changes, and the function takes it. -/
structure ButtonOk (s : HidInput) (f : HidFunc) (b : ℕ) (v : ℤ) : Prop where
  value : v = 0 ∨ v = 1
  change : decide ((s.mouseOf f).buttons &&& buttonBit b ≠ 0) = !decide (v = 1)
  placed : f = .pointer → v = 1 → s.absPlaced = true

lemma onButton_of_not (usage : ℕ → UInt8) (ev : HidEvent) {code : ℕ} {v : ℤ} (hf : f ≠ .keyboard)
    (h : ∀ b, hidButtonBit code = some b → ¬s.ButtonOk f b v) :
    s.onButton ev f code v = s ∧ s.early usage f code v = false := by
  unfold onButton early
  rw [if_neg hf]
  cases hb : hidButtonBit code with
  | none => exact ⟨rfl, rfl⟩
  | some b =>
      dsimp only
      by_cases hv : v ≠ 0 ∧ v ≠ 1
      · exact ⟨if_pos hv, decide_eq_false fun hc => hv.1 hc.1⟩
      rw [if_neg hv]
      by_cases hsame : decide ((s.mouseOf f).buttons &&& buttonBit b ≠ 0) = decide (v = 1)
      · refine ⟨if_pos hsame, decide_eq_false fun hc => ?_⟩
        rw [decide_eq_true hc.2.1, hc.1] at hsame
        exact absurd hsame (by decide)
      have hplaced : f = .pointer ∧ v = 1 ∧ s.absPlaced = false := by
        by_contra hne
        refine h b hb ⟨by omega, Bool.eq_not_of_ne hsame, fun hp h1 => ?_⟩
        by_contra hput
        exact hne ⟨hp, h1, (Bool.not_eq_true _).mp hput⟩
      refine ⟨(if_neg hsame).trans (if_pos hplaced), decide_eq_false fun hc => ?_⟩
      exact absurd (hc.1.symm.trans hplaced.2.1) (by decide)

/-- **A button** goes down or up after the early report. -/
lemma onButton_of_ok (usage : ℕ → UInt8) (ev : HidEvent) {code b : ℕ} {v : ℤ} (hf : f ≠ .keyboard)
    (hb : hidButtonBit code = some b) (h : s.ButtonOk f b v) :
    s.onButton ev f code v =
      let t := if s.early usage f code v then s.devFlush ev f else s
      let m := t.mouseOf f
      let t := t.setMouse f { m with
        buttons := if v = 1 then m.buttons ||| buttonBit b else m.buttons &&& ~~~buttonBit b }
      { t with dirty := Function.update t.dirty f true } := by
  have hchange := h.change
  have hearly : (if v = 0 ∧ s.lastBtn f &&& buttonBit b = 0 then s.devFlush ev f else s) =
      if s.early usage f code v then s.devFlush ev f else s := by
    rw [early, if_neg hf, hb]
    refine if_congr ?_ rfl rfl
    rw [decide_eq_true_iff]
    refine ⟨fun hc => ⟨hc.1, ?_, hc.2⟩, fun hc => ⟨hc.1, hc.2.2⟩⟩
    rw [hc.1] at hchange
    exact of_decide_eq_true hchange
  have hv : ¬(v ≠ 0 ∧ v ≠ 1) := fun hne => h.value.elim hne.1 hne.2
  have hplaced : ¬(f = .pointer ∧ v = 1 ∧ s.absPlaced = false) := fun hne =>
    absurd ((h.placed hne.1 hne.2.1).symm.trans hne.2.2) (by decide)
  have hsame : decide ((s.mouseOf f).buttons &&& buttonBit b ≠ 0) ≠ decide (v = 1) := by
    rw [hchange]
    exact Bool.not_ne_self _
  rw [← hearly]
  unfold onButton
  rw [hb]
  dsimp only
  rw [if_neg hv]
  exact (if_neg hsame).trans (if_neg hplaced)

lemma node_onButton (s : HidInput) (ev : HidEvent) (code : ℕ) (v : ℤ) (hf : f ≠ .keyboard) :
    (s.onButton ev f code v).node f = (s.node f).writes (ev.writes f)
      (if s.early usage f code v then s.flushReports ev f else []) := by
  by_cases hok : ∃ b, hidButtonBit code = some b ∧ s.ButtonOk f b v
  · obtain ⟨b, hb, hok⟩ := hok
    rw [onButton_of_ok usage ev hf hb hok]
    dsimp only
    rw [node_setMouse]
    split
    · exact node_devFlush s ev f
    · rfl
  · obtain ⟨hsame, hearly⟩ := onButton_of_not usage ev hf fun b hb hb' => hok ⟨b, hb, hb'⟩
    rw [hsame, hearly]
    rfl

lemma flushReports_devFlush (s : HidInput) (ev ev' : HidEvent) (hf : f ≠ g) :
    (s.devFlush ev g).flushReports ev' f = s.flushReports ev' f := by
  cases g with
  | keyboard => cases f <;> first | exact absurd rfl hf | rfl
  | mouse => cases f <;> first | exact absurd rfl hf | rfl
  | pointer =>
      rw [devFlush]
      cases f <;> first | exact absurd rfl hf | (split <;> rfl)

lemma node_releaseAll (s : HidInput) (ev : HidEvent) (f : HidFunc) :
    (s.releaseAll ev).node f =
      (s.node f).writes (ev.writes f) (s.letGo.flushReports ev f) := by
  simp only [releaseAll]
  cases f with
  | keyboard =>
      rw [(devFlush_other _ ev (by decide)).1, (devFlush_other _ ev (by decide)).1, node_devFlush]
      rfl
  | mouse =>
      rw [(devFlush_other _ ev (by decide)).1, node_devFlush, (devFlush_other _ ev (by decide)).1,
        flushReports_devFlush _ ev ev (by decide)]
      rfl
  | pointer =>
      rw [node_devFlush, (devFlush_other _ ev (by decide)).1, (devFlush_other _ ev (by decide)).1,
        flushReports_devFlush _ ev ev (by decide), flushReports_devFlush _ ev ev (by decide)]
      rfl

lemma node_dispatch (s : HidInput) (ev : HidEvent) (f : HidFunc) :
    (s.dispatch usage ev f).node f = (s.node f).writes (ev.writes f)
      (if ev.msg.evType = Evdev.syn then
        if ev.msg.evCode = Evdev.synReport ∧ s.dirty f = true then s.flushReports ev f else []
      else if ev.msg.evType = Evdev.key then
        if s.early usage f ev.msg.evCode ev.msg.evValue then s.flushReports ev f else []
      else []) := by
  unfold dispatch
  dsimp only
  split
  · split
    · exact node_devFlush s ev f
    · rfl
  split
  · split <;> rename_i hf
    · subst hf
      exact node_onKey s ev _ _
    · exact node_onButton s ev _ _ hf
  split
  · split
    · rfl
    split
    · rfl
    · exact congrFun (node_setMouse s _) f
  split
  · split
    · rfl
    · split <;> rfl
  · rfl

/-- **What a message writes** to a function. -/
lemma step_node (s : HidInput) (ev : HidEvent) (f : HidFunc) :
    (s.step usage ev).node f = (s.node f).writes (ev.writes f) (s.sent usage ev f) := by
  by_cases hopen : (s.node f).opened = false
  · rw [sent, if_pos hopen]
    by_cases hall : ev.msg.dev = indevAll ∧ ev.msg.evType = 0
    · rw [step, if_pos hall.1, if_pos hall.2, node_releaseAll, HidNode.writes_of_closed hopen]
      rfl
    · cases f <;> exact congrArg HidPart.node (part_step usage s hall (.inr hopen))
  rw [sent, if_neg hopen]
  by_cases hall : ev.msg.dev = indevAll
  · rw [step, if_pos hall, if_pos hall]
    split
    · exact node_releaseAll s ev f
    · rfl
  rw [if_neg hall]
  by_cases hf : HidFunc.ofDev ev.msg.dev = some f
  · rw [step_of_ofDev hf, if_neg hopen, if_neg (not_not.mpr hf)]
    exact node_dispatch s ev f
  · rw [if_pos hf]
    have hpart := part_step (f := f) usage s (fun h => hall h.1) (.inl hf)
    cases f <;> exact congrArg HidPart.node hpart

/-! ### A message for this function -/

lemma step_of_msg (usage : ℕ → UInt8) (hf : HidFunc.ofDev ev.msg.dev = some f)
    (hopen : (s.node f).opened = true) : s.step usage ev = s.dispatch usage ev f := by
  rw [step_of_ofDev hf, if_neg (by simp [hopen])]

lemma sent_of_msg (usage : ℕ → UInt8) (hf : HidFunc.ofDev ev.msg.dev = some f)
    (hopen : (s.node f).opened = true) : s.sent usage ev f =
      if ev.msg.evType = Evdev.syn then
        if ev.msg.evCode = Evdev.synReport ∧ s.dirty f = true then s.flushReports ev f else []
      else if ev.msg.evType = Evdev.key then
        if s.early usage f ev.msg.evCode ev.msg.evValue then s.flushReports ev f else []
      else [] := by
  rw [sent, if_neg (by simp [hopen]), if_neg (dev_ne_all hf), if_neg (not_not.mpr hf)]

/-- A message for another function, or for one that is closed, makes it send nothing. -/
lemma sent_of_other (usage : ℕ → UInt8) (s : HidInput)
    (hall : ¬(ev.msg.dev = indevAll ∧ ev.msg.evType = 0))
    (hf : HidFunc.ofDev ev.msg.dev ≠ some f ∨ (s.node f).opened = false) :
    s.sent usage ev f = [] := by
  unfold sent
  split
  · rfl
  rename_i hopen
  split
  · exact if_neg fun h => hall ⟨by assumption, h⟩
  · exact if_pos (hf.resolve_right hopen)

end parts

end HidInput

end Sremfb
