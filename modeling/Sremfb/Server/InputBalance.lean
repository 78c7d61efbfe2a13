import Sremfb.Lib.Run
import Sremfb.Server.Pointer

/-!
# Injected input stays balanced (`input.c`)

What a client's input leaves on the desktop, over the whole life of its devices: they are made,
messages arrive while the layout of the desktop changes, everything is released, the devices are
removed and perhaps made again.

`Indev.Kept` is the invariant of one device: the events of a key alternate and the bit of the key
says which comes next, every axis value is one the axis declares, and a device that is not dirty
has reported all it was given.  `Input.msg_writes` says what one message can write, and each of
those writes keeps the invariant.

A message to `SREMFB_INDEV_ALL` releases everything only with event type 0, the one the protocol
gives it; any other is ignored (`other_type_releases_nothing`).
-/

namespace Sremfb

open Lib Layout

namespace Indev

/-! ## What a device was given -/

/-- The values written for one key. -/
def keyValues (d : Indev) (k : ℕ) : List ℤ :=
  (d.out.filter fun e => e.type = Evdev.key ∧ e.code = k).map UiEvent.value

/-- A press, a release, a press, and so on: `n` of them. -/
def alternating (n : ℕ) : List ℤ := (List.range n).map fun j => if j % 2 = 0 then 1 else 0

/-- Where an axis is: the last value written, 0 before any. -/
def position (d : Indev) (x : ℕ) : ℤ :=
  d.out.foldl (fun v e => if e.type = Evdev.abs ∧ e.code = x then e.value else v) 0

/-- Every event but a report is followed by a report. -/
def Reported (d : Indev) : Prop :=
  ∀ before e after, d.out = before ++ e :: after → e.type ≠ Evdev.syn →
    ∃ r ∈ after, r.type = Evdev.syn ∧ r.code = 0

/-- The events of every key alternate, the bits are the keys pressed, and the values of the axes
are in range. -/
structure Balanced (d : Indev) : Prop where
  alternates : ∀ k, d.keyValues k = alternating (d.keyValues k).length
  pressed : ∀ k, d.down k = d.pressed k
  inRange : ∀ e ∈ d.out, e.type = Evdev.abs →
    d.abss e.code = true ∧ d.absMin e.code ≤ e.value ∧ e.value ≤ d.absMax e.code

/-- Nothing is down, a gamepad is at rest, and everything was reported. -/
structure Settled (i : ℕ) (d : Indev) : Prop where
  free : d.Free
  neutral : i = indevGamepad → ∀ axis ∈ padAxes, d.position axis.1 = 0
  reported : d.Reported

@[simp] lemma uiEmit_out (d : Indev) (e : UiEvent) : (d.uiEmit e).out = d.out ++ [e] := rfl

lemma keyValues_uiEmit (d : Indev) (e : UiEvent) (k : ℕ) : (d.uiEmit e).keyValues k =
    if e.type = Evdev.key ∧ e.code = k then d.keyValues k ++ [e.value] else d.keyValues k := by
  simp only [keyValues, uiEmit_out, List.filter_append, List.map_append]
  by_cases h : e.type = Evdev.key ∧ e.code = k
  · rw [if_pos h, List.filter_cons_of_pos (by simpa using h)]
    rfl
  · rw [if_neg h, List.filter_cons_of_neg (by simpa using h)]
    simp

lemma position_uiEmit (d : Indev) (e : UiEvent) (x : ℕ) : (d.uiEmit e).position x =
    if e.type = Evdev.abs ∧ e.code = x then e.value else d.position x := by
  simp only [position, uiEmit_out, List.foldl_append, List.foldl_cons, List.foldl_nil]

lemma alternating_succ (n : ℕ) :
    alternating (n + 1) = alternating n ++ [if n % 2 = 0 then 1 else 0] := by
  simp [alternating, List.range_succ]

/-- A report covers everything before it. -/
lemma reported_uiEmit_syn (d : Indev) (v : ℤ) : (d.uiEmit ⟨Evdev.syn, 0, v⟩).Reported := by
  intro before e after h he
  rw [uiEmit_out] at h
  rcases List.eq_nil_or_concat after with rfl | ⟨init, last, rfl⟩
  · obtain ⟨-, hlast⟩ := List.append_inj' h rfl
    rw [List.cons.injEq] at hlast
    rw [← hlast.1] at he
    exact absurd rfl he
  · rw [List.concat_eq_append, ← List.cons_append, ← List.append_assoc] at h
    obtain ⟨-, hlast⟩ := List.append_inj' h rfl
    rw [List.cons.injEq] at hlast
    refine ⟨last, by simp, ?_⟩
    rw [← hlast.1]
    exact ⟨rfl, rfl⟩

/-! ## What is kept of one device -/

/-- The device declares what `sremfb_input_start` declared for it. -/
structure Declares (i : ℕ) (d : Indev) : Prop where
  keys : d.keys = (indevOf d.fd i).keys
  abss : d.abss = (indevOf d.fd i).abss
  absMin : d.absMin = (indevOf d.fd i).absMin
  absMax : d.absMax = (indevOf d.fd i).absMax

/-- Device `i` is as it was declared, and in step with what was written to it. -/
structure Kept (i : ℕ) (d : Indev) : Prop where
  declares : d.Declares i
  ok : d.Ok
  closed : d.fd = false → d.out = []
  keys : ∀ k, ∃ n, d.keyValues k = alternating n ∧ d.down k = decide (n % 2 = 1)
  inRange : ∀ e ∈ d.out, e.type = Evdev.abs →
    d.abss e.code = true ∧ d.absMin e.code ≤ e.value ∧ e.value ≤ d.absMax e.code
  reported : d.dirty = false → d.Reported

variable {i : ℕ} {d : Indev}

lemma Kept.balanced (h : d.Kept i) : d.Balanced where
  alternates k := by
    obtain ⟨n, hvalues, -⟩ := h.keys k
    rw [hvalues]
    simp [alternating]
  pressed k := (h.ok.tracks k).symm
  inRange := h.inRange

lemma Declares.uiEmit (h : d.Declares i) (e : UiEvent) : (d.uiEmit e).Declares i :=
  ⟨h.keys, h.abss, h.absMin, h.absMax⟩

lemma Declares.put (h : d.Declares i) (k : ℕ) (on : Bool) : (d.put k on).Declares i :=
  ⟨h.keys, h.abss, h.absMin, h.absMax⟩

/-- An axis that a device declares has 0 in its range. -/
lemma declares_zero {fd : Bool} {x : ℕ} (hx : (indevOf fd i).abss x = true) :
    (indevOf fd i).absMin x ≤ 0 ∧ 0 ≤ (indevOf fd i).absMax x := by
  match i with
  | 0 | 1 | 2 => simp [indevOf] at hx
  | 3 => simp [indevOf, absPointerMax]
  | 4 =>
      simp only [indevOf] at hx ⊢
      obtain ⟨range, hrange⟩ := Option.isSome_iff_exists.mp hx
      rw [hrange, Option.getD_some]
      obtain ⟨before, after, hpad, -⟩ := List.lookup_eq_some_iff.mp hrange
      have hmem : (x, range) ∈ padAxes := by
        rw [hpad]
        simp
      have hall : ∀ axis ∈ padAxes, axis.2.1 ≤ 0 ∧ 0 ≤ axis.2.2 := by decide
      exact hall _ hmem
  | _ + 5 => simp [indevOf] at hx

/-- A device that was just made. -/
lemma kept_indevOf (fd : Bool) (i : ℕ) : (indevOf fd i).Kept i := by
  have hdeclares : (indevOf fd i).Declares i := by
    match i with
    | 0 | 1 | 2 | 3 | 4 | _ + 5 => exact ⟨rfl, rfl, rfl, rfl⟩
  obtain ⟨hout, hdown, hdirty⟩ : (indevOf fd i).out = [] ∧
      ((indevOf fd i).down = fun _ => false) ∧ (indevOf fd i).dirty = false := by
    match i with
    | 0 | 1 | 2 | 3 | 4 | _ + 5 => exact ⟨rfl, rfl, rfl⟩
  refine ⟨hdeclares, ⟨fun k => ?_, fun k hk => ?_⟩, fun _ => hout, fun k => ⟨0, ?_, ?_⟩, ?_, ?_⟩
  · simp [Indev.pressed, hout, hdown]
  · simp [hdown] at hk
  · simp [keyValues, hout, alternating]
  · simp [hdown]
  · simp [hout]
  · intro _ before e after h
    simp [hout] at h

/-! ## What is written keeps it -/

/-- An event that is no key: a report, a motion, or a value in the range of a declared axis. -/
lemma Kept.other (h : d.Kept i) (hfd : d.fd = true) {e : UiEvent} (he : e.type ≠ Evdev.key)
    (hsyn : e.type = Evdev.syn → e.code = 0)
    (habs : e.type = Evdev.abs →
      d.abss e.code = true ∧ d.absMin e.code ≤ e.value ∧ e.value ≤ d.absMax e.code) :
    (d.uiEmit e).Kept i := by
  refine ⟨h.declares.uiEmit e, h.ok.other he, fun hclosed => ?_, fun k => ?_, ?_, fun hdirty => ?_⟩
  · rw [show (d.uiEmit e).fd = true from hfd] at hclosed
    cases hclosed
  · rw [keyValues_uiEmit, if_neg fun hk => he hk.1]
    exact h.keys k
  · intro e' he' htype
    rcases List.mem_append.mp he' with hold | hnew
    · exact h.inRange e' hold htype
    · rw [List.mem_singleton] at hnew
      rw [hnew] at htype ⊢
      exact habs htype
  · have htype : e.type = Evdev.syn := by simpa [uiEmit] using hdirty
    obtain ⟨type, code, value⟩ := e
    obtain rfl : type = Evdev.syn := htype
    obtain rfl : code = 0 := hsyn rfl
    exact d.reported_uiEmit_syn value

/-- A key changes: its bit and the event that says so. -/
lemma Kept.key (h : d.Kept i) (hfd : d.fd = true) {k : ℕ} {on : Bool}
    (hk : on = true → d.keys k = true ∧ k < Evdev.keyCnt) (hne : d.down k ≠ on) :
    ((d.put k on).uiEmit ⟨Evdev.key, k, if on then 1 else 0⟩).Kept i := by
  refine ⟨(h.declares.put k on).uiEmit _,
    h.ok.key (by cases on <;> simp) fun hon => ⟨hfd, hk hon⟩, fun hclosed => ?_, fun j => ?_, ?_,
    fun hdirty => ?_⟩
  · rw [show ((d.put k on).uiEmit ⟨Evdev.key, k, _⟩).fd = true from hfd] at hclosed
    cases hclosed
  · obtain ⟨n, hvalues, hdown⟩ := h.keys j
    have hput : (d.put k on).keyValues j = d.keyValues j := rfl
    have hdown' : ((d.put k on).uiEmit ⟨Evdev.key, k, if on then 1 else 0⟩).down j =
        Function.update d.down k on j := rfl
    rw [keyValues_uiEmit, hput, hdown', hvalues]
    by_cases hj : k = j
    · subst hj
      -- the key was in the other state, so it is the turn of `on`
      rw [hdown] at hne
      have hturn : on = decide (n % 2 = 0) := by
        cases on <;> simp at hne ⊢ <;> omega
      refine ⟨n + 1, ?_, ?_⟩
      · rw [if_pos ⟨rfl, rfl⟩, alternating_succ, hturn]
        simp
      · rw [Function.update_self, hturn]
        congr 1
        simp only [eq_iff_iff]
        omega
    · refine ⟨n, if_neg fun h => hj h.2, ?_⟩
      rw [Function.update_of_ne (Ne.symm hj), hdown]
  · intro e he htype
    rcases List.mem_append.mp he with hold | hnew
    · exact h.inRange e hold htype
    · rw [List.mem_singleton] at hnew
      subst hnew
      cases htype
  · simp [Indev.uiEmit, Evdev.key, Evdev.syn] at hdirty

/-! ## The release keeps it -/

lemma kept_releaseKeys (ks : List ℕ) {a : Indev × Bool} (h : a.1.Kept i) (hfd : a.1.fd = true) :
    (ks.foldl releaseKey a).1.Kept i ∧ (ks.foldl releaseKey a).1.fd = true := by
  induction ks generalizing a with
  | nil => exact ⟨h, hfd⟩
  | cons k ks ih =>
      rw [List.foldl_cons, releaseKey]
      split <;> rename_i hdown
      · have hup : ((a.1.put k false).uiEmit ⟨Evdev.key, k, if false then 1 else 0⟩).Kept i :=
          h.key hfd (fun h => Bool.noConfusion h) (by simpa)
        exact ih (a := (_, true)) hup hfd
      · exact ih h hfd

lemma kept_recentre (xs : List ℕ) {a : Indev × Bool} (h : a.1.Kept i) (hfd : a.1.fd = true) :
    (xs.foldl recentre a).1.Kept i ∧ (xs.foldl recentre a).1.fd = true := by
  induction xs generalizing a with
  | nil => exact ⟨h, hfd⟩
  | cons x xs ih =>
      rw [List.foldl_cons, recentre]
      split <;> rename_i hx
      · have hzero := hx.1
        rw [h.declares.abss] at hzero
        have hrange := declares_zero hzero
        rw [← h.declares.absMin, ← h.declares.absMax] at hrange
        exact ih (a := (_, true)) (h.other hfd (by decide : Evdev.abs ≠ Evdev.key)
          (fun h => absurd h (by decide : Evdev.abs ≠ Evdev.syn)) fun _ => ⟨hx.1, hrange⟩) hfd
      · exact ih h hfd

lemma Kept.release (h : d.Kept i) : d.release.Kept i := by
  unfold Indev.release
  by_cases hfd : d.fd = true
  · rw [if_pos hfd]
    dsimp only
    obtain ⟨hkeys, hfd₁⟩ := kept_releaseKeys (List.range Evdev.keyCnt) (a := (d, false)) h hfd
    obtain ⟨haxes, hfd₂⟩ := kept_recentre (List.range Evdev.absCnt) hkeys hfd₁
    split
    · exact haxes.other hfd₂ (by decide : Evdev.syn ≠ Evdev.key) (fun _ => rfl)
        fun h => absurd h (by decide : Evdev.syn ≠ Evdev.abs)
    · exact haxes
  · rw [if_neg hfd]
    exact h

/-- An axis that the loop re-centres, or that was at rest before it, is at rest after it. -/
lemma position_recentre (xs : List ℕ) {a : Indev × Bool} {x : ℕ}
    (hx : (x ∈ xs ∧ a.1.abss x = true ∧ (a.1.absMin x < 0 ∨ x = Evdev.absZ ∨ x = Evdev.absRz)) ∨
      a.1.position x = 0) : (xs.foldl recentre a).1.position x = 0 := by
  induction xs generalizing a with
  | nil =>
      rcases hx with ⟨hmem, -⟩ | hzero
      · exact (List.not_mem_nil hmem).elim
      · exact hzero
  | cons y xs ih =>
      rw [List.foldl_cons, recentre]
      split <;> rename_i hy
      · refine ih (a := (_, true)) ?_
        rw [position_uiEmit]
        by_cases hxy : y = x
        · right
          rw [if_pos ⟨rfl, hxy⟩]
        · rw [if_neg fun h => hxy h.2]
          refine hx.imp_left (And.imp_left fun hmem => ?_)
          exact (List.mem_cons.mp hmem).resolve_left (Ne.symm hxy)
      · refine ih (hx.imp_left fun hrest => ⟨?_, hrest.2⟩)
        refine (List.mem_cons.mp hrest.1).resolve_left fun hxy => hy ?_
        rw [← hxy]
        exact hrest.2

/-- **A release settles a device.** -/
lemma Kept.settled_release (h : d.Kept i) : d.release.Settled i := by
  refine ⟨(release_free h.ok).2, fun hi axis haxis => ?_, ?_⟩
  · unfold Indev.release
    by_cases hfd : d.fd = true
    · rw [if_pos hfd]
      dsimp only
      obtain ⟨hkeys, hfd₁⟩ := kept_releaseKeys (List.range Evdev.keyCnt) (a := (d, false)) h hfd
      generalize (List.range Evdev.keyCnt).foldl releaseKey (d, false) = a at hkeys hfd₁ ⊢
      have hpad : ∀ axis ∈ padAxes, axis.1 < Evdev.absCnt ∧ (indevOf true 4).abss axis.1 = true ∧
          ((indevOf true 4).absMin axis.1 < 0 ∨ axis.1 = Evdev.absZ ∨ axis.1 = Evdev.absRz) := by
        decide
      obtain ⟨hcnt, habss, hmin⟩ := hpad axis haxis
      have hzero : ((List.range Evdev.absCnt).foldl recentre a).1.position axis.1 = 0 := by
        refine position_recentre _ (.inl ⟨List.mem_range.mpr hcnt, ?_, ?_⟩)
        · rw [hkeys.declares.abss, hfd₁, hi]
          exact habss
        · rw [hkeys.declares.absMin, hfd₁, hi]
          exact hmin
      split
      · rw [position_uiEmit, if_neg fun h => absurd h.1 (by decide : Evdev.syn ≠ Evdev.abs)]
        exact hzero
      · exact hzero
    · rw [if_neg hfd]
      simp [position, h.closed (by simpa using hfd)]
  · have hkept := h.release
    unfold Indev.release at hkept ⊢
    by_cases hfd : d.fd = true
    · rw [if_pos hfd] at hkept ⊢
      dsimp only at hkept ⊢
      split
      · exact reported_uiEmit_syn _ 0
      · rename_i hquiet
        rw [if_neg hquiet] at hkept
        rw [Bool.or_eq_true, not_or] at hquiet
        exact hkept.reported (by simpa using hquiet.2)
    · rw [if_neg hfd]
      intro before e after hout
      rw [h.closed (by simpa using hfd)] at hout
      simp at hout

/-! ## What a message can write -/

/-- What a message can do to device `i`: nothing, a release of everything, or one event. -/
inductive Writes (d : Indev) : Indev → Prop
  | same : Writes d d
  | release : Writes d d.release
  | key (k : ℕ) (on : Bool) (hfd : d.fd = true) (hk : d.keys k = true ∧ k < Evdev.keyCnt)
      (hne : d.down k ≠ on) : Writes d ((d.put k on).uiEmit ⟨Evdev.key, k, if on then 1 else 0⟩)
  | other (e : UiEvent) (hfd : d.fd = true) (he : e.type ≠ Evdev.key)
      (hsyn : e.type = Evdev.syn → e.code = 0)
      (habs : e.type = Evdev.abs →
        d.abss e.code = true ∧ d.absMin e.code ≤ e.value ∧ e.value ≤ d.absMax e.code) :
      Writes d (d.uiEmit e)

lemma Kept.writes (h : d.Kept i) {d' : Indev} (hd : d.Writes d') : d'.Kept i := by
  cases hd with
  | same => exact h
  | release => exact h.release
  | key k on hfd hk hne => exact h.key hfd (fun _ => hk) hne
  | other e hfd he hsyn habs => exact h.other hfd he hsyn habs

end Indev

namespace Input

variable {place : ℕ → ℤ → Option ℤ} {s : Input}

/-- Every device is as it was declared, and in step with what was written to it. -/
def Kept (s : Input) : Prop := ∀ i, (s.dev i).Kept i

/-- The event of a message goes to its own device. -/
lemma writes_emit (s : Input) (j i : ℕ) {d : Indev} {e : UiEvent}
    (h : (s.dev j).Writes (d.uiEmit e)) : (s.dev i).Writes ((s.emit j d e).dev i) := by
  by_cases hi : i = j
  · rw [hi, emit_dev_self]
    exact h
  · rw [emit_dev_of_ne s hi]
    exact .same

/-- The range of every axis of the pointer is that of the device. -/
lemma Kept.pointer_range (hs : s.Kept) (x : ℕ) :
    (s.dev indevPointer).absMin x = 0 ∧ (s.dev indevPointer).absMax x = absPointerMax := by
  have hdeclares := (hs indevPointer).declares
  rw [hdeclares.absMin, hdeclares.absMax]
  exact ⟨rfl, rfl⟩

/-- A clamped value is in the range of its axis. -/
lemma Kept.clamp_range (hs : s.Kept) {i x : ℕ} (hx : (s.dev i).abss x = true) (v : ℤ) :
    (s.dev i).absMin x ≤ clamp v ((s.dev i).absMin x) ((s.dev i).absMax x) ∧
      clamp v ((s.dev i).absMin x) ((s.dev i).absMax x) ≤ (s.dev i).absMax x := by
  have hdeclares := (hs i).declares
  rw [hdeclares.abss] at hx
  have hzero := Indev.declares_zero hx
  rw [← hdeclares.absMin, ← hdeclares.absMax] at hzero
  have hle := hzero.1.trans hzero.2
  exact ⟨le_clamp hle, clamp_le hle⟩

lemma Kept.msg_writes (hs : s.Kept)
    (hplace : ∀ code v p, place code v = some p → 0 ≤ p ∧ p ≤ absPointerMax) (m : InputMsg)
    (i : ℕ) : (s.dev i).Writes ((s.msg place m).dev i) := by
  have h := msg_came place s m
  generalize (s.msg place m).dev = devs at h
  cases h with
  | nothing => exact .same
  | release =>
      rw [Input.releaseAll]
      dsimp only
      split
      · exact .release
      · exact .same
  | key on hm hfd hk hne => exact s.writes_emit m.dev i (.key _ on hfd hk hne)
  | other v hfd hkey hsyn habs =>
      refine s.writes_emit m.dev i (.other _ hfd hkey hsyn fun htype => ?_)
      obtain ⟨hdecl, ⟨hpointer, hplaced⟩ | rfl⟩ := habs htype
      · refine ⟨hdecl, ?_⟩
        rw [hpointer]
        obtain ⟨hmin, hmax⟩ := hs.pointer_range m.evCode
        rw [hmin, hmax]
        exact hplace _ _ _ hplaced
      · exact ⟨hdecl, hs.clamp_range hdecl _⟩

lemma Kept.msg (hs : s.Kept)
    (hplace : ∀ code v p, place code v = some p → 0 ≤ p ∧ p ≤ absPointerMax) (m : InputMsg) :
    (s.msg place m).Kept := fun i => (hs i).writes (hs.msg_writes hplace m i)

lemma Kept.releaseAll (hs : s.Kept) : s.releaseAll.Kept := fun i => by
  unfold Input.releaseAll
  dsimp only
  split
  · exact (hs i).release
  · exact hs i

/-- **The release of everything settles every device.** -/
lemma Kept.settled_releaseAll (hs : s.Kept) {i : ℕ} (hi : 1 ≤ i ∧ i ≤ indevGamepad) :
    (s.releaseAll.dev i).Settled i := by
  unfold Input.releaseAll
  dsimp only
  rw [if_pos hi]
  exact (hs i).settled_release

end Input

/-! ## The life of a client's devices -/

/-- The input of a client: the devices it has, and those it had, the last ones first. -/
structure ClientInput where
  live : Option Input := none
  gone : List Input := []

/-- What happens to it.  A message comes with the layout, the connector and the stream of that
moment. -/
inductive DeviceEvent
  | start (cap enabled : Bool) (opened : ℕ → Bool)
  | msg (L : Layout) (conn : List Char) (geom : StreamGeom) (m : InputMsg)
  | stop

/-- `sremfb_input_start`, `sremfb_input_msg` and `sremfb_input_stop`. -/
def inputStep (F : Doubles) (s : ClientInput) : DeviceEvent → ClientInput
  | .start cap enabled opened =>
      if cap && enabled && s.live.isNone then { s with live := inputStart opened } else s
  | .msg L conn geom m => { s with live := s.live.map fun inp => inp.msg (L.layoutMap F conn geom) m }
  | .stop =>
      match s.live with
      | none => s
      | some inp => { live := none, gone := inp.releaseAll :: s.gone }

namespace ClientInput

/-- The devices in use are kept, and those removed were settled before. -/
structure Sound (s : ClientInput) : Prop where
  live : ∀ inp, s.live = some inp → inp.Kept
  gone : ∀ inp ∈ s.gone, inp.Kept ∧ ∀ i, 1 ≤ i ∧ i ≤ indevGamepad → (inp.dev i).Settled i

lemma Sound.step {F : Doubles} {s : ClientInput} (h : s.Sound) (e : DeviceEvent) :
    (inputStep F s e).Sound := by
  cases e with
  | start cap enabled opened =>
      rw [inputStep]
      split
      · refine ⟨fun inp hinp => ?_, h.gone⟩
        dsimp only at hinp
        unfold inputStart at hinp
        split at hinp
        · cases hinp
          exact fun i => Indev.kept_indevOf (opened i) i
        · cases hinp
      · exact h
  | msg L conn geom m =>
      refine ⟨fun inp hinp => ?_, h.gone⟩
      obtain ⟨inp', hinp', rfl⟩ := Option.map_eq_some_iff.mp hinp
      exact (h.live inp' hinp').msg (fun _ _ _ => layoutMap_mem) m
  | stop =>
      rw [inputStep]
      split <;> rename_i hlive
      · exact h
      · rename_i inp
        have hkept := h.live inp hlive
        refine ⟨fun _ hnone => ?_, fun inp' hinp' => ?_⟩
        · cases hnone
        · rcases List.mem_cons.mp hinp' with rfl | hold
          · exact ⟨hkept.releaseAll, fun i hi => hkept.settled_releaseAll hi⟩
          · exact h.gone inp' hold

lemma sound_run (F : Doubles) (es : List DeviceEvent) : (run (inputStep F) {} es).Sound :=
  run_keeps (P := Sound) (fun _ e h => h.step e)
    ⟨fun _ h => (Option.some_ne_none _ h.symm).elim, fun _ h => (List.not_mem_nil h).elim⟩ es

/-- **Injected input stays balanced.**  In every run every device a client has or had is balanced.
A release of everything, event type 0 to `SREMFB_INDEV_ALL`, settles the devices it has, and the
devices it had were settled when they were removed. -/
theorem injected_input_balanced (F : Doubles) (es : List DeviceEvent) :
    (∀ inp, (run (inputStep F) {} es).live = some inp ∨ inp ∈ (run (inputStep F) {} es).gone →
      ∀ i, (inp.dev i).Balanced) ∧
    (∀ L conn geom code v inp,
      (inputStep F (run (inputStep F) {} es) (.msg L conn geom ⟨indevAll, 0, code, v⟩)).live =
        some inp → ∀ i, 1 ≤ i ∧ i ≤ indevGamepad → (inp.dev i).Settled i) ∧
    ∀ inp ∈ (run (inputStep F) {} (es ++ [.stop])).gone,
      ∀ i, 1 ≤ i ∧ i ≤ indevGamepad → (inp.dev i).Settled i := by
  have hsound := sound_run F es
  refine ⟨fun inp hinp i => ?_, fun L conn geom code v inp hinp i hi => ?_, fun inp hinp => ?_⟩
  · rcases hinp with hlive | hgone
    · exact (hsound.live inp hlive i).balanced
    · exact ((hsound.gone inp hgone).1 i).balanced
  · obtain ⟨inp', hinp', rfl⟩ := Option.map_eq_some_iff.mp hinp
    have hmsg : inp'.msg (L.layoutMap F conn geom) ⟨indevAll, 0, code, v⟩ = inp'.releaseAll := rfl
    rw [hmsg]
    exact (hsound.live inp' hinp').settled_releaseAll hi
  · exact ((sound_run F (es ++ [.stop])).gone inp hinp).2

/-- A key held on the keyboard stays down after a message to `SREMFB_INDEV_ALL` of another type. -/
theorem other_type_releases_nothing :
    (run (inputStep Doubles.rational) {} [.start true true fun _ => true,
      .msg {} [] ⟨1920, 1080, by decide, by decide⟩ ⟨indevKeyboard, Evdev.key, 30, 1⟩,
      .msg {} [] ⟨1920, 1080, by decide, by decide⟩ ⟨indevAll, Evdev.key, 0, 0⟩]).live.map
        (fun inp => (inp.dev indevKeyboard).down 30) = some true := by
  decide +kernel

end ClientInput

end Sremfb
