import Mathlib.Data.Int.ConditionallyCompleteOrder
import Mathlib.Data.List.Chain
import Sremfb.Server.Steps

/-!
# Flap damping

Between two entries into H.264 lie at least twelve and a half seconds: ten of calm in
`H264_COOLDOWN`, two of RAW grace, and half a second of confirmed pressure.  The three timers
run on two fields, `ctl_since_us` and `ctl_calm_us`, which `ctl_set_state` resets, and the
controller is evaluated from five callbacks with arbitrary measurements.

`SinceEntry s` is what the fields say in each state about the last entry, at time `s`: how much
of the distance to the next one has passed already.  It does not mention `xmit_mode`.  A path
that ends an episode behind the controller's back — an encoder failure, a new size — leaves the
controller in `H264_ACTIVE` or `H264_COOLDOWN`, and the way out of these is the same.
-/

namespace Sremfb

open Lib Relation

variable {D : Type}

/-- The time of an entry into H.264. -/
def Sent.openedAt : Sent → Option ℤ
  | .opened t => some t
  | _ => none

/-- The times of all entries into H.264, oldest first. -/
def Tx.opens (t : Tx) : List ℤ := t.log.filterMap Sent.openedAt

/-- What the controller knows in each state about the last entry, at time `s`. -/
def SinceEntry (s : ℤ) : CtlState × ℤ × ℤ → Prop
  | (.rawSteady, since, _) => s + exitCalmUs ≤ since
  | (.rawSuspect, since, _) => s + exitCalmUs + rawGraceUs ≤ since
  | (.h264Active, _, _) => True
  | (.h264Cooldown, _, calm) => calm = 0 ∨ s ≤ calm

/-- Two entries are far enough apart. -/
def Apart (a b : ℤ) : Prop := a + 12500000 ≤ b

/-- The invariant. -/
structure Damped (env : Env) (c : Client D) : Prop where
  apart : c.tx.opens.IsChain Apart
  waiting : c.tx.state = .modeWait → c.tx.opens = []
  past : c.ctl.sinceUs ≤ env.clock c.tick
  recent : ∀ s, c.tx.opens.getLast? = some s →
    0 < s ∧ s ≤ env.clock c.tick ∧ SinceEntry s c.ctl.core

/-! ## What is logged as an entry -/

namespace Tx

lemma opens_append_of_not {t t' : Tx} {m : Sent} (h : t'.log = t.log ++ [m])
    (hm : m.openedAt = none) : t'.opens = t.opens := by
  simp [opens, h, hm]

lemma opens_leaveH264 (t : Tx) : t.leaveH264.opens = t.opens := by
  rcases t.leaveH264_log with h | h
  · rw [opens, h, opens]
  · exact opens_append_of_not h rfl

lemma opens_xmitCtrl (t : Tx) (m : List UInt8) : (t.xmitCtrl m).opens = t.opens := by
  obtain ⟨-, h⟩ | ⟨-, -, w, h⟩ := t.xmitCtrl_cases m
  · rw [h]
  · rw [h]
    exact opens_append_of_not rfl rfl

lemma opens_enterH264 (t : Tx) (now : ℤ) : (t.enterH264 now).opens = t.opens ++ [now] := by
  rw [enterH264_eq]
  simp [opens, Sent.openedAt]

end Tx

/-- Only a switch is logged as one. -/
lemma TxAct.opens {env : Env} {neg : Negotiated} {R : Rules} {t t' : Tx}
    (h : TxAct env neg R t t') : t'.opens = t.opens := by
  cases h with
  | ctrl m => exact t.opens_xmitCtrl m
  | damage grab rects =>
      obtain ⟨ds, a, h⟩ := Tx.damageRects_eq neg.pixfmt.bytespp { t with grabbuf := grab } rects
      rw [h]
      rfl
  | snapshot | rect => exact Tx.opens_append_of_not (Tx.builtRect_log ..) rfl
  | encodeAu => exact Tx.opens_append_of_not (Tx.builtAu_log ..) rfl
  | encodeNothing => exact congrArg (List.filterMap Sent.openedAt) (Tx.builtNothing_log _)
  | aux | lose | repaint | sendFrame | frameDone | sendHead | popHead => rfl

/-! ## Actions keep the distance -/

section Step

variable {env : Env} {c c' : Client D}

/-- No entry was logged, time went on, and the controller still knows enough. -/
lemma Damped.later (h : Damped env c) (hmono : Monotone env.clock)
    (ho : c'.tx.opens = c.tx.opens) (hst : c'.tx.state = c.tx.state) (ht : c.tick ≤ c'.tick)
    (hp : c'.ctl.sinceUs ≤ env.clock c'.tick)
    (hs : ∀ s, 0 < s → s ≤ env.clock c.tick → SinceEntry s c.ctl.core → SinceEntry s c'.ctl.core) :
    Damped env c' := by
  refine ⟨ho ▸ h.apart, fun hw => ho ▸ h.waiting (hst ▸ hw), hp, fun s hlast => ?_⟩
  obtain ⟨hpos, hle, hsince⟩ := h.recent s (ho ▸ hlast)
  exact ⟨hpos, hle.trans (hmono ht), hs s hpos hle hsince⟩

/-- No entry was logged and the state machine did not move. -/
lemma Damped.still (h : Damped env c) (hmono : Monotone env.clock)
    (ho : c'.tx.opens = c.tx.opens) (hst : c'.tx.state = c.tx.state) (ht : c.tick ≤ c'.tick)
    (hk : c'.ctl.core = c.ctl.core) : Damped env c' := by
  refine h.later hmono ho hst ht ?_ fun s _ _ hs => hk ▸ hs
  have hsince : c'.ctl.sinceUs = c.ctl.sinceUs := congrArg (fun k => k.2.1) hk
  rw [hsince]
  exact h.past.trans (hmono ht)

/-- An entry far enough from the last one. -/
lemma Damped.opened (h : Damped env c) {now : ℤ} (ho : c'.tx.opens = c.tx.opens ++ [now])
    (hst : c'.tx.state = .streaming) (hpos : 0 < now) (hle : now ≤ env.clock c'.tick)
    (hfar : ∀ s, c.tx.opens.getLast? = some s → Apart s now)
    (hactive : c'.ctl.state = .h264Active) (hp : c'.ctl.sinceUs ≤ env.clock c'.tick) :
    Damped env c' := by
  refine ⟨?_, fun hw => by simp [hst] at hw, hp, fun s hlast => ?_⟩
  · rw [ho, List.isChain_append]
    refine ⟨h.apart, List.isChain_singleton _, fun a ha b hb => ?_⟩
    obtain rfl : now = b := by simpa using hb
    exact hfar a ha
  · obtain rfl : now = s := by simpa [ho] using hlast
    refine ⟨hpos, hle, ?_⟩
    simp only [Ctl.core, hactive, SinceEntry]

/-- The outside of the result: clock readings are positive and do not decrease, and H.264 is
not forced. -/
structure Env.Damps (env : Env) : Prop where
  mono : Monotone env.clock
  pos : ∀ k, 0 < env.clock k
  free : env.forceH264 = false

/-- A change of state, at the next reading of the clock; `n` is the reading before. -/
lemma Damped.setState (henv : env.Damps) (h : Damped env c) {d : Client D} {x : CtlState}
    (hx : d.ctl.state ≠ x) (ho : d.tx.opens = c.tx.opens) (hst : d.tx.state = c.tx.state)
    (ht : c.tick ≤ d.tick) (hs : ∀ s, 0 < s → s ≤ env.clock c.tick → SinceEntry s c.ctl.core →
      SinceEntry s (x, env.clock d.tick, 0)) : Damped env (ctlSetState env d x) := by
  rw [ctlSetState_of_ne env hx]
  exact h.later henv.mono ho hst (ht.trans (Nat.le_succ _)) (henv.mono (Nat.le_succ _)) hs

/-- Suspicion is dropped: the RAW grace starts anew. -/
lemma Damped.relax (henv : env.Damps) (h : Damped env c) (hs : c.ctl.state = .rawSuspect)
    {d : Client D} (hd : d.ctl.state = .rawSuspect) (ho : d.tx.opens = c.tx.opens)
    (hst : d.tx.state = c.tx.state) (ht : c.tick ≤ d.tick) :
    Damped env (ctlSetState env d .rawSteady) := by
  refine h.setState henv (by simp [hd]) ho hst ht fun s _ _ hsince => ?_
  have hle : env.clock c.tick ≤ env.clock d.tick := henv.mono ht
  have hpast := h.past
  simp only [Ctl.core, hs, SinceEntry, exitCalmUs, rawGraceUs] at *
  omega

/-- The entry: half a second of suspicion, after two of grace, after ten of calm. -/
lemma Damped.enter (henv : env.Damps) (h : Damped env c) (hs : c.ctl.state = .rawSuspect)
    (hc : enterConfirmUs < env.clock c.tick - c.ctl.sinceUs) :
    Damped env (ctlEnter env c.ticked (env.clock c.tick)) := by
  unfold ctlEnter
  dsimp only
  obtain ⟨he, -⟩ | ⟨-, -, hm, -⟩ | ⟨hst, -, -, he | ⟨kbps, n, hn, he⟩⟩ :=
    xmitSetMode_cases env c.ticked .h264
  · rw [he]
    split
    · exact h.setState henv (by simp [hs]) rfl rfl (Nat.le_succ _) fun _ _ _ _ => trivial
    · exact h.relax henv hs hs rfl rfl (Nat.le_succ _)
  · cases hm
  · rw [he]
    split
    · exact h.setState henv (by simp [hs]) rfl rfl (by simp; omega) fun _ _ _ _ => trivial
    · exact h.relax henv hs hs rfl rfl (by simp; omega)
  · have hmode : ({ c.tx with enc := true }.enterH264 (env.clock n)).xmitMode = .h264 := by
      rw [Tx.enterH264_eq]
    have hstate : ({ c.tx with enc := true }.enterH264 (env.clock n)).state = c.tx.state := by
      rw [Tx.enterH264_eq]
    have hnow : env.clock c.tick ≤ env.clock n := henv.mono (Nat.le_of_succ_le hn)
    rw [he]
    split <;> rename_i hm
    · rw [ctlSetState_of_ne env (by simp [hs])]
      refine h.opened (Tx.opens_enterH264 _ _) (hstate.trans hst) (henv.pos n)
        (henv.mono (Nat.le_succ n)) (fun s hlast => ?_) rfl (henv.mono (Nat.le_succ n))
      obtain ⟨-, -, hsince⟩ := h.recent s hlast
      simp only [Ctl.core, hs, SinceEntry, Apart, exitCalmUs, rawGraceUs, enterConfirmUs] at *
      omega
    · exact absurd hmode hm

/-- The exit: the calm streak began after the entry and lasted ten seconds. -/
lemma Damped.exit (henv : env.Damps) (h : Damped env c) (hs : c.ctl.state = .h264Cooldown)
    (hc : c.ctl.calmUs ≠ 0) (hl : exitCalmUs ≤ env.clock c.tick - c.ctl.calmUs) :
    Damped env (ctlExit env c.ticked (env.clock c.tick)) := by
  have hsteady : ∀ t : Tx, t.opens = c.tx.opens → t.state = c.tx.state →
      Damped env (ctlSetState env { c.ticked with tx := t } .rawSteady) := by
    intro t ho hst
    refine h.setState henv (by simp [hs]) ho hst (Nat.le_succ _) fun s hpos hle hsince => ?_
    have hnext : env.clock c.tick ≤ env.clock (c.tick + 1) := henv.mono (Nat.le_succ _)
    simp only [Ctl.core, hs, SinceEntry, Client.ticked_tick, exitCalmUs] at *
    omega
  have hexit : ∀ d : Client D, Damped env d →
      Damped env { d with ctl := { d.ctl with exitUs := env.clock c.tick } } := fun d hd =>
    hd.still henv.mono rfl rfl le_rfl rfl
  unfold ctlExit
  dsimp only
  obtain ⟨he, -⟩ | ⟨-, -, -, he⟩ | ⟨-, -, hm, -⟩ := xmitSetMode_cases env c.ticked .raw
  · rw [he]
    exact hexit _ (hsteady c.tx rfl rfl)
  · rw [he]
    exact hexit _ (hsteady _ c.tx.opens_leaveH264 c.tx.sameStream_leaveH264.state)
  · cases hm

variable [CDouble D]

lemma Damped.evaluate (henv : env.Damps) (h : Damped env c) : Damped env (ctlEvaluate env c) := by
  have he := ctlEvaluate_evaluated env c
  have hnext : env.clock c.tick ≤ env.clock (c.tick + 1) := henv.mono (Nat.le_succ _)
  generalize ctlEvaluate env c = d at he
  cases he with
  | idle => exact h.still henv.mono rfl rfl (Nat.le_succ _) rfl
  | suspect hs hg =>
      refine h.setState henv (by simp [hs]) rfl rfl (Nat.le_succ _) fun s hpos _ hsince => ?_
      simp only [Ctl.core, hs, SinceEntry, Client.ticked_tick, exitCalmUs, rawGraceUs] at *
      omega
  | relax hs => exact h.relax henv hs hs rfl rfl (Nat.le_succ _)
  | enter hs hc => exact h.enter henv hs (hc.resolve_right (by simp [henv.free]))
  | cool hs d hd =>
      subst hd
      rw [ctlSetState_of_ne env (by simp [hs])]
      refine h.later henv.mono rfl rfl (by simp; omega) (henv.mono (Nat.le_succ _)) ?_
      exact fun s hpos hle hsince => .inr hle
  | heat hs =>
      exact h.setState henv (by simp [hs]) rfl rfl (Nat.le_succ _) fun _ _ _ _ => trivial
  | calm hs =>
      refine h.later henv.mono rfl rfl (Nat.le_succ _) (h.past.trans hnext) ?_
      intro s hpos hle hsince
      simp only [Ctl.core, hs, SinceEntry]
      exact .inr hle
  | exit hs hc hl => exact h.exit henv hs hc hl

lemma Damped.micro (henv : env.Damps) (h : Micro env { decisions := False } c c')
    (hc : Damped env c) : Damped env c' := by
  cases h with
  | act h => exact hc.still henv.mono h.opens h.sameStream.state le_rfl rfl
  | measure k n hk hn => exact hc.still henv.mono rfl rfl hn hk
  | evaluate => exact hc.evaluate henv
  | decision m h => exact h.elim
  | encodeFail n h hr hm hn =>
      have hstep : TxStep env c.neg {} c.tx
          { c.tx with dirtyAll := false, dirty := [] }.encodeFailed := .encodeFail trivial hr hm
      refine hc.still henv.mono ?_ hstep.sameStream.state hn rfl
      refine (Tx.opens_leaveH264 _).trans ?_
      simp [Tx.opens]

/-! ## Whole runs -/

/-- A new stream has no entries yet. -/
lemma damped_startStreaming (henv : env.Damps) (ho : c.tx.opens = []) (extra : UInt8)
    (token : UInt16) : Damped env (startStreaming env c extra token) := by
  have hopens : (startStreaming env c extra token).tx.opens = [] := by
    rw [startStreaming_tx]
    exact (c.tx.opens_xmitCtrl _).trans ho
  refine ⟨?_, fun _ => hopens, ?_, fun s hlast => ?_⟩
  · rw [hopens]
    exact .nil
  · simp only [startStreaming, ctlStart, Client.ticked_tick]
    exact henv.mono (by omega)
  · simp [hopens] at hlast

lemma Accepted.damped (henv : env.Damps) {neg : Negotiated} (h : Accepted env neg c) :
    Damped env c := by
  cases h with
  | evdi => exact ⟨.nil, fun _ => rfl, (henv.pos 0).le, fun s hlast => by cases hlast⟩
  | kvm w h extra token => exact damped_startStreaming henv rfl extra token

lemma damped_onModeChanged (henv : env.Damps) (hc : Damped env c) (w h : ℤ) (grab : Frame)
    (extra : UInt8) (token : UInt16) : Damped env (onModeChanged env c w h grab extra token) := by
  by_cases hpos : 0 < w ∧ 0 < h
  · rw [onModeChanged_eq env c hpos.1 hpos.2]
    split <;> rename_i hw
    · refine damped_startStreaming henv ?_ extra token
      exact hc.waiting hw.1
    · exact hc.still henv.mono rfl rfl le_rfl rfl
  · rw [onModeChanged, if_pos (by omega)]
    exact hc

/-- No switch to H.264 goes unrecorded. -/
lemma opens_of_switch (env : Env) {c : Client D} {ev : Event} (hraw : c.tx.xmitMode = .raw)
    (h264 : (step env c ev).tx.xmitMode = .h264) :
    c.tx.opens.length < (step env c ev).tx.opens.length := by
  by_cases hm : ev.isModeChange = true
  · cases ev with
    | modeChanged w h grab extra token =>
        exfalso
        rw [step] at h264
        by_cases hpos : 0 < w ∧ 0 < h
        · rw [onModeChanged_eq env c hpos.1 hpos.2] at h264
          split at h264
          · rw [startStreaming_tx] at h264
            cases h264
          · simp [Tx.remade, Tx.withBuffers, hraw] at h264
        · rw [onModeChanged, if_pos (by omega), hraw] at h264
          cases h264
    | _ => cases hm
  · have hadm : ({} : Rules).Admits env c ev := Rules.admits_any (by simpa using hm)
    obtain ⟨-, ht⟩ := step_txChain hadm
    have hkept : ∀ {t t' : Tx}, TxStep env c.neg {} t t' →
        c.tx.opens.length ≤ t.opens.length ∧
          (t.xmitMode = .h264 → c.tx.opens.length < t.opens.length) →
        c.tx.opens.length ≤ t'.opens.length ∧
          (t'.xmitMode = .h264 → c.tx.opens.length < t'.opens.length) := by
      rintro t t' hs ⟨hle, hlt⟩
      cases hs with
      | act h => exact ⟨h.opens ▸ hle, fun hm => h.opens ▸ hlt (h.xmitMode ▸ hm)⟩
      | leave _ hm => exact ⟨t.opens_leaveH264 ▸ hle, fun _ => t.opens_leaveH264 ▸ hlt hm⟩
      | enter now =>
          rw [Tx.opens_enterH264, List.length_append, List.length_singleton]
          exact ⟨by omega, fun _ => by omega⟩
      | encodeFail _ _ hm =>
          have ho : ({ t with dirtyAll := false, dirty := [] } : Tx).encodeFailed.opens =
              t.opens := (Tx.opens_leaveH264 _).trans (by simp [Tx.opens])
          exact ⟨ho ▸ hle, fun _ => ho ▸ hlt hm⟩
    exact (chain_invariant (r := TxStep env c.neg {}) hkept ht
      ⟨le_rfl, fun hm => by simp [hraw] at hm⟩).2 h264

/-- **Flap damping.**  In every run of the program's callbacks, with a positive clock that does
not go back and H.264 not forced, two successive switches to H.264 are at least twelve and a
half seconds apart; and every callback that turned RAW into H.264 recorded a switch. -/
theorem opens_apart (env : Env) (henv : env.Damps) {neg : Negotiated} {c : Client D}
    (hc : Accepted env neg c) (es : List Event) (hev : ∀ ev ∈ es, ev.isDecision = false) :
    let d := run (step env) c es
    d.tx.opens.IsChain (fun a b => a + 12500000 ≤ b) ∧
      ∀ ev, d.tx.xmitMode = .raw → (step env d ev).tx.xmitMode = .h264 →
        d.tx.opens.length < (step env d ev).tx.opens.length := by
  refine ⟨?_, fun ev => opens_of_switch env⟩
  have hstep : ∀ (d : Client D) ev, ev.isDecision = false → Damped env d →
      Damped env (step env d ev) := by
    intro d ev hdec hd
    by_cases hm : ev.isModeChange = true
    · cases ev with
      | modeChanged w h grab extra token => exact damped_onModeChanged henv hd w h grab extra token
      | _ => cases hm
    · refine step_invariant (P := Damped env) (Damped.micro henv) (Rules.admits_of ?_ ?_ ?_) hd
      · simpa using hm
      · exact fun h => by simp [hdec] at h
      · exact fun err _ k _ => ⟨fun _ => trivial, fun _ _ => trivial⟩
  exact (run_invariant hstep (hc.damped henv) (along_of_forall hev)).apart

end Step

/-- Late echoes, then echoes without delay until the episode is over, then late ones again: two
switches, thirty-four seconds apart. -/
theorem opens_apart_tiny :
    let d := run (step Env.willing) (Client.tiny Env.willing)
      ([2800000, 5800000, 10000000, 12000000, 14000000, 16000000, 19000000, 22000000, 26000000,
        29000000, 32000000, 0, 0, 0].map Event.pong)
    d.tx.opens.length = 2 ∧ d.tx.opens.IsChain (fun a b => a + 12500000 ≤ b) := by
  have henv : Env.willing.Damps := by
    refine ⟨fun a b hab => ?_, fun k => ?_, rfl⟩
    · simp only [Env.willing]
      omega
    · simp only [Env.willing]
      omega
  exact ⟨by decide +kernel, (opens_apart _ henv (.kvm 2 1 0 0) _ (by decide)).1⟩

end Sremfb
