import Sremfb.Server.Steps

/-!
# The controller and the transmitter agree on the mode

`ctl_state` and `xmit_mode` are two variables in two files.  The controller's own paths write
both: `ctl_evaluate` enters and leaves an episode through `sremfb_xmit_set_mode` and looks at
what came of it.  Two other paths write `xmit_mode` alone — the fallback to RAW in
`build_h264_frame` when the encoder fails, and `on_mode_changed` when a new size closes the
encoder — and the controller goes on counting a calm streak in an episode that is over.

`coherent_of_keepsEpisode` says that these two are all: in a run without them the variables
agree after every callback.
-/

namespace Sremfb

open Lib Relation

variable {D : Type}

/-- The controller is in an episode exactly when the transmitter sends H.264. -/
def Coherent (c : Client D) : Prop :=
  (c.ctl.state = .h264Active ∨ c.ctl.state = .h264Cooldown) ↔ c.tx.xmitMode = .h264

/-- The encoder call of a pass succeeds, and a mode that meets H.264 has the old size. -/
def KeepsEpisode [CDouble D] (env : Env) (c : Client D) : Event → Prop
  | .outReady _ => ∀ k, encoderCall env c = some k → env.encode k ≠ none
  | .modeChanged w h _ _ _ => 0 < w → 0 < h → c.tx.xmitMode = .h264 →
      w = c.tx.width ∧ h = c.tx.height
  | _ => True

/-- The invariant: besides, H.264 is only ever sent in a stream. -/
structure InStep (c : Client D) : Prop where
  coherent : Coherent c
  streaming : c.tx.xmitMode = .h264 → c.tx.state = .streaming

section Step

variable {env : Env} {c c' : Client D}

lemma InStep.of_raw (hs : c.ctl.state = .rawSteady ∨ c.ctl.state = .rawSuspect)
    (hm : c.tx.xmitMode = .raw) : InStep c := by
  refine ⟨?_, fun h => by simp [hm] at h⟩
  rcases hs with hs | hs
  · simp [Coherent, hs, hm]
  · simp [Coherent, hs, hm]

lemma InStep.of_h264 (hs : c.ctl.state = .h264Active ∨ c.ctl.state = .h264Cooldown)
    (hm : c.tx.xmitMode = .h264) (hst : c.tx.state = .streaming) : InStep c :=
  ⟨⟨fun _ => hm, fun _ => hs⟩, fun _ => hst⟩

lemma InStep.xmitMode_raw (h : InStep c)
    (hs : c.ctl.state = .rawSteady ∨ c.ctl.state = .rawSuspect) : c.tx.xmitMode = .raw := by
  cases hm : c.tx.xmitMode with
  | raw => rfl
  | h264 =>
      have := h.coherent.mpr hm
      rcases hs with hs | hs <;> simp [hs] at this

lemma InStep.xmitMode_h264 (h : InStep c)
    (hs : c.ctl.state = .h264Active ∨ c.ctl.state = .h264Cooldown) :
    c.tx.xmitMode = .h264 ∧ c.tx.state = .streaming :=
  ⟨h.coherent.mp hs, h.streaming (h.coherent.mp hs)⟩

variable [CDouble D]

lemma InStep.evaluate (h : InStep c) : InStep (ctlEvaluate env c) := by
  have he := ctlEvaluate_evaluated env c
  generalize ctlEvaluate env c = d at he
  cases he with
  | idle => exact ⟨h.coherent, h.streaming⟩
  | suspect hs => exact .of_raw (by simp) (by simpa using h.xmitMode_raw (.inl hs))
  | relax hs => exact .of_raw (by simp) (by simpa using h.xmitMode_raw (.inr hs))
  | enter hs =>
      -- the controller looks at the mode that came of the switch
      have hraw := h.xmitMode_raw (.inr hs)
      have hsw := xmitSetMode_switched env c.ticked .h264
      have hst : (xmitSetMode env c.ticked .h264).tx.xmitMode = .h264 →
          (xmitSetMode env c.ticked .h264).tx.state = .streaming := by
        generalize xmitSetMode env c.ticked .h264 = d at hsw ⊢
        intro hm
        generalize d.tx = t' at hsw hm ⊢
        cases hsw with
        | same => exact absurd hm (by simp [hraw])
        | leave hs => exact (Tx.sameStream_leaveH264 _).state.trans hs
        | failed hs => exact hs
        | enter hs hm now => rw [Tx.enterH264_eq]; exact hs
      unfold ctlEnter
      dsimp only
      split <;> rename_i hm
      · exact .of_h264 (by simp) (by simpa using hm) (by simpa using hst hm)
      · refine .of_raw (by simp) ?_
        cases hm' : (xmitSetMode env c.ticked .h264).tx.xmitMode with
        | raw => simpa using hm'
        | h264 => exact absurd hm' hm
  | cool hs d hd =>
      obtain ⟨hm, hst⟩ := h.xmitMode_h264 (.inl hs)
      subst hd
      exact .of_h264 (by simp) (by simpa using hm) (by simpa using hst)
  | heat hs =>
      obtain ⟨hm, hst⟩ := h.xmitMode_h264 (.inr hs)
      exact .of_h264 (by simp) (by simpa using hm) (by simpa using hst)
  | calm hs =>
      obtain ⟨hm, hst⟩ := h.xmitMode_h264 (.inr hs)
      exact .of_h264 (.inr hs) hm hst
  | exit hs =>
      obtain ⟨hm, hst⟩ := h.xmitMode_h264 (.inr hs)
      have hleave : xmitSetMode env c.ticked .raw = { c.ticked with tx := c.tx.leaveH264 } := by
        simp [xmitSetMode, hm, hst]
      refine .of_raw (by simp [ctlExit]) ?_
      simp only [ctlExit, hleave, ctlSetState_tx]
      obtain ⟨-, h⟩ | ⟨-, -, w, h⟩ := c.tx.leaveH264_cases
      · rw [h]
      · rw [h]

lemma InStep.micro (h : Micro env { encoderFails := False, decisions := False } c c')
    (hc : InStep c) : InStep c' := by
  cases h with
  | act h =>
      have hm := h.xmitMode
      have hs := h.sameStream
      exact ⟨hc.coherent.trans (by rw [hm]), fun h264 => hs.state.trans (hc.streaming (hm ▸ h264))⟩
  | measure k n hk hn =>
      have hstate : k.state = c.ctl.state := congrArg Prod.fst hk
      refine ⟨?_, hc.streaming⟩
      simpa [Coherent, hstate] using hc.coherent
  | evaluate => exact hc.evaluate
  | decision m h => exact h.elim
  | encodeFail n h => exact h.elim

/-- A new stream starts in RAW on both sides. -/
lemma inStep_startStreaming (extra : UInt8) (token : UInt16) :
    InStep (startStreaming env c extra token) := by
  refine .of_raw ?_ ?_
  · simp [startStreaming, ctlStart]
  · rw [startStreaming_tx]

lemma Accepted.inStep {neg : Negotiated} (h : Accepted env neg c) : InStep c := by
  cases h with
  | evdi => exact .of_raw (.inl rfl) rfl
  | kvm w h extra token => exact inStep_startStreaming extra token

lemma inStep_onModeChanged (hc : InStep c) {w h : ℤ} {grab : Frame} {extra : UInt8}
    {token : UInt16} (hk : KeepsEpisode env c (.modeChanged w h grab extra token)) :
    InStep (onModeChanged env c w h grab extra token) := by
  by_cases hpos : 0 < w ∧ 0 < h
  · rw [onModeChanged_eq env c hpos.1 hpos.2]
    split
    · exact inStep_startStreaming extra token
    · have hmode : (c.tx.remade w h c.neg.pixfmt grab).xmitMode = c.tx.xmitMode := by
        cases hm : c.tx.xmitMode with
        | raw => simp [Tx.remade, Tx.withBuffers, hm]
        | h264 =>
            obtain ⟨rfl, rfl⟩ := hk hpos.1 hpos.2 hm
            simp [Tx.remade, Tx.withBuffers, Tx.keepsEncoder, hm]
      exact ⟨hc.coherent.trans (by rw [hmode]), fun h264 => hc.streaming (hmode ▸ h264)⟩
  · rw [onModeChanged, if_pos (by omega)]
    exact hc

/-- **Coherence.**  In every run of the program's callbacks in which no encoder call fails and
no new size meets H.264, the controller and the transmitter agree after every callback. -/
theorem coherent_of_keepsEpisode (env : Env) {neg : Negotiated} {c : Client D}
    (hc : Accepted env neg c) (es : List Event) (hev : ∀ ev ∈ es, ev.isDecision = false)
    (hes : Along (KeepsEpisode env) (step env) c es) : Coherent (run (step env) c es) := by
  have hstep : ∀ (d : Client D) ev, ev.isDecision = false ∧ KeepsEpisode env d ev → InStep d →
      InStep (step env d ev) := by
    rintro d ev ⟨hdec, hk⟩ hd
    by_cases hm : ev.isModeChange = true
    · cases ev with
      | modeChanged w h grab extra token => exact inStep_onModeChanged hd hk
      | _ => cases hm
    · refine step_invariant (P := InStep) InStep.micro (Rules.admits_of ?_ ?_ ?_) hd
      · simpa using hm
      · exact fun h => by simp [hdec] at h
      · rintro err rfl k hcall
        exact ⟨hk k hcall, fun _ _ => trivial⟩
  exact (run_invariant hstep hc.inStep (along_and (along_of_forall hev) hes)).coherent

end Step

/-- The forced controller enters H.264 and an access unit goes out. -/
theorem coherent_of_keepsEpisode_forced :
    let c := run (step Env.forced) (Client.tiny Env.forced)
      [.damage (fun _ _ => 0xFFFFFF) [⟨0, 0, 2, 1⟩], .damage (fun _ _ => 7) [⟨0, 0, 2, 1⟩],
        .outReady false]
    c.tx.xmitMode = .h264 ∧ Coherent c := by
  refine ⟨by decide +kernel, coherent_of_keepsEpisode _ (.kvm 2 1 0 0) _ (by decide) ?_⟩
  exact ⟨trivial, trivial, fun k _ => nofun, trivial⟩

/-- **Out of step.**  The encoder fails in the first pass of the episode: the transmitter is
back in RAW, the controller is not. -/
theorem not_coherent_after_encode_failure :
    ¬Coherent (run (step Env.failing) (Client.tiny Env.failing)
      [.damage (fun _ _ => 0xFFFFFF) [⟨0, 0, 2, 1⟩], .damage (fun _ _ => 7) [⟨0, 0, 2, 1⟩],
        .outReady false]) := by
  unfold Coherent
  decide +kernel

end Sremfb
