import Sremfb.Server.Steps

/-!
# No lost wake-up

Pending work of a client is done from the write watch, so pending work without a watch — or the
retry timer, which arms one — is never done.  `sremfb_xmit_kick` arms the watch wherever work
is created, and `on_out_ready` removes it when it finds nothing to do.

The two meet in one place.  An encoder that fails during a pass makes `build_h264_frame` queue
the EOS and mark the snapshot; the kick for both does nothing, the watch of the running pass
being still there, and `build_next` then reports that no frame was started, so the pass removes
it.  `Tx.Awake` is the invariant, `EncodesOrRetries` the condition that excludes this case, and
`awake_of_encodesOrRetries` the result; `asleep_after_encode_failure` is the case itself.
-/

namespace Sremfb

open Lib Relation

variable {D : Type}

namespace Tx

variable {t t' : Tx}

/-- Pending work of a streaming client that is not given up is waited for. -/
def Awake (t : Tx) : Prop :=
  t.state = .streaming → t.lost = false → t.pending = true →
    t.outWatch = true ∨ t.outRetry = true

lemma awake_xmitKick (hfd : t.fd = true) : t.xmitKick.Awake := by
  obtain ⟨w, hw⟩ := t.xmitKick_eq
  intro _ hl hp
  have hlost : t.lost = false := by rw [hw] at hl; exact hl
  exact .inl (xmitKick_awake hfd hlost hp)

lemma Awake.xmitCtrl (h : t.Awake) (m : List UInt8) : (t.xmitCtrl m).Awake := by
  unfold Tx.xmitCtrl
  split <;> rename_i hc
  · exact h
  · refine awake_xmitKick ?_
    simp only [Bool.or_eq_true, Bool.not_eq_true', not_or, Bool.not_eq_false] at hc
    exact hc.1

lemma awake_leaveH264 (hfd : t.fd = true) : t.leaveH264.Awake := by
  unfold leaveH264
  refine awake_xmitKick ?_
  obtain ⟨-, h⟩ | ⟨-, -, w, h⟩ := xmitCtrl_cases { t with xmitMode := .raw } eosMsg
  · rw [h]
    exact hfd
  · rw [h]
    exact hfd

/-- A switch keeps the client awake: leaving H.264 ends in a kick, entering it creates no
work. -/
lemma Switched.awake (h : t.Switched t') (hw : t.fd = true ∧ t.Awake) :
    t'.fd = true ∧ t'.Awake := by
  obtain ⟨hfd, hw⟩ := hw
  cases h with
  | same => exact ⟨hfd, hw⟩
  | leave => exact ⟨t.sameStream_leaveH264.fd.trans hfd, awake_leaveH264 hfd⟩
  | failed => exact ⟨hfd, hw⟩
  | enter hs hm now =>
      rw [enterH264_eq]
      refine ⟨hfd, fun hs hl hp => hw hs hl ?_⟩
      simp only [pending, List.isEmpty_nil, Bool.not_true, Bool.or_false] at hp
      rw [pending, Bool.or_assoc]
      exact hp

/-- A switch leaves an armed watch armed. -/
lemma Switched.outWatch (h : t.Switched t') (hw : t.outWatch = true ∧ t.outActive = true) :
    t'.outWatch = true ∧ t'.outActive = true := by
  cases h with
  | same | failed => exact hw
  | enter hs hm now =>
      rw [enterH264_eq]
      exact hw
  | leave =>
      refine ⟨?_, ?_⟩
      · unfold leaveH264 Tx.xmitCtrl
        refine xmitKick_watch ?_
        dsimp only
        split
        · exact hw.1
        · exact xmitKick_watch hw.1
      · obtain ⟨-, h⟩ | ⟨-, -, w, h⟩ := t.leaveH264_cases
        · rw [h]
          exact hw.2
        · rw [h]
          exact hw.2

/-! ## Damage that adds nothing -/

lemma damageRect_raw {bpp : ℕ} (hb : 0 < bpp) (t : Tx) (raw : ℕ) (r : Rect) :
    damageRect bpp (t, raw) r = (t, raw) ∨ raw < (damageRect bpp (t, raw) r).2 := by
  unfold damageRect
  dsimp only
  by_cases h₁ : (t.clampRect r).x2 ≤ (t.clampRect r).x1 ∨ (t.clampRect r).y2 ≤ (t.clampRect r).y1
  · exact .inl (if_pos h₁)
  rw [if_neg h₁]
  by_cases h₂ : (t.rectTrim (t.clampRect r)).y2 ≤ (t.rectTrim (t.clampRect r)).y1
  · exact .inl (if_pos h₂)
  rw [if_neg h₂]
  right
  obtain ⟨hx1, hx2, -, -⟩ := t.rectTrim_bounds (t.clampRect r)
  have hpos : 0 < ((t.rectTrim (t.clampRect r)).x2 - (t.rectTrim (t.clampRect r)).x1).toNat *
      ((t.rectTrim (t.clampRect r)).y2 - (t.rectTrim (t.clampRect r)).y1).toNat * bpp := by
    refine Nat.mul_pos (Nat.mul_pos ?_ ?_) hb
    · omega
    · omega
  split
  · dsimp only
    omega
  · dsimp only
    omega

lemma foldl_damageRect_raw {bpp : ℕ} (hb : 0 < bpp) (rects : List Rect) (t : Tx) (raw : ℕ) :
    rects.foldl (damageRect bpp) (t, raw) = (t, raw) ∨
      raw < (rects.foldl (damageRect bpp) (t, raw)).2 := by
  induction rects generalizing t raw with
  | nil => exact .inl rfl
  | cons r rects ih =>
      rw [List.foldl_cons]
      rcases damageRect_raw hb t raw r with h | h
      · rw [h]
        exact ih t raw
      · rcases ih (damageRect bpp (t, raw) r).1 (damageRect bpp (t, raw) r).2 with h' | h'
        · exact .inr (h.trans_eq (congrArg Prod.snd h').symm)
        · exact .inr (h.trans h')

/-- A report with nothing to send leaves the region alone. -/
lemma damageRects_of_raw_eq_zero {bpp : ℕ} (hb : 0 < bpp) {rects : List Rect}
    (h : (t.damageRects bpp rects).2 = 0) : (t.damageRects bpp rects).1 = t := by
  rcases foldl_damageRect_raw hb rects t 0 with h' | h'
  · exact congrArg Prod.fst h'
  · exact absurd h h'.ne'

end Tx

/-! ## Callbacks -/

/-- The encoder call of the pass, if it makes one, succeeds; or the retry timer is armed. -/
def EncodesOrRetries [CDouble D] (env : Env) (c : Client D) : Event → Prop
  | .outReady _ => ∀ k, encoderCall env c = some k → env.encode k ≠ none ∨ c.tx.outRetry = true
  | _ => True

section Step

variable [CDouble D] {env : Env} {c : Client D}

/-- A client the source took on: its socket is open, and it streams from allocated buffers. -/
structure Tx.Wakeful (t : Tx) : Prop where
  fd : t.fd = true
  bufs : t.state = .streaming → t.bufs = true
  awake : t.Awake

lemma moves_awake {d : Client D} (h : ReflTransGen (CtlMove env) c d)
    (hw : c.tx.fd = true ∧ c.tx.Awake) : d.tx.fd = true ∧ d.tx.Awake :=
  CtlMove.tx_invariant (fun hs => hs.awake) h hw

/-- A frame was started: the pass goes on with the watch it has. -/
lemma Delivered.outWatch {d d' : Client D} (h : Delivered env d d')
    (hw : d.tx.outWatch = true ∧ d.tx.outActive = true) :
    d'.tx.outWatch = true ∧ d'.tx.outActive = true := by
  obtain rfl | ⟨n, rfl⟩ := h
  · exact hw
  · exact CtlMove.tx_invariant (P := fun t => t.outWatch = true ∧ t.outActive = true)
      (fun hs => hs.outWatch) (ctlOnDeliver_moves env d n) hw

/-- After a pass that drained everything: a frame is in flight and watched, or the retry timer
is armed, or nothing is left; unless the encoder failed. -/
lemma awake_buildNext {d : Client D} (hw : d.tx.outWatch = true) (ha : d.tx.outActive = false)
    (hq : d.tx.outq = []) (hb : d.tx.state = .streaming → d.tx.bufs = true)
    (henc : ∀ k, buildCall env d = some k → env.encode k ≠ none ∨ d.tx.outRetry = true) :
    Tx.Awake (if (buildNext env d).2 then (buildNext env d).1
      else { (buildNext env d).1 with
        tx := { (buildNext env d).1.tx with outWatch := false } }).tx := by
  have hbuilt := buildNext_built env d
  generalize buildNext env d = b at hbuilt
  have hactive : ∀ d' : Client D, d'.tx.outWatch = true ∧ d'.tx.outActive = true →
      Tx.Awake (if d'.tx.outActive then d'
        else { d' with tx := { d'.tx with outWatch := false } }).tx := by
    intro d' h
    rw [if_pos h.2]
    exact fun _ _ _ => .inl h.1
  cases hbuilt with
  | nothing h =>
      intro hs _ hp
      obtain ⟨hall, hd⟩ := h hs (hb hs)
      simp [Tx.pending, ha, hq, hall, hd] at hp
  | rect hs hb hm t r hr e he =>
      subst he
      refine hactive _ ((buildRawRect_delivered env _ r).outWatch ?_)
      obtain ⟨f, hf⟩ := t.shadowUpdate_eq r
      have ht : t.outWatch = true := by
        obtain ⟨-, rfl, -⟩ | ⟨-, ds, -, rfl⟩ := hr
        · exact hw
        · exact hw
      simp only [Tx.builtRect, hf]
      exact ⟨ht, rfl⟩
  | skip => exact fun _ _ _ => .inr rfl
  | encode hs hb hm e e' he hc he' =>
      subst he'
      obtain ⟨k, n, rfl, hk, hn⟩ := he
      rcases buildH264Frame_cases env { d with
          tx := { d.tx with dirtyAll := false, dirty := [] }, ctl := k, tick := n } hs hm with
        ⟨hnone, hr⟩ | ⟨k', hk', ⟨idr, hnil, hr⟩ | ⟨nal, idr, hne, hr⟩⟩
      · -- the one bad outcome: only the retry timer can save it
        have hretry := (henc n hc).resolve_left (fun h => h hnone)
        rw [hr]
        have hkeep : ∀ t : Tx, t.outRetry = true → t.leaveH264.outRetry = true := by
          intro t ht
          obtain ⟨-, h⟩ | ⟨-, -, w, h⟩ := t.leaveH264_cases
          · rw [h]
            exact ht
          · rw [h]
            exact ht
        have hafter : ({ d.tx with dirtyAll := false, dirty := [] } : Tx).encodeFailed.outRetry =
            true := by
          obtain ⟨f, hf⟩ := Tx.builtNothing_eq { d.tx with dirtyAll := false, dirty := [] }
          refine hkeep _ ?_
          rw [hf]
          exact hretry
        split
        · exact fun _ _ _ => .inr hafter
        · exact fun _ _ _ => .inr hafter
      · have hidle : ({ d.tx with dirtyAll := false, dirty := [] } : Tx).builtNothing.pending =
            false := by
          obtain ⟨f, hf⟩ := Tx.builtNothing_eq { d.tx with dirtyAll := false, dirty := [] }
          rw [hf]
          simp [Tx.pending, ha, hq]
        rw [hr]
        dsimp only
        split
        · exact fun _ _ hp => absurd hp (by simp [hidle])
        · exact fun _ _ hp => absurd hp (by simpa [Tx.pending] using hidle)
      · obtain ⟨f, hf⟩ := Tx.shadowUpdate_eq { d.tx with dirtyAll := false, dirty := [] }
          (Rect.full d.tx.width d.tx.height)
        refine hactive _ (hr.outWatch ?_)
        simp only [Tx.builtAu, hf]
        exact ⟨hw, rfl⟩

lemma awake_onOutReady {err : Bool} (hc : c.tx.Wakeful) (hw : c.tx.outWatch = true)
    (henc : EncodesOrRetries env c (.outReady err)) : (onOutReady env err c).tx.Awake := by
  have hfail : ∀ d : Client D, (xmitFail d).tx.Awake := fun d _ hl => Bool.noConfusion hl
  cases err with
  | true => exact hfail c
  | false =>
      have hp := onOutReady_pass env c
      generalize onOutReady env false c = e at hp
      cases hp with
      | fail d h => exact hfail d
      | block d h =>
          obtain ⟨w, o, a, q, qo, n, rfl⟩ := h.frame
          exact fun _ _ _ => .inl hw
      | build d h ha hq he b hb =>
          subst hb
          simp only [EncodesOrRetries, he] at henc
          obtain ⟨w, o, a, q, qo, n, rfl⟩ := h.frame
          exact awake_buildNext hw ha hq hc.bufs henc

/-- The hello of a new stream is watched. -/
lemma wakeful_startStreaming (hfd : c.tx.fd = true) (hb : c.tx.bufs = true) (extra : UInt8)
    (token : UInt16) : (startStreaming env c extra token).tx.Wakeful := by
  rw [startStreaming_tx, Tx.xmitHello]
  set m := ServerHello.bytes _
  have hst : (c.tx.xmitCtrl m).fd = true ∧ (c.tx.xmitCtrl m).bufs = true ∧
      (c.tx.xmitCtrl m).lost = c.tx.lost := by
    obtain ⟨-, h⟩ | ⟨-, -, w, h⟩ := c.tx.xmitCtrl_cases m
    · rw [h]
      exact ⟨hfd, hb, rfl⟩
    · rw [h]
      exact ⟨hfd, hb, rfl⟩
  refine ⟨hst.1, fun _ => hst.2.1, fun _ hl _ => .inl ?_⟩
  exact Tx.xmitCtrl_watch hfd (hst.2.2.symm.trans hl) m

/-- A compositor mode change forgets all work, and the hello of the first one is watched. -/
lemma wakeful_onModeChanged (hc : c.tx.Wakeful) (w h : ℤ) (grab : Frame) (extra : UInt8)
    (token : UInt16) : (onModeChanged env c w h grab extra token).tx.Wakeful := by
  by_cases hpos : 0 < w ∧ 0 < h
  · rw [onModeChanged_eq env c hpos.1 hpos.2]
    split
    · exact wakeful_startStreaming (c := { c with
        tx := c.tx.remade w h c.neg.pixfmt grab
        ctl := { c.ctl with pingsOutstanding := 0 } }) hc.fd rfl extra token
    · exact ⟨hc.fd, fun _ => rfl, fun _ _ hp => Bool.noConfusion hp⟩
  · rw [onModeChanged, if_pos (by omega)]
    exact hc

lemma Accepted.wakeful {neg : Negotiated} (h : Accepted env neg c) : c.tx.Wakeful := by
  cases h with
  | evdi => exact ⟨rfl, fun hs => ClientState.noConfusion hs, fun _ _ hp => Bool.noConfusion hp⟩
  | kvm w h extra token => exact wakeful_startStreaming rfl rfl extra token

/-- Every callback but a mode change leaves the client awake. -/
lemma awake_step (hc : c.tx.Wakeful) {ev : Event} (hm : ev.isModeChange = false)
    (henc : EncodesOrRetries env c ev) : (step env c ev).tx.Awake := by
  obtain ⟨hfd, hb, ha⟩ := hc
  have hsend : ∀ e, (c.tx.sendCtrl e).Awake := by
    intro e
    unfold Tx.sendCtrl
    split
    · exact ha
    · exact ha.xmitCtrl _
  unfold step
  cases ev with
  | modeChanged => cases hm
  | damage grab rects =>
      dsimp only
      split
      · have hbpp : 0 < c.neg.pixfmt.bytespp := by cases c.neg.pixfmt <;> decide
        obtain ⟨hraw, h⟩ | ⟨d, hd, h⟩ := xmitDamage_moves env
          { c with tx := { c.tx with grabbuf := grab } } rects
        · rw [h]
          dsimp only
          rw [Tx.damageRects_of_raw_eq_zero hbpp hraw]
          exact ha
        · rw [h]
          refine Tx.awake_xmitKick (CtlMove.tx_invariant (P := fun t => t.fd = true) ?_ hd ?_)
          · intro t t' hs hfd
            exact hs.sameStream.fd.trans hfd
          · obtain ⟨ds, a, hds⟩ := Tx.damageRects_eq c.neg.pixfmt.bytespp
              { c.tx with grabbuf := grab } rects
            dsimp only
            rw [hds]
            exact hfd
      · exact ha
  | outReady err =>
      dsimp only
      split <;> rename_i hw
      · exact awake_onOutReady ⟨hfd, hb, ha⟩ hw henc
      · exact ha
  | retry =>
      dsimp only
      split
      · exact Tx.awake_xmitKick hfd
      · exact ha
  | pong t =>
      dsimp only
      split
      · exact (moves_awake (ctlOnPong_moves env c t) ⟨hfd, ha⟩).2
      · exact ha
  | pingTick =>
      dsimp only
      split
      · obtain ⟨d, hd, h | h | h⟩ := pingTick_moves env c
        · rw [h]
          exact (moves_awake hd ⟨hfd, ha⟩).2
        · rw [h]
          exact fun _ hl => Bool.noConfusion hl
        · rw [h]
          exact (moves_awake hd ⟨hfd, ha⟩).2.xmitCtrl _
      · exact ha
  | ctrl m => exact ha.xmitCtrl m
  | dpms on => exact hsend _
  | setMode m => exact ((xmitSetMode_switched env c m).awake ⟨hfd, ha⟩).2
  | repaint grab =>
      dsimp only
      split
      · rw [repaintClient_eq]
        refine Tx.awake_xmitKick ?_
        have hst : c.tx.SameStream (c.tx.sendCtrl .unblank) := c.tx.sameStream_sendCtrl _
        exact hst.fd.trans hfd
      · exact ha
  | lost => exact fun _ hl => Bool.noConfusion hl

/-- **No lost wake-up.**  In every run of a client in which no encoder call fails while the
retry timer is off, pending work is waited for after every callback. -/
theorem awake_of_encodesOrRetries (env : Env) {neg : Negotiated} {c : Client D}
    (hc : Accepted env neg c) (es : List Event)
    (hes : Along (EncodesOrRetries env) (step env) c es) :
    (run (step env) c es).tx.Awake := by
  refine (run_invariant (P := fun d : Client D => d.tx.Wakeful) ?_ hc.wakeful hes).awake
  intro d ev hev hd
  by_cases hm : ev.isModeChange = true
  · cases ev with
    | modeChanged w h grab extra token => exact wakeful_onModeChanged hd w h grab extra token
    | _ => cases hm
  · rw [Bool.not_eq_true] at hm
    have hst : d.tx.SameStream (step env d ev).tx := step_sameStream env hm
    refine ⟨hst.fd.trans hd.fd, fun hs => ?_, awake_step hd hm hev⟩
    exact hst.bufs.trans (hd.bufs (hst.state.symm.trans hs))

end Step

/-- A rectangle in flight is watched. -/
theorem awake_of_encodesOrRetries_tiny :
    let t := (run (step Env.willing) (Client.tiny Env.willing) [.outReady false,
      .damage (fun _ _ => 0xFFFFFF) [⟨0, 0, 2, 1⟩], .outReady false]).tx
    (t.state = .streaming ∧ t.lost = false ∧ t.pending = true) ∧ t.Awake := by
  refine ⟨by decide +kernel, awake_of_encodesOrRetries Env.willing (.kvm 2 1 0 0) _ ?_⟩
  refine ⟨?_, trivial, ?_, trivial⟩
  · exact fun k _ => .inl nofun
  · exact fun k _ => .inl nofun

/-- **The wake-up lost.**  Two damage reports bring the forced controller to H.264; the first
pass encodes, the encoder fails, and the EOS and the snapshot wait for a watch that is gone. -/
theorem asleep_after_encode_failure :
    ¬(run (step Env.failing) (Client.tiny Env.failing)
      [.damage (fun _ _ => 0xFFFFFF) [⟨0, 0, 2, 1⟩], .damage (fun _ _ => 7) [⟨0, 0, 2, 1⟩],
        .outReady false]).tx.Awake := by
  intro h
  exact absurd (h (by decide +kernel) (by decide +kernel) (by decide +kernel)) (by decide +kernel)

end Sremfb
