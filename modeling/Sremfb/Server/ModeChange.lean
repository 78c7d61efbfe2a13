import Sremfb.Server.Framing
import Sremfb.Server.Coverage

/-!
# Compositor mode changes

An EVDI client gets its hello with the first mode and never a second one.  Every later
`on_mode_changed` resets the transmit queue and rebuilds the buffers in the new size.  What the
client reads is then one hello and whole messages in its geometry only if the reset forgets
nothing the client is in the middle of and nothing it needs: no message may be half out, the
hello must be out, and the size must be the announced one.  `Smooth` is that condition, on the
state the mode change meets.

A run passes through two phases.  A client that waits for its first mode has sent nothing and
queued nothing (`Tx.Waiting`); the first mode opens the stream (`Tx.Opened`), unless the client
was already scheduled for loss, in which case nothing is ever sent (`Tx.Dead`).  The framing of
the opened stream is kept by every callback through `Tx.Extends`, and by a smooth mode change
through `Outbox.Framed.discard`.
-/

namespace Sremfb

open Lib Relation

variable {D : Type}

/-! ## A well-formed stream -/

/-- The control messages that follow a hello. -/
def IsControl (m : List UInt8) : Prop :=
  (∃ t, m = pingMsg t) ∨ m = ctrlMsg .blank ∨ m = ctrlMsg .unblank ∨ m = eosMsg

/-- A control message, or a frame in the geometry `w` by `h`. -/
def Sent.Within (w h : ℕ) : Sent → Prop
  | .opened _ => True
  | .ctrl m => IsControl m
  | .rect hdr _ => hdr.x.toNat + hdr.w.toNat ≤ w ∧ hdr.y.toNat + hdr.h.toNat ≤ h
  | .au hdr _ _ => hdr.w.toNat = w ∧ hdr.h.toNat = h

/-- What was sent is a piece of one hello and whole messages in its geometry, which is the
geometry of the transmitter.  The messages are among those handed over, in that order. -/
def Tx.WellFormed (t : Tx) : Prop :=
  t.wire = [] ∨ ∃ (hello : ServerHello) (rest : List Sent),
    (.ctrl hello.bytes :: rest).Sublist t.msgs ∧
    t.wire <+: hello.bytes ++ rest.flatMap Sent.bytes ∧
    hello.width.toNat = t.width ∧ hello.height.toNat = t.height ∧
    ∀ m ∈ rest, m.Within hello.width.toNat hello.height.toNat

/-- The callbacks of an EVDI client; what it queues comes from these alone. -/
def Event.isEvdi : Event → Bool
  | .ctrl _ | .setMode _ | .repaint _ => false
  | _ => true

/-- A usable mode meets a stream of its own size, with the hello sent and no message half out;
or it is the first one and the hello can express it. -/
def Smooth (c : Client D) : Event → Prop
  | .modeChanged w h _ _ _ => 0 < w → 0 < h →
      if c.tx.state = .streaming then
        w = c.tx.width ∧ h = c.tx.height ∧ c.tx.wire ≠ [] ∧
          (c.tx.outActive = true → c.tx.outOff = 0) ∧ c.tx.outqOff = 0
      else w ≤ 65535 ∧ h ≤ 65535
  | _ => True

/-! ## What actions log -/

namespace Tx

variable {env : Env} {neg : Negotiated} {R : Rules} {t t' : Tx}

/-- Control messages of the rules, and frames in the geometry: what an action logs belongs to
the stream. -/
lemma Logs.within (hR : ∀ m, R.ctrl m → IsControl m) (hw : t.width ≤ 65535)
    (hh : t.height ≤ 65535) (hok : t.RegionOk) {new : List Sent} (h : t.Logs env neg R new) :
    ∀ m ∈ new, m.Within t.width t.height := by
  cases h with
  | nothing => exact fun m hm => by cases hm
  | ctrl m hm =>
      refine List.forall_mem_singleton.mpr (hm.elim (hR m) fun he => ?_)
      exact .inr (.inr (.inr he.1))
  | opened now => exact List.forall_mem_singleton.mpr trivial
  | rect r hr =>
      have hin : 0 ≤ r.x1 ∧ r.x1 ≤ r.x2 ∧ r.x2 ≤ t.width ∧ 0 ≤ r.y1 ∧ r.y1 ≤ r.y2 ∧
          r.y2 ≤ t.height := by
        rcases hr with rfl | hr
        · simp [Rect.full]
        · obtain ⟨h0, h1, h2, h3, h4, h5⟩ := hok.inside r hr
          exact ⟨h0, h1.le, h2, h3, h4.le, h5⟩
      refine List.forall_mem_singleton.mpr ?_
      simp only [Sent.Within, rectMessage, UInt16.toNat_ofNat']
      omega
  | au nal idr =>
      refine List.forall_mem_singleton.mpr ?_
      simp only [Sent.Within, auHeader, UInt16.toNat_ofNat']
      omega

/-! ## The phases of a connection -/

/-- The client waits for its first mode: nothing was sent or queued. -/
def Waiting (t : Tx) : Prop := ∃ l, t = { lost := l }

/-- The client is scheduled for loss and not watched. -/
structure Dead (t : Tx) : Prop where
  lost : t.lost = true
  watch : t.outWatch = false

/-- The stream is open: of the messages handed over, the hello and some after it are framed on
the wire. -/
structure Opened (hello : ServerHello) (t : Tx) : Prop where
  streaming : t.state = .streaming
  width : hello.width.toNat = t.width
  height : hello.height.toNat = t.height
  region : t.RegionOk
  stream : ∃ rest, (.ctrl hello.bytes :: rest).Sublist t.msgs ∧
    t.Framed (.ctrl hello.bytes :: rest) ∧ ∀ m ∈ rest, m.Within t.width t.height

/-- The invariant of an EVDI client. -/
def Phased (t : Tx) : Prop := t.Waiting ∨ (t.Dead ∧ t.wire = []) ∨ ∃ hello, t.Opened hello

lemma Phased.wellFormed (h : t.Phased) : t.WellFormed := by
  obtain ⟨l, rfl⟩ | ⟨-, hw⟩ | ⟨hello, ho⟩ := h
  · exact .inl rfl
  · exact .inl hw
  · obtain ⟨rest, hsub, hf, hin⟩ := ho.stream
    refine .inr ⟨hello, rest, hsub, ?_, ho.width, ho.height, ?_⟩
    · simpa [Tx.outbox, Sent.bytes] using hf.outbox.wire_prefix
    · rw [ho.width, ho.height]
      exact hin

lemma Opened.step {hello : ServerHello} (hR : ∀ m, R.ctrl m → IsControl m)
    (h : TxStep env neg R t t') (ho : t.Opened hello) : t'.Opened hello := by
  obtain ⟨rest, hsub, hf, hin⟩ := ho.stream
  have hs := h.sameStream
  obtain ⟨new, hlog, hext⟩ := extends_step h
  have hnew : ∀ m ∈ new, m.Within t.width t.height := by
    obtain ⟨new', hlog', hl⟩ := h.logs
    obtain rfl := List.append_cancel_left (hlog.symm.trans hlog')
    refine hl.within hR ?_ ?_ ho.region
    · have := hello.width.toNat_lt
      have := ho.width
      omega
    · have := hello.height.toNat_lt
      have := ho.height
      omega
  have hmsgs : t'.msgs = t.msgs ++ new.filter Sent.isMsg := by
    rw [Tx.msgs, hlog, List.filter_append, Tx.msgs]
  refine ⟨hs.state.trans ho.streaming, ho.width.trans hs.width.symm,
    ho.height.trans hs.height.symm, ho.region.step h, rest ++ new.filter Sent.isMsg, ?_, ?_, ?_⟩
  · rw [hmsgs]
    exact hsub.append (List.Sublist.refl _)
  · exact hext _ hf
  · intro m hm
    rw [hs.width, hs.height]
    rcases List.mem_append.mp hm with hm | hm
    · exact hin m hm
    · exact hnew m (List.mem_of_mem_filter hm)

/-- A smooth mode change: what is forgotten was not begun, and the hello is out. -/
lemma Opened.remade {hello : ServerHello} (ho : t.Opened hello) (hwire : t.wire ≠ [])
    (hoff : t.outActive = true → t.outOff = 0) (hqoff : t.outqOff = 0) (fmt : PixFmt)
    (grab : Frame) : (t.remade t.width t.height fmt grab).Opened hello := by
  obtain ⟨rest, hsub, hf, hin⟩ := ho.stream
  have hdis : (t.remade t.width t.height fmt grab).outbox = t.outbox.discard := by
    simp [Tx.outbox, Tx.remade, withBuffers, Outbox.discard]
  have hcur : t.outbox.cur ≠ none → t.outbox.off = 0 := by
    intro hc
    by_cases ha : t.outActive = true
    · exact hoff ha
    · simp [Tx.outbox, ha] at hc
  obtain ⟨done, hsplit, hdone⟩ := hf.outbox.discard hcur hqoff
  obtain ⟨done', rfl⟩ : ∃ done', done = .ctrl hello.bytes :: done' := by
    cases done with
    | nil =>
        have hnil := hdone.wire_prefix
        rw [List.flatMap_nil, List.prefix_nil] at hnil
        exact absurd hnil hwire
    | cons m done' =>
        rw [List.cons_append, List.cons.injEq] at hsplit
        exact ⟨done', by rw [hsplit.1]⟩
  rw [List.cons_append, List.cons.injEq] at hsplit
  have hpre : done'.Sublist rest := by
    rw [hsplit.2]
    exact List.sublist_append_left _ _
  refine ⟨ho.streaming, ?_, ?_, ⟨Nat.zero_le _, fun r hr => by cases hr⟩, done', ?_, ?_, ?_⟩
  · simpa [Tx.remade, withBuffers] using ho.width
  · simpa [Tx.remade, withBuffers] using ho.height
  · exact .trans (hpre.cons_cons _) hsub
  · exact ⟨fun ha => Bool.noConfusion ha, hdis ▸ hdone⟩
  · intro m hm
    simpa [Tx.remade, withBuffers] using hin m (hpre.subset hm)

/-! ## The first mode -/

/-- The first mode opens the stream, unless the client is given up already. -/
lemma phased_of_hello {u : Tx} {l : Bool} {w h : ℤ} (hw : w ≤ 65535) (hh : h ≤ 65535)
    {fmt : PixFmt} {grab : Frame} (hu : u = remade { lost := l } w h fmt grab) (flags : UInt8)
    (token : UInt16) : Phased { u.xmitHello fmt flags token with
      state := .streaming, xmitMode := .raw, wireTotal := 0 } := by
  right
  unfold xmitHello
  set hello : ServerHello := {
    width := UInt16.ofNat u.width
    height := UInt16.ofNat u.height
    pixfmt := fmt.code
    flags := flags
    audioToken := if flags &&& srvFlagAudio = 0 then 0 else token } with hhello
  obtain ⟨hc, h⟩ | ⟨-, -, watch, h⟩ := u.xmitCtrl_cases hello.bytes
  · left
    rw [h]
    subst hu
    exact ⟨⟨hc.resolve_left Bool.noConfusion, rfl⟩, rfl⟩
  · right
    refine ⟨hello, ?_⟩
    rw [h]
    clear_value hello
    subst hu
    refine ⟨rfl, ?_, ?_, ⟨Nat.zero_le _, fun r hr => by cases hr⟩, [], ?_, ?_, by simp⟩
    · simp only [hhello, remade, withBuffers, UInt16.toNat_ofNat']
      omega
    · simp only [hhello, remade, withBuffers, UInt16.toNat_ofNat']
      omega
    · exact .refl _
    · exact Unsent.framed ⟨rfl, rfl, rfl, rfl⟩ rfl

lemma Switched.dead (h : t.Switched t') (hd : t.Dead) : t'.Dead ∧ t'.wire = t.wire := by
  cases h with
  | same => exact ⟨hd, rfl⟩
  | leave =>
      obtain ⟨-, h⟩ | ⟨-, hl, -⟩ := t.leaveH264_cases
      · rw [h]
        exact ⟨⟨hd.lost, hd.watch⟩, rfl⟩
      · rw [hd.lost] at hl
        cases hl
  | failed => exact ⟨⟨hd.lost, hd.watch⟩, rfl⟩
  | enter hs hm now =>
      rw [enterH264_eq]
      exact ⟨⟨hd.lost, hd.watch⟩, rfl⟩

lemma Dead.kick (hd : t.Dead) : t.xmitKick.Dead ∧ t.xmitKick.wire = t.wire := by
  rw [xmitKick_of_closed (.inr hd.lost)]
  exact ⟨hd, rfl⟩

lemma Dead.xmitCtrl (hd : t.Dead) (m : List UInt8) : t.xmitCtrl m = t := by
  simp [Tx.xmitCtrl, hd.lost]

end Tx

/-! ## Callbacks -/

section Step

variable [CDouble D] {env : Env} {c : Client D}

/-- Nothing reaches a client that is given up and not watched, and it stays so. -/
lemma step_dead (hd : c.tx.Dead) (ev : Event) :
    (step env c ev).tx.Dead ∧ (step env c ev).tx.wire = c.tx.wire := by
  have hmoves : ∀ {t : Tx} {a b : Client D}, ReflTransGen (CtlMove env) a b →
      a.tx.Dead ∧ a.tx.wire = t.wire → b.tx.Dead ∧ b.tx.wire = t.wire := by
    intro t a b h ha
    refine CtlMove.tx_invariant (P := fun u => u.Dead ∧ u.wire = t.wire) ?_ h ha
    intro u u' hu hd
    exact ⟨(hu.dead hd.1).1, (hu.dead hd.1).2.trans hd.2⟩
  unfold step
  cases ev with
  | damage grab rects =>
      dsimp only
      split
      · obtain ⟨ds, a, h⟩ := Tx.damageRects_eq c.neg.pixfmt.bytespp
          { c.tx with grabbuf := grab } rects
        have h₀ : Tx.Dead { c.tx with grabbuf := grab, dirty := ds, dirtyAll := a } :=
          ⟨hd.lost, hd.watch⟩
        obtain ⟨-, he⟩ | ⟨d, hm, he⟩ := xmitDamage_moves env
          { c with tx := { c.tx with grabbuf := grab } } rects
        · rw [he]
          dsimp only
          rw [h]
          exact ⟨h₀, rfl⟩
        · rw [he]
          obtain ⟨h₁, h₂⟩ := hmoves (t := c.tx) hm (by dsimp only; rw [h]; exact ⟨h₀, rfl⟩)
          exact ⟨h₁.kick.1, h₁.kick.2.trans h₂⟩
      · exact ⟨hd, rfl⟩
  | outReady err => simp [hd, hd.watch]
  | retry =>
      dsimp only
      split
      · exact Tx.Dead.kick (t := { c.tx with outRetry := false }) ⟨hd.lost, hd.watch⟩
      · exact ⟨hd, rfl⟩
  | pong t =>
      dsimp only
      split
      · exact hmoves (ctlOnPong_moves env c t) ⟨hd, rfl⟩
      · exact ⟨hd, rfl⟩
  | pingTick =>
      dsimp only
      split
      · obtain ⟨d, hm, h | h | h⟩ := pingTick_moves env c
        · rw [h]
          exact hmoves hm ⟨hd, rfl⟩
        · rw [h]
          obtain ⟨h₁, h₂⟩ := hmoves hm ⟨hd, rfl⟩
          exact ⟨⟨rfl, h₁.watch⟩, h₂⟩
        · rw [h]
          obtain ⟨h₁, h₂⟩ := hmoves hm ⟨hd, rfl⟩
          have hp : (sendPing env d).tx = d.tx := h₁.xmitCtrl _
          rw [hp]
          exact ⟨h₁, h₂⟩
      · exact ⟨hd, rfl⟩
  | ctrl m =>
      dsimp only
      rw [hd.xmitCtrl]
      exact ⟨hd, rfl⟩
  | dpms on =>
      have h : ∀ e, c.tx.sendCtrl e = c.tx := fun e => if_pos (.inr (.inr hd.lost))
      dsimp only
      rw [h]
      exact ⟨hd, rfl⟩
  | setMode m => exact (xmitSetMode_switched env c m).dead hd
  | repaint grab =>
      dsimp only
      split
      · rw [repaintClient_eq, Tx.sendCtrl, if_pos (.inr (.inr hd.lost))]
        exact Tx.Dead.kick (t := { c.tx with grabbuf := grab, dirtyAll := true })
          ⟨hd.lost, hd.watch⟩
      · exact ⟨hd, rfl⟩
  | modeChanged w h grab extra token =>
      dsimp only
      by_cases hpos : 0 < w ∧ 0 < h
      · have hr : Tx.Dead (c.tx.remade w h c.neg.pixfmt grab) := ⟨hd.lost, rfl⟩
        rw [onModeChanged_eq env c hpos.1 hpos.2]
        split
        · rw [startStreaming_tx, Tx.xmitHello, hr.xmitCtrl]
          exact ⟨⟨hr.lost, hr.watch⟩, rfl⟩
        · exact ⟨hr, rfl⟩
      · rw [onModeChanged, if_pos (by omega)]
        exact ⟨hd, rfl⟩
  | lost => exact ⟨⟨rfl, hd.watch⟩, rfl⟩

/-- Only a mode ends the wait. -/
lemma step_waiting (hw : c.tx.Waiting) {ev : Event} (hev : ev.isEvdi = true)
    (hm : ev.isModeChange = false) : (step env c ev).tx.Waiting := by
  obtain ⟨l, hl⟩ := hw
  have hsame : ∀ {d : Client D}, ReflTransGen (CtlMove env) c d → d.tx.Waiting := by
    intro d h
    refine CtlMove.tx_invariant (P := Tx.Waiting) ?_ h ⟨l, hl⟩
    rintro t t' ht ⟨l', rfl⟩
    cases ht with
    | same => exact ⟨l', rfl⟩
    | leave hs | failed hs | enter hs => cases hs
  unfold step
  cases ev with
  | modeChanged => cases hm
  | ctrl | setMode | repaint => cases hev
  | damage | outReady | retry | dpms => simpa [hl, Tx.sendCtrl] using ⟨l, rfl⟩
  | pong t =>
      dsimp only
      split
      · exact hsame (ctlOnPong_moves env c t)
      · exact ⟨l, hl⟩
  | pingTick =>
      have : (pingTick env c).tx = c.tx := by simp [pingTick, hl]
      dsimp only
      split
      · exact ⟨l, this.trans hl⟩
      · exact ⟨l, hl⟩
  | lost => exact ⟨true, by rw [hl]; rfl⟩

lemma step_opened {hello : ServerHello} (ho : c.tx.Opened hello) {ev : Event}
    (hev : ev.isEvdi = true) (hm : ev.isModeChange = false) :
    (step env c ev).tx.Opened hello := by
  let R : Rules := { ctrl := IsControl }
  have hadm : R.Admits env c ev := by
    cases ev with
    | modeChanged => cases hm
    | ctrl | setMode | repaint => cases hev
    | outReady => exact fun k hk => ⟨fun _ => trivial, fun _ _ => trivial⟩
    | pingTick => exact fun t => .inl ⟨t, rfl⟩
    | dpms on => cases on <;> simp [Rules.Admits, R, IsControl]
    | damage | retry | pong | lost => exact trivial
  obtain ⟨-, ht⟩ := step_txChain hadm
  exact chain_invariant (r := TxStep env c.neg R) (Tx.Opened.step fun m hm => hm) ht ho

/-- **The step lemma**: the phases are kept by every callback that is smooth. -/
lemma step_phased {ev : Event} (hev : ev.isEvdi = true) (hs : Smooth c ev)
    (hc : c.tx.Phased) : (step env c ev).tx.Phased := by
  obtain hw | ⟨hd, hwire⟩ | ⟨hello, ho⟩ := hc
  · by_cases hm : ev.isModeChange = true
    · obtain ⟨l, hl⟩ := hw
      cases ev with
      | modeChanged w h grab extra token =>
          by_cases hpos : 0 < w ∧ 0 < h
          · simp only [Smooth, hl] at hs
            obtain ⟨hw, hh⟩ := hs hpos.1 hpos.2
            rw [step, onModeChanged_eq env c hpos.1 hpos.2, if_pos (by simp [hl]),
              startStreaming_tx]
            exact Tx.phased_of_hello hw hh (by rw [hl]) _ token
          · rw [step, onModeChanged, if_pos (by omega)]
            exact .inl ⟨l, hl⟩
      | _ => cases hm
    · exact .inl (step_waiting hw hev (by simpa using hm))
  · obtain ⟨hd', hw'⟩ := step_dead hd ev
    exact .inr (.inl ⟨hd', hw'.trans hwire⟩)
  · refine .inr (.inr ⟨hello, ?_⟩)
    by_cases hm : ev.isModeChange = true
    · cases ev with
      | modeChanged w h grab extra token =>
          by_cases hpos : 0 < w ∧ 0 < h
          · simp only [Smooth, ho.streaming, if_true] at hs
            obtain ⟨rfl, rfl, hwire, hoff, hqoff⟩ := hs hpos.1 hpos.2
            rw [step, onModeChanged_eq env c hpos.1 hpos.2, if_neg (by simp [ho.streaming])]
            exact ho.remade hwire hoff hqoff _ grab
          · rw [step, onModeChanged, if_pos (by omega)]
            exact ho
      | _ => cases hm
    · exact step_opened ho hev (by simpa using hm)

/-- **Mode changes and the stream.**  In every run of an EVDI client whose mode changes are
smooth, what was sent is a piece of one hello and whole messages in its geometry. -/
theorem stream_wellFormed_of_smooth (env : Env) (neg : Negotiated) (es : List Event)
    (hev : ∀ ev ∈ es, ev.isEvdi = true)
    (hes : Along Smooth (step env) (Client.fresh neg : Client D) es) :
    (run (step env) (Client.fresh neg : Client D) es).tx.WellFormed := by
  have hstep : ∀ (d : Client D) ev, ev.isEvdi = true ∧ Smooth d ev → d.tx.Phased →
      (step env d ev).tx.Phased := fun d ev h hd => step_phased h.1 h.2 hd
  have hrun := run_invariant hstep (s := Client.fresh neg) (.inl ⟨false, rfl⟩)
    (along_and (along_of_forall hev) hes)
  exact hrun.wellFormed

end Step

/-- The socket takes five bytes once, then everything. -/
def Env.stutters : Env := { Env.willing with sock := fun k => if k < 4 then 5 else 65536 }

/-- A first mode, the hello sent, and a mode of the same size. -/
theorem stream_wellFormed_of_smooth_tiny :
    let t := (run (step Env.willing) (Client.fresh .tiny : Client ℚ)
      [.modeChanged 2 1 (fun _ _ => 0) 0 0, .outReady false,
        .modeChanged 2 1 (fun _ _ => 7) 0 0]).tx
    t.wire.length = serverHelloSize ∧ t.WellFormed := by
  refine ⟨by decide +kernel, stream_wellFormed_of_smooth _ _ _ (by decide) ?_⟩
  refine ⟨?_, trivial, ?_, trivial⟩
  · intro _ _
    decide +kernel
  · intro _ _
    decide +kernel

/-- A well-formed stream of at least a hello starts with a hello that was handed over. -/
lemma Tx.WellFormed.hello_mem {t : Tx} (h : t.WellFormed)
    (hlen : serverHelloSize ≤ t.wire.length) : .ctrl (t.wire.take serverHelloSize) ∈ t.msgs := by
  obtain hw | ⟨hello, rest, hsub, hpre, -⟩ := h
  · simp [hw, serverHelloSize] at hlen
  · have htake : t.wire.take serverHelloSize = hello.bytes := by
      rw [List.prefix_iff_eq_take.mp hpre, List.take_take, min_eq_left hlen,
        List.take_append_of_le_length (by simp), List.take_of_length_le (by simp)]
    rw [htake]
    exact hsub.subset (List.mem_cons_self ..)

/-- **A hello cut in half.**  The mode is set again, in the same size, when five bytes of the
hello are out; the rest of it is dropped and a rectangle follows. -/
theorem stream_not_wellFormed_of_cut_hello :
    ¬(run (step Env.stutters) (Client.fresh .tiny : Client ℚ)
      [.modeChanged 2 1 (fun _ _ => 0) 0 0, .outReady false, .modeChanged 2 1 (fun _ _ => 0) 0 0,
        .damage (fun _ _ => 0xFFFFFF) [⟨0, 0, 2, 1⟩], .outReady false,
        .outReady false]).tx.WellFormed := by
  intro h
  exact absurd (h.hello_mem (by decide +kernel)) (by decide +kernel)

end Sremfb
