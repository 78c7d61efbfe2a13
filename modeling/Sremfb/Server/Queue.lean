import Sremfb.Server.Client

/-!
# The control queue and the mode switch (`xmit.c`, first part)

The pieces of the transmitter that the pressure controller calls back into: arming the drain
(`sremfb_xmit_kick`), queueing a control message (`sremfb_xmit_ctrl`), the server hello and the
RAW/H.264 switch (`sremfb_xmit_set_mode`).  They come before `control.c` because the controller
needs them and the frame builds, in turn, need the controller.

The two directions of the switch are functions of the transmit state alone.  `Tx.enterH264`
forces an IDR and turns whatever was pending into a full frame.  `Tx.leaveH264` queues the EOS
and marks the whole frame dirty: the EOS travels in the control queue while frames travel
outside it, and the snapshot is what makes the client's screen exact again.
-/

namespace Sremfb

open Lib

variable {D : Type}

namespace Tx

/-- There is something to send: the condition `sremfb_xmit_kick` arms on. -/
def pending (t : Tx) : Bool :=
  t.outActive || !t.outq.isEmpty || !t.dirty.isEmpty || t.dirtyAll

/-- `sremfb_xmit_kick`. -/
def xmitKick (t : Tx) : Tx :=
  if !t.fd || t.lost || t.outWatch then t
  else if !t.pending then t
  else { t with outWatch := true }

/-- `sremfb_xmit_ctrl`. -/
def xmitCtrl (t : Tx) (msg : List UInt8) : Tx :=
  if !t.fd || t.lost then t
  else
    xmitKick { t with
      outq := t.outq ++ [msg]
      wireTotal := t.wireTotal + msg.length
      log := t.log ++ [.ctrl msg] }

/-- `sremfb_xmit_hello`; `token` is the client's audio token. -/
def xmitHello (t : Tx) (fmt : PixFmt) (flags : UInt8) (token : UInt16) : Tx :=
  t.xmitCtrl (ServerHello.bytes {
    width := UInt16.ofNat t.width
    height := UInt16.ofNat t.height
    pixfmt := fmt.code
    flags := flags
    audioToken := if flags &&& srvFlagAudio = 0 then 0 else token })

/-- `sremfb_schedule_client_lost`. -/
def scheduleClientLost (t : Tx) : Tx := { t with lost := true }

/-- The second half of `sremfb_xmit_set_mode(c, SREMFB_XMIT_H264)`, with the encoder open. -/
def enterH264 (t : Tx) (now : ℤ) : Tx :=
  let t := { t with forceIdr := true, xmitMode := .h264, log := t.log ++ [.opened now] }
  if !t.dirty.isEmpty || t.dirtyAll then { t with dirty := [], dirtyAll := true } else t

/-- `sremfb_xmit_set_mode(c, SREMFB_XMIT_RAW)` past its guard. -/
def leaveH264 (t : Tx) : Tx :=
  let t := { t with xmitMode := .raw }
  let t := t.xmitCtrl eosMsg
  xmitKick { t with dirty := [], dirtyAll := true }

end Tx

/-- `sremfb_ctl_initial_kbps`: `KBPS_START`. -/
def ctlInitialKbps : ℤ := 8000

/-- `sremfb_xmit_set_mode`. -/
def xmitSetMode (env : Env) (c : Client D) (mode : XmitMode) : Client D :=
  if c.tx.xmitMode = mode ∨ c.tx.state ≠ .streaming then c
  else
    match mode with
    | .raw => { c with tx := c.tx.leaveH264 }
    | .h264 =>
        if c.tx.enc then { c with tx := c.tx.enterH264 (env.clock c.tick) }
        else if env.encOpen c.tick then
          let c := Client.ticked { c with
            tx := { c.tx with enc := true }
            ctl := { c.ctl with kbps := ctlInitialKbps } }
          { c with tx := c.tx.enterH264 (env.clock c.tick) }
        else Client.ticked { c with tx := { c.tx with h264Failed := true } }

/-! ## What the primitives do -/

namespace Tx

/-- Kicking changes nothing but the watch. -/
lemma xmitKick_eq (t : Tx) : ∃ w, t.xmitKick = { t with outWatch := w } := by
  unfold xmitKick
  split_ifs
  · exact ⟨t.outWatch, rfl⟩
  · exact ⟨t.outWatch, rfl⟩
  · exact ⟨true, rfl⟩

lemma xmitKick_of_closed {t : Tx} (h : t.fd = false ∨ t.lost = true) : t.xmitKick = t := by
  rcases h with h | h <;> simp [xmitKick, h]

/-- After a kick, pending work of a live client is watched. -/
lemma xmitKick_awake {t : Tx} (hfd : t.fd = true) (hlost : t.lost = false)
    (hp : t.xmitKick.pending = true) : t.xmitKick.outWatch = true := by
  unfold xmitKick at *
  simp only [hfd, hlost] at *
  by_cases hw : t.outWatch = true
  · simp [hw]
  · by_cases hq : t.pending = true
    · simp [hw, hq]
    · simp [hw, hq] at hp

/-- An armed watch survives a kick. -/
lemma xmitKick_watch {t : Tx} (h : t.outWatch = true) : t.xmitKick.outWatch = true := by
  simp [xmitKick, h]

/-- A queued message is watched. -/
lemma xmitCtrl_watch {t : Tx} (hfd : t.fd = true) (hlost : t.lost = false) (m : List UInt8) :
    (t.xmitCtrl m).outWatch = true := by
  unfold xmitCtrl
  rw [if_neg (by simp [hfd, hlost])]
  refine xmitKick_awake hfd hlost ?_
  obtain ⟨w, hw⟩ := xmitKick_eq { t with
    outq := t.outq ++ [m]
    wireTotal := t.wireTotal + m.length
    log := t.log ++ [.ctrl m] }
  rw [hw]
  simp [pending]

/-- A control message for a client that is closed or scheduled for loss is dropped; otherwise
it is queued, logged, and at most the watch changes besides. -/
lemma xmitCtrl_cases (t : Tx) (m : List UInt8) :
    ((t.fd = false ∨ t.lost = true) ∧ t.xmitCtrl m = t) ∨
      (t.fd = true ∧ t.lost = false ∧ ∃ w, t.xmitCtrl m = { t with
        outq := t.outq ++ [m]
        wireTotal := t.wireTotal + m.length
        log := t.log ++ [.ctrl m]
        outWatch := w }) := by
  unfold xmitCtrl
  by_cases hfd : t.fd = true
  · by_cases hl : t.lost = true
    · exact .inl ⟨.inr hl, by simp [hl]⟩
    · right
      refine ⟨hfd, by simpa using hl, ?_⟩
      obtain ⟨w, hw⟩ := xmitKick_eq { t with
        outq := t.outq ++ [m]
        wireTotal := t.wireTotal + m.length
        log := t.log ++ [.ctrl m] }
      refine ⟨w, ?_⟩
      rw [if_neg (by simp [hfd, hl])]
      exact hw
  · exact .inl ⟨.inl (by simpa using hfd), by simp [hfd]⟩

/-- Leaving H.264 queues the EOS unless the client is closed or scheduled for loss. -/
lemma leaveH264_cases (t : Tx) :
    ((t.fd = false ∨ t.lost = true) ∧
        t.leaveH264 = { t with xmitMode := .raw, dirty := [], dirtyAll := true }) ∨
      (t.fd = true ∧ t.lost = false ∧ ∃ w, t.leaveH264 = { t with
        xmitMode := .raw
        dirty := []
        dirtyAll := true
        outq := t.outq ++ [eosMsg]
        wireTotal := t.wireTotal + eosMsg.length
        log := t.log ++ [.ctrl eosMsg]
        outWatch := w }) := by
  unfold leaveH264
  rcases xmitCtrl_cases { t with xmitMode := .raw } eosMsg with ⟨hc, h⟩ | ⟨hfd, hl, w, h⟩
  · left
    refine ⟨hc, ?_⟩
    simp only [h]
    exact xmitKick_of_closed hc
  · right
    obtain ⟨w', hw'⟩ := xmitKick_eq { t with
      xmitMode := .raw
      dirty := []
      dirtyAll := true
      outq := t.outq ++ [eosMsg]
      wireTotal := t.wireTotal + eosMsg.length
      log := t.log ++ [.ctrl eosMsg]
      outWatch := w }
    refine ⟨hfd, hl, w', ?_⟩
    simp only [h]
    exact hw'

lemma enterH264_eq (t : Tx) (now : ℤ) :
    t.enterH264 now = { t with
      forceIdr := true
      xmitMode := .h264
      log := t.log ++ [.opened now]
      dirty := []
      dirtyAll := !t.dirty.isEmpty || t.dirtyAll } := by
  unfold enterH264
  rcases hd : t.dirty with _ | ⟨r, ds⟩
  · cases ha : t.dirtyAll <;> simp
  · simp

end Tx

/-- A mode switch does nothing when there is nothing to switch or nothing streams; it leaves
H.264; the encoder fails to open; or it enters H.264, opening the encoder when needed. -/
lemma xmitSetMode_cases (env : Env) (c : Client D) (m : XmitMode) :
    xmitSetMode env c m = c ∧ (c.tx.xmitMode = m ∨ c.tx.state ≠ .streaming) ∨
    c.tx.state = .streaming ∧ c.tx.xmitMode = .h264 ∧ m = .raw ∧
      xmitSetMode env c m = { c with tx := c.tx.leaveH264 } ∨
    c.tx.state = .streaming ∧ c.tx.xmitMode = .raw ∧ m = .h264 ∧
      (xmitSetMode env c m =
          { c with tx := { c.tx with h264Failed := true }, tick := c.tick + 1 } ∨
        ∃ kbps n, c.tick ≤ n ∧ xmitSetMode env c m =
          { c with
            tx := { c.tx with enc := true }.enterH264 (env.clock n)
            ctl := { c.ctl with kbps := kbps }
            tick := n }) := by
  unfold xmitSetMode
  by_cases hg : c.tx.xmitMode = m ∨ c.tx.state ≠ .streaming
  · exact .inl ⟨if_pos hg, hg⟩
  right
  rw [if_neg hg]
  push Not at hg
  obtain ⟨hne, hs⟩ := hg
  cases m with
  | raw =>
      have hm : c.tx.xmitMode = .h264 := by cases h : c.tx.xmitMode <;> simp_all
      exact .inl ⟨hs, hm, rfl, rfl⟩
  | h264 =>
      have hm : c.tx.xmitMode = .raw := by cases h : c.tx.xmitMode <;> simp_all
      refine .inr ⟨hs, hm, rfl, ?_⟩
      by_cases he : c.tx.enc = true
      · right
        refine ⟨c.ctl.kbps, c.tick, le_rfl, ?_⟩
        simp only [he, if_true]
        rw [show ({ c.tx with enc := true } : Tx) = c.tx by rw [← he]]
      · by_cases ho : env.encOpen c.tick = true
        · right
          exact ⟨ctlInitialKbps, c.tick + 1, by omega, by simp [he, ho, Client.ticked]⟩
        · left
          simp [he, ho, Client.ticked]

/-- What a decision does to the transmit side. -/
inductive Tx.Switched (t : Tx) : Tx → Prop
  | same : t.Switched t
  | leave (hs : t.state = .streaming) (hm : t.xmitMode = .h264) : t.Switched t.leaveH264
  | failed (hs : t.state = .streaming) (hm : t.xmitMode = .raw) :
      t.Switched { t with h264Failed := true }
  | enter (hs : t.state = .streaming) (hm : t.xmitMode = .raw) (now : ℤ) :
      t.Switched ({ t with enc := true }.enterH264 now)

lemma xmitSetMode_switched (env : Env) (c : Client D) (m : XmitMode) :
    c.tx.Switched (xmitSetMode env c m).tx := by
  obtain ⟨h, -⟩ | ⟨hs, hm, -, h⟩ | ⟨hs, hm, -, h | ⟨k, n, -, h⟩⟩ := xmitSetMode_cases env c m
  · rw [h]
    exact .same
  · rw [h]
    exact .leave hs hm
  · rw [h]
    exact .failed hs hm
  · rw [h]
    exact .enter hs hm (env.clock n)

@[simp] lemma xmitSetMode_neg (env : Env) (c : Client D) (m : XmitMode) :
    (xmitSetMode env c m).neg = c.neg := by
  obtain ⟨h, -⟩ | ⟨-, -, -, h⟩ | ⟨-, -, -, h | ⟨k, n, -, h⟩⟩ := xmitSetMode_cases env c m
  · rw [h]
  · rw [h]
  · rw [h]
  · rw [h]

end Sremfb
