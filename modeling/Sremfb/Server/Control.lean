import Sremfb.Server.Queue

/-!
# The pressure controller (`control.c`)

The controller measures congestion as the delay of echoed PINGs and decides when a client
should be sent H.264.  It is entered from five places — damage, a built frame, an echo, the
ping timer and the start of streaming — and every one of them ends in `ctl_evaluate`, the state
machine over `RAW_STEADY`, `RAW_SUSPECT`, `H264_ACTIVE` and `H264_COOLDOWN`.

Each reading of the clock is an interaction of its own, as in the source: `ctl_evaluate` reads
it once on entry and `ctl_set_state` reads it again when it changes the state.

`Evaluated` says once everything an evaluation can do and under which guard
(`ctlEvaluate_evaluated`).  The results about the controller are all derived from it.
-/

namespace Sremfb

open Lib

variable {D : Type}

/-! ## Constants -/

def pingIdleUs : ℤ := 2000000
def pongDeadUs : ℤ := 6000000
def pingsMaxFlight : ℕ := 4
def damageGapUs : ℤ := 100000
def damageContUs : ℤ := 1000000
def enterConfirmUs : ℤ := 500000
def rawGraceUs : ℤ := 2000000
def exitCalmUs : ℤ := 10000000
def capWindowUs : ℤ := 1000000
def usecPerSec : ℤ := 1000000
def kbpsMin : ℤ := 1500
def kbpsMax : ℤ := 40000
def aimdUpKbps : ℤ := 500

section Measure

variable [CDouble D]

def delayHiUs : D := 150000.0
def delayAimdLoUs : D := 50000.0
def delayLoUs : D := 30000.0
def fpsMin : D := 15.0
def exitHeadroom : D := 0.5

/-- The `EWMA` macro. -/
def ewma (cur x a : D) : D := if cur == 0.0 then x else cur + a * (x - cur)

def h264Allowed (env : Env) (c : Client D) : Bool :=
  c.neg.h264Cap && c.neg.feedback && !c.tx.h264Failed && !env.noH264

def damageContinuous (c : Client D) (now : ℤ) : Bool :=
  decide (c.ctl.lastGrabUs ≠ 0) && decide (now - c.ctl.lastGrabUs < damageGapUs)

def rawPredictedBps (c : Client D) : D :=
  let ratio := if CDouble.lt 1.0 c.ctl.lz4RatioEwma then c.ctl.lz4RatioEwma else 1.0
  c.ctl.rawRateBps / ratio

def rawPressure (c : Client D) (now : ℤ) : Bool :=
  CDouble.lt delayHiUs c.ctl.delayEwmaUs ||
    (CDouble.lt 0.1 c.ctl.grabFps && CDouble.lt c.ctl.grabFps fpsMin &&
      damageContinuous c now && decide (now - c.ctl.damageContUs > damageContUs))

/-- The exit predictor of `ctl_evaluate`: RAW would drown the measured capacity again, on
average or in one burst. -/
def rawWontFit (c : Client D) : Bool :=
  CDouble.lt 0.0 c.ctl.capacityBps &&
    let pred := rawPredictedBps c
    CDouble.lt (exitHeadroom * c.ctl.capacityBps) pred ||
      (CDouble.lt 0.1 c.ctl.grabFps &&
        CDouble.lt (exitHeadroom * delayHiUs)
          (pred / c.ctl.grabFps / c.ctl.capacityBps * CDouble.ofInt usecPerSec))

end Measure

/-! ## The state machine -/

/-- `ctl_set_state`. -/
def ctlSetState (env : Env) (c : Client D) (s : CtlState) : Client D :=
  if c.ctl.state = s then c
  else
    Client.ticked { c with
      ctl := { c.ctl with state := s, sinceUs := env.clock c.tick, calmUs := 0 } }

lemma ctlSetState_of_ne (env : Env) {c : Client D} {s : CtlState} (h : c.ctl.state ≠ s) :
    ctlSetState env c s = { c with
      ctl := { c.ctl with state := s, sinceUs := env.clock c.tick, calmUs := 0 }
      tick := c.tick + 1 } :=
  if_neg h

@[simp] lemma ctlSetState_state (env : Env) (c : Client D) (s : CtlState) :
    (ctlSetState env c s).ctl.state = s := by
  unfold ctlSetState
  split <;> rename_i h
  · exact h
  · rfl

@[simp] lemma ctlSetState_tx (env : Env) (c : Client D) (s : CtlState) :
    (ctlSetState env c s).tx = c.tx := by
  unfold ctlSetState
  split <;> rfl

@[simp] lemma ctlSetState_neg (env : Env) (c : Client D) (s : CtlState) :
    (ctlSetState env c s).neg = c.neg := by
  unfold ctlSetState
  split <;> rfl

/-- `send_ping`. -/
def sendPing (env : Env) (c : Client D) : Client D :=
  let t := env.clock c.tick
  let c := c.ticked
  let c := { c with tx := c.tx.xmitCtrl (pingMsg t) }
  { c with
    ctl := { c.ctl with
      pingsOutstanding := c.ctl.pingsOutstanding + 1
      lastPingUs := t
      pingWireMark := c.tx.wireTotal } }

section Evaluate

variable [CDouble D]

/-- The entry into H.264 at the end of a confirmed `RAW_SUSPECT`. -/
def ctlEnter (env : Env) (c : Client D) (now : ℤ) : Client D :=
  let c := xmitSetMode env c .h264
  if c.tx.xmitMode = .h264 then
    let backoff := if c.ctl.exitUs ≠ 0 ∧ now - c.ctl.exitUs < 8 * usecPerSec
      then min (c.ctl.probeBackoff + 1) 6 else 0
    ctlSetState env { c with ctl := { c.ctl with probeBackoff := backoff } } .h264Active
  else ctlSetState env c .rawSteady

/-- The exit back to RAW at the end of a long enough `H264_COOLDOWN`. -/
def ctlExit (env : Env) (c : Client D) (now : ℤ) : Client D :=
  let c := xmitSetMode env c .raw
  let c := ctlSetState env c .rawSteady
  { c with ctl := { c.ctl with exitUs := now } }

/-- `ctl_evaluate`. -/
def ctlEvaluate (env : Env) (c : Client D) : Client D :=
  let now := env.clock c.tick
  let c := c.ticked
  let pressure := rawPressure c now || (env.forceH264 && h264Allowed env c)
  match c.ctl.state with
  | .rawSteady =>
      if c.ctl.sinceUs ≠ 0 ∧ now - c.ctl.sinceUs < rawGraceUs then c
      else if pressure then ctlSetState env c .rawSuspect
      else c
  | .rawSuspect =>
      if !pressure then ctlSetState env c .rawSteady
      else if now - c.ctl.sinceUs > enterConfirmUs ∨ env.forceH264 = true then
        if !h264Allowed env c then
          if now - c.ctl.sinceUs > 30 * usecPerSec then ctlSetState env c .rawSteady else c
        else ctlEnter env c now
      else c
  | .h264Active =>
      if env.forceH264 then c
      else if CDouble.lt c.ctl.delayEwmaUs delayLoUs then
        let c := ctlSetState env c .h264Cooldown
        { c with ctl := { c.ctl with calmUs := now } }
      else c
  | .h264Cooldown =>
      if CDouble.lt delayHiUs c.ctl.delayEwmaUs then ctlSetState env c .h264Active
      else
        let c := if c.ctl.calmUs = 0 then { c with ctl := { c.ctl with calmUs := now } } else c
        let calm := now - c.ctl.calmUs
        if CDouble.lt delayLoUs c.ctl.delayEwmaUs then c
        else if calm < exitCalmUs then c
        else if rawWontFit c && (decide (calm < 3 * 2 ^ c.ctl.probeBackoff * exitCalmUs) ||
            damageContinuous c now) then c
        else ctlExit env c now

/-! ## The entries -/

/-- `sremfb_enc_set_bitrate`. -/
def encSetBitrate (env : Env) (c : Client D) (kbps : ℤ) : Client D :=
  if kbps = c.ctl.kbps then c
  else
    let ok := env.reconfig c.tick
    let c := c.ticked
    if ok then { c with ctl := { c.ctl with kbps := kbps } } else c

/-- `ctl_aimd`. -/
def ctlAimd (env : Env) (c : Client D) : Client D :=
  if c.tx.xmitMode ≠ .h264 ∨ c.tx.enc = false then c
  else if CDouble.lt delayHiUs c.ctl.delayEwmaUs then
    encSetBitrate env c
      (clamp (CDouble.trunc ((CDouble.ofInt c.ctl.kbps : D) * 0.7)) kbpsMin kbpsMax)
  else if CDouble.lt c.ctl.delayEwmaUs delayAimdLoUs then
    let now := env.clock c.tick
    let c := c.ticked
    if now - c.ctl.lastEncUs < usecPerSec / 2 then
      encSetBitrate env c (clamp (c.ctl.kbps + aimdUpKbps) kbpsMin kbpsMax)
    else c
  else c

/-- `sremfb_ctl_skip_encode`, with the clock it read when it had to. -/
def ctlSkipEncode (env : Env) (c : Client D) : Client D × Bool :=
  if CDouble.le c.ctl.delayEwmaUs delayHiUs then (c, false)
  else (c.ticked, decide (env.clock c.tick - c.ctl.lastEncUs <
    CDouble.trunc ((CDouble.ofInt usecPerSec : D) / fpsMin)))

/-- `sremfb_ctl_on_pong`. -/
def ctlOnPong (env : Env) (c : Client D) (tEcho : UInt64) : Client D :=
  let now := env.clock c.tick
  let c := c.ticked
  let delay : D := CDouble.ofInt (now - tEcho.toBitVec.toInt)
  if CDouble.lt delay 0.0 || CDouble.lt ((60.0 : D) * CDouble.ofInt usecPerSec) delay then c
  else
    let c := { c with
      ctl := { c.ctl with
        lastPongUs := now
        pingsOutstanding := c.ctl.pingsOutstanding - 1 } }
    if c.ctl.state = .rawSteady ∧ c.ctl.sinceUs ≠ 0 ∧ now - c.ctl.sinceUs < rawGraceUs then
      ctlEvaluate env c
    else
      let c := { c with
        ctl := { c.ctl with delayEwmaUs := ewma c.ctl.delayEwmaUs delay 0.3 } }
      ctlEvaluate env (ctlAimd env c)

/-- `ctl_windows`. -/
def ctlWindows (c : Client D) (now : ℤ) : Client D :=
  if c.ctl.capWinStartUs = 0 then { c with ctl := { c.ctl with capWinStartUs := now } }
  else
    let win := now - c.ctl.capWinStartUs
    if win < capWindowUs then c
    else
      let wireRate : D :=
        CDouble.ofInt c.ctl.capWinBytes * CDouble.ofInt usecPerSec / CDouble.ofInt win
      let rawRate : D :=
        CDouble.ofInt c.ctl.rawWinBytes * CDouble.ofInt usecPerSec / CDouble.ofInt win
      let c := { c with
        ctl := { c.ctl with rawRateBps := ewma c.ctl.rawRateBps rawRate 0.3 } }
      let c := if c.tx.xmitMode = .raw ∧ CDouble.lt 0.0 wireRate = true ∧
          rawPressure c now = true then
        { c with ctl := { c.ctl with capacityBps := ewma c.ctl.capacityBps wireRate 0.3 } }
        else c
      let c := if c.tx.xmitMode = .raw ∧ c.ctl.capWinBytes > 0 then
        { c with
          ctl := { c.ctl with
            lz4RatioEwma := ewma c.ctl.lz4RatioEwma (rawRate / wireRate) 0.2 } }
        else c
      { c with ctl := { c.ctl with capWinStartUs := now, capWinBytes := 0, rawWinBytes := 0 } }

/-- `sremfb_ctl_on_damage`. -/
def ctlOnDamage (env : Env) (c : Client D) (rawBytes : ℕ) : Client D :=
  let now := env.clock c.tick
  let c := c.ticked
  let c := if c.ctl.lastGrabUs = 0 ∨ now - c.ctl.lastGrabUs ≥ damageGapUs then
    { c with ctl := { c.ctl with damageContUs := now } } else c
  let c := { c with
    ctl := { c.ctl with lastGrabUs := now, rawWinBytes := c.ctl.rawWinBytes + rawBytes } }
  ctlEvaluate env (ctlWindows c now)

/-- `sremfb_ctl_on_deliver`. -/
def ctlOnDeliver (env : Env) (c : Client D) (wireBytes : ℕ) : Client D :=
  let now := env.clock c.tick
  let c := c.ticked
  let gap : D := CDouble.ofInt (now - c.ctl.lastDeliverUs)
  let c := if c.ctl.lastDeliverUs ≠ 0 ∧ CDouble.lt 0.0 gap = true then
    { c with
      ctl := { c.ctl with grabFps := ewma c.ctl.grabFps (CDouble.ofInt usecPerSec / gap) 0.2 } }
    else c
  let c := { c with
    ctl := { c.ctl with lastDeliverUs := now, capWinBytes := c.ctl.capWinBytes + wireBytes } }
  ctlEvaluate env (ctlWindows c now)

/-- `ping_tick`. -/
def pingTick (env : Env) (c : Client D) : Client D :=
  let now := env.clock c.tick
  let c := c.ticked
  if c.tx.fd = false ∨ c.tx.state ≠ .streaming ∨ c.tx.lost = true then c
  else if c.ctl.pingsOutstanding > 0 ∧ now - c.ctl.lastPongUs > pongDeadUs then
    { c with tx := c.tx.scheduleClientLost }
  else if c.tx.wireTotal = c.ctl.pingWireMark then
    let c := { c with
      ctl := { c.ctl with
        delayEwmaUs := ewma c.ctl.delayEwmaUs 0.0 0.1
        rawRateBps := ewma c.ctl.rawRateBps 0.0 0.1 } }
    let c := ctlEvaluate env c
    if now - c.ctl.lastPingUs < pingIdleUs ∨ c.ctl.pingsOutstanding ≥ pingsMaxFlight then c
    else sendPing env c
  else if c.ctl.pingsOutstanding ≥ pingsMaxFlight then c
  else sendPing env c

/-- `sremfb_ctl_start`. -/
def ctlStart (env : Env) (c : Client D) : Client D :=
  let c := { c with tx := { c.tx with xmitMode := .raw, wireTotal := 0 } }
  let c := ctlSetState env c .rawSteady
  let since := env.clock c.tick
  let c := c.ticked
  let pong := env.clock c.tick
  let c := c.ticked
  { c with
    ctl := { c.ctl with
      sinceUs := since
      delayEwmaUs := 0.0
      grabFps := 0.0
      lastGrabUs := 0
      lastDeliverUs := 0
      lastPingUs := 0
      lastPongUs := pong
      pingsOutstanding := 0
      pingWireMark := 0
      capWinStartUs := 0
      capWinBytes := 0
      rawWinBytes := 0
      pingTimer := c.ctl.pingTimer || c.neg.feedback } }

/-! ## What an evaluation can do -/

/-- The outcomes of `ctl_evaluate`; `now` is the clock it read on entry. -/
inductive Evaluated (env : Env) (c : Client D) (now : ℤ) : Client D → Prop
  | idle : Evaluated env c now c.ticked
  | suspect (hs : c.ctl.state = .rawSteady)
      (hg : c.ctl.sinceUs = 0 ∨ rawGraceUs ≤ now - c.ctl.sinceUs) :
      Evaluated env c now (ctlSetState env c.ticked .rawSuspect)
  | relax (hs : c.ctl.state = .rawSuspect) :
      Evaluated env c now (ctlSetState env c.ticked .rawSteady)
  | enter (hs : c.ctl.state = .rawSuspect)
      (hc : enterConfirmUs < now - c.ctl.sinceUs ∨ env.forceH264 = true)
      (ha : h264Allowed env c.ticked = true) : Evaluated env c now (ctlEnter env c.ticked now)
  | cool (hs : c.ctl.state = .h264Active) (d : Client D)
      (hd : d = ctlSetState env c.ticked .h264Cooldown) :
      Evaluated env c now { d with ctl := { d.ctl with calmUs := now } }
  | heat (hs : c.ctl.state = .h264Cooldown) :
      Evaluated env c now (ctlSetState env c.ticked .h264Active)
  | calm (hs : c.ctl.state = .h264Cooldown) :
      Evaluated env c now { c.ticked with ctl := { c.ctl with calmUs := now } }
  /-- A calm streak that only starts now is not long enough, so it started before. -/
  | exit (hs : c.ctl.state = .h264Cooldown) (hc : c.ctl.calmUs ≠ 0)
      (hl : exitCalmUs ≤ now - c.ctl.calmUs) : Evaluated env c now (ctlExit env c.ticked now)

lemma ctlEvaluate_evaluated (env : Env) (c : Client D) :
    Evaluated env c (env.clock c.tick) (ctlEvaluate env c) := by
  unfold ctlEvaluate
  dsimp only
  split <;> rename_i hs
  · split_ifs with hg hp
    · exact .idle
    · refine .suspect hs ?_
      rw [not_and_or, not_lt, not_not] at hg
      exact hg
    · exact .idle
  · split_ifs with hp hc ha h30
    · exact .relax hs
    · exact .relax hs
    · exact .idle
    · exact .enter hs hc (by simpa using ha)
    · exact .idle
  · split_ifs with hf hd
    · exact .idle
    · exact Evaluated.cool (c := c) hs _ rfl
    · exact .idle
  · by_cases hd : CDouble.lt delayHiUs c.ticked.ctl.delayEwmaUs = true
    · rw [if_pos hd]
      exact .heat hs
    rw [if_neg hd]
    by_cases hz : c.ticked.ctl.calmUs = 0
    · -- the streak starts now: `calm` is zero and the exit is out of reach
      simp only [hz, if_true, sub_self, show (0 : ℤ) < exitCalmUs by decide, ite_self]
      exact .calm hs
    · simp only [hz, if_false]
      split_ifs with hlo hl hw
      · exact .idle
      · exact .idle
      · exact .idle
      · exact .exit hs hz (not_lt.mp hl)

/-- On the transmit side an evaluation is at most one mode switch. -/
lemma ctlEvaluate_switched (env : Env) (c : Client D) :
    c.tx.Switched (ctlEvaluate env c).tx ∧ (ctlEvaluate env c).neg = c.neg := by
  have he := ctlEvaluate_evaluated env c
  generalize ctlEvaluate env c = d at he
  have hset : ∀ m, c.tx.Switched (xmitSetMode env c.ticked m).tx := fun m =>
    xmitSetMode_switched env c.ticked m
  cases he with
  | idle | calm => exact ⟨.same, rfl⟩
  | suspect | relax | heat => exact ⟨by simpa using .same, by simp⟩
  | cool hs d hd => exact ⟨by simpa [hd] using .same, by simp [hd]⟩
  | enter =>
      unfold ctlEnter
      dsimp only
      split
      · exact ⟨by simpa using hset .h264, by simp⟩
      · exact ⟨by simpa using hset .h264, by simp⟩
  | exit => exact ⟨by simpa [ctlExit] using hset .raw, by simp [ctlExit]⟩

/-- The controller enters H.264 only with a client that offered it. -/
lemma ctlEvaluate_h264Cap (env : Env) (c : Client D)
    (h : (ctlEvaluate env c).tx.xmitMode = .h264) :
    c.tx.xmitMode = .h264 ∨ c.neg.h264Cap = true := by
  have he := ctlEvaluate_evaluated env c
  generalize ctlEvaluate env c = d at he h
  cases he with
  | idle | calm => exact .inl h
  | suspect | relax | heat => exact .inl (by simpa using h)
  | cool hs d hd => exact .inl (by simpa [hd] using h)
  | enter hs hc ha =>
      unfold h264Allowed at ha
      simp only [Client.ticked_neg, Bool.and_eq_true] at ha
      exact .inr ha.1.1.1
  | exit =>
      have hm : (xmitSetMode env c.ticked .raw).tx.xmitMode = .h264 := by simpa [ctlExit] using h
      unfold xmitSetMode at hm
      dsimp only at hm
      split_ifs at hm with hc
      · exact .inl hm
      · obtain ⟨-, h⟩ | ⟨-, -, w, h⟩ := c.tx.leaveH264_cases <;> rw [Client.ticked_tx, h] at hm <;>
          cases hm

end Evaluate

end Sremfb
