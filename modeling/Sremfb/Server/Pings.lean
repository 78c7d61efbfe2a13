import Mathlib.Data.Int.ConditionallyCompleteOrder
import Sremfb.Server.Steps

/-!
# PINGs in flight and the watchdog

`ping_tick` drops a client that owes an echo when the *last* echo is six seconds old.  It does
not look at the oldest PING that is waiting, and it does not send one every time: a silent link
is asked every two seconds, a busy one every tick, and never with four PINGs in flight.  So an
echo may be old because nobody asked.

A PING counts as sent when it enters the log, and as echoed when its PONG is processed;
`Heard.waiting` is what lies between.  `Alive` says what the two ages have to do with each other
between callbacks: with nobody to wait for, the last tick is less than two seconds after the last
echo, for otherwise it would have asked; and the oldest PING waiting was stamped less than three
seconds after it, or sent by a tick that came less than two and a half seconds after it.

A tick reads the clock once on entry and `send_ping` reads it again, with an evaluation of the
controller in between.  Nothing bounds the distance of the two readings, which is why the second
case of the invariant speaks of the tick and not of the stamp.
-/

namespace Sremfb

open Lib Relation

variable {D : Type}

/-! ## PINGs in the log -/

/-- The control message is a PING. -/
def isPing (m : List UInt8) : Bool := (FrameHdr.ofBytes m).encoding == Encoding.ping.code

/-- The eight bytes of payload, which a client echoes as they are. -/
def pingStamp (m : List UInt8) : UInt64 := UInt64.ofNat (ofLe ((m.drop frameHdrSize).take 8))

/-- The stamp of a PING handed to the transmitter. -/
def Sent.stamp : Sent → Option UInt64
  | .ctrl m => if isPing m then some (pingStamp m) else none
  | _ => none

/-- The stamps of all PINGs sent, oldest first. -/
def Tx.pings (t : Tx) : List UInt64 := t.log.filterMap Sent.stamp

/-- `(gint64)t_echo_us`. -/
def stampUs (s : UInt64) : ℤ := s.toBitVec.toInt

lemma isPing_ctrlMsg {e : Encoding} (h : e ≠ .ping) : isPing (ctrlMsg e) = false := by
  rw [isPing, ctrlMsg, FrameHdr.ofBytes_bytes]
  revert h
  cases e <;> decide

/-- A clock reading comes back from its PING. -/
lemma stamp_pingMsg {t : ℤ} (h0 : 0 ≤ t) (h : t < 2 ^ 63) :
    ∃ s, Sent.stamp (.ctrl (pingMsg t)) = some s ∧ stampUs s = t := by
  have hhdr : (pingMsg t).getD 4 0 = Encoding.ping.code := rfl
  have hping : isPing (pingMsg t) = true := by
    rw [isPing, FrameHdr.ofBytes, hhdr]
    rfl
  have hbody : (pingMsg t).drop frameHdrSize = leBytes 8 (t.toNat % 2 ^ 64) := by
    rw [pingMsg, List.drop_append_of_le_length (by simp), List.drop_of_length_le (by simp),
      List.nil_append]
  have hstamp : pingStamp (pingMsg t) = UInt64.ofNat t.toNat := by
    rw [pingStamp, hbody, List.take_of_length_le (by simp), ofLe_leBytes_of_lt (by omega),
      Nat.mod_eq_of_lt (by omega)]
  refine ⟨UInt64.ofNat t.toNat, by rw [Sent.stamp, if_pos hping, hstamp], ?_⟩
  have hbits : (UInt64.ofNat t.toNat).toBitVec = BitVec.ofNat 64 t.toNat := rfl
  rw [stampUs, hbits, BitVec.toInt_ofNat', Int.bmod_def]
  omega

/-! ## Who sends PINGs -/

/-- Nobody but the controller sends PINGs. -/
def noPings : Rules where
  ctrl m := isPing m = false

lemma Tx.Logs.no_stamp {env : Env} {neg : Negotiated} {t : Tx} {new : List Sent}
    (h : t.Logs env neg noPings new) : new.filterMap Sent.stamp = [] := by
  cases h with
  | nothing | opened | rect | au => rfl
  | ctrl m hm =>
      have hno : isPing m = false := by
        obtain hm | ⟨rfl, -⟩ := hm
        · exact hm
        · exact isPing_ctrlMsg (by decide)
      simp [Sent.stamp, hno]

lemma TxStep.pings {env : Env} {neg : Negotiated} {t t' : Tx} (h : TxStep env neg noPings t t') :
    t'.pings = t.pings := by
  obtain ⟨new, hlog, hnew⟩ := h.logs
  rw [Tx.pings, hlog, List.filterMap_append, hnew.no_stamp, List.append_nil, Tx.pings]

lemma Tx.Switched.pings {t t' : Tx} (h : t.Switched t') : t'.pings = t.pings :=
  chain_invariant (r := TxStep .willing .tiny noPings) (P := fun u => u.pings = t.pings)
    (fun hs hu => hs.pings.trans hu) h.chain rfl

lemma Tx.Switched.lost {t t' : Tx} (h : t.Switched t') : t'.lost = t.lost := by
  cases h with
  | same | failed => rfl
  | leave =>
      obtain ⟨-, h⟩ | ⟨-, -, w, h⟩ := t.leaveH264_cases
      · rw [h]
      · rw [h]
  | enter => rw [Tx.enterH264_eq]

/-- A client that is scheduled for loss stays so. -/
lemma TxStep.lost {env : Env} {neg : Negotiated} {R : Rules} {t t' : Tx}
    (h : TxStep env neg R t t') (hl : t.lost = true) : t'.lost = true := by
  have hleave : ∀ u : Tx, u.lost = true → u.leaveH264.lost = true := by
    intro u hu
    obtain ⟨-, h⟩ | ⟨-, -, w, h⟩ := u.leaveH264_cases
    · rw [h]
      exact hu
    · rw [h]
      exact hu
  have hshadow : ∀ (u : Tx) r, (u.shadowUpdate r).lost = u.lost := by
    intro u r
    obtain ⟨f, hf⟩ := u.shadowUpdate_eq r
    rw [hf]
  cases h with
  | leave => exact hleave t hl
  | encodeFail => exact hleave _ ((hshadow _ _).trans hl)
  | enter =>
      rw [Tx.enterH264_eq]
      exact hl
  | act h =>
      cases h with
      | ctrl m =>
          obtain ⟨-, h⟩ | ⟨-, -, w, h⟩ := t.xmitCtrl_cases m
          · rw [h]
            exact hl
          · rw [h]
            exact hl
      | damage grab rects =>
          obtain ⟨ds, a, h⟩ := Tx.damageRects_eq neg.pixfmt.bytespp { t with grabbuf := grab } rects
          rw [h]
          exact hl
      | snapshot | rect | encodeAu | encodeNothing => exact (hshadow _ _).trans hl
      | lose => rfl
      | aux | repaint | sendFrame | frameDone | sendHead | popHead => exact hl

/-! ## What the timer runs on -/

/-- The fields of the ping timer and the watchdog. -/
def Ctl.beat (k : Ctl D) : Bool × ℤ × ℤ × ℕ :=
  (k.pingTimer, k.lastPingUs, k.lastPongUs, k.pingsOutstanding)

@[simp] lemma ctlSetState_beat (env : Env) (c : Client D) (s : CtlState) :
    (ctlSetState env c s).ctl.beat = c.ctl.beat := by
  unfold ctlSetState
  split <;> rfl

@[simp] lemma xmitSetMode_beat (env : Env) (c : Client D) (m : XmitMode) :
    (xmitSetMode env c m).ctl.beat = c.ctl.beat := by
  obtain ⟨h, -⟩ | ⟨-, -, -, h⟩ | ⟨-, -, -, h | ⟨k, n, -, h⟩⟩ := xmitSetMode_cases env c m
  · rw [h]
  · rw [h]
  · rw [h]
  · rw [h]
    rfl

lemma ctlSetState_later (env : Env) {c : Client D} {n : ℕ} (s : CtlState) (h : n ≤ c.tick) :
    n ≤ (ctlSetState env c s).tick := by
  unfold ctlSetState
  split
  · exact h
  · exact h.trans (Nat.le_succ _)

lemma xmitSetMode_later (env : Env) (c : Client D) (m : XmitMode) :
    c.tick ≤ (xmitSetMode env c m).tick := by
  obtain ⟨h, -⟩ | ⟨-, -, -, h⟩ | ⟨-, -, -, h | ⟨k, n, hn, h⟩⟩ := xmitSetMode_cases env c m
  · rw [h]
  · rw [h]
  · rw [h]
    exact Nat.le_succ _
  · rw [h]
    exact hn

@[simp] lemma encSetBitrate_beat (env : Env) (c : Client D) (kbps : ℤ) :
    (encSetBitrate env c kbps).ctl.beat = c.ctl.beat := by
  unfold encSetBitrate
  dsimp only
  split_ifs <;> rfl

/-- The timer's fields, the PINGs and the connection are as they were. -/
structure Quiet (c d : Client D) : Prop where
  beat : d.ctl.beat = c.ctl.beat
  pings : d.tx.pings = c.tx.pings
  lost : d.tx.lost = c.tx.lost
  stream : c.tx.SameStream d.tx
  neg : d.neg = c.neg
  later : c.tick ≤ d.tick

lemma Quiet.ticked (c : Client D) : Quiet c c.ticked :=
  ⟨rfl, rfl, rfl, ⟨rfl, rfl, rfl, rfl, rfl⟩, rfl, Nat.le_succ _⟩

lemma Quiet.trans {c d e : Client D} (h : Quiet c d) (h' : Quiet d e) : Quiet c e :=
  ⟨h'.beat.trans h.beat, h'.pings.trans h.pings, h'.lost.trans h.lost, h.stream.trans h'.stream,
    h'.neg.trans h.neg, h.later.trans h'.later⟩

lemma Quiet.ctl {c d : Client D} (h : Quiet c d) {k : Ctl D} (hk : k.beat = d.ctl.beat) :
    Quiet c { d with ctl := k } :=
  ⟨hk.trans h.beat, h.pings, h.lost, h.stream, h.neg, h.later⟩

lemma Quiet.lastPingUs {c d : Client D} (h : Quiet c d) :
    d.ctl.lastPingUs = c.ctl.lastPingUs := congrArg (fun b => b.2.1) h.beat

lemma Quiet.pingsOutstanding {c d : Client D} (h : Quiet c d) :
    d.ctl.pingsOutstanding = c.ctl.pingsOutstanding := congrArg (fun b => b.2.2.2) h.beat

/-- The outcomes of a tick. -/
inductive Ticked (env : Env) (c : Client D) : Client D → Prop
  | closed (h : c.tx.fd = true → c.tx.state = .streaming → c.tx.lost = true) :
      Ticked env c c.ticked
  | drop (hfd : c.tx.fd = true) (hl : c.tx.lost = false) (ho : 0 < c.ctl.pingsOutstanding)
      (hp : pongDeadUs < env.clock c.tick - c.ctl.lastPongUs) :
      Ticked env c { c.ticked with tx := c.tx.scheduleClientLost }
  | rest (d : Client D) (hd : Quiet c d) (h : env.clock c.tick - c.ctl.lastPingUs < pingIdleUs ∨
        pingsMaxFlight ≤ c.ctl.pingsOutstanding) : Ticked env c d
  | ask (d : Client D) (hd : Quiet c d) (hfd : c.tx.fd = true) (hl : c.tx.lost = false)
      (ho : c.ctl.pingsOutstanding < pingsMaxFlight) : Ticked env c (sendPing env d)

/-- The two ways a tick ends that neither passes over the client nor drops it. -/
lemma Ticked.of_quiet {env : Env} {c d : Client D} (hd : Quiet c d) (hfd : c.tx.fd = true)
    (hl : c.tx.lost = false) :
    Ticked env c (if env.clock c.tick - d.ctl.lastPingUs < pingIdleUs ∨
      d.ctl.pingsOutstanding ≥ pingsMaxFlight then d else sendPing env d) := by
  rw [hd.lastPingUs, hd.pingsOutstanding]
  split <;> rename_i h
  · exact .rest d hd h
  · exact .ask d hd hfd hl (not_le.mp fun hm => h (.inr hm))

/-- What a PING that goes out changes. -/
lemma sendPing_sent (env : Env) {d : Client D} (hfd : d.tx.fd = true) (hl : d.tx.lost = false)
    (h0 : 0 ≤ env.clock d.tick) (h : env.clock d.tick < 2 ^ 63) :
    ∃ s, stampUs s = env.clock d.tick ∧ (sendPing env d).tx.pings = d.tx.pings ++ [s] ∧
      d.tx.SameStream (sendPing env d).tx ∧ (sendPing env d).tx.lost = false := by
  obtain ⟨s, hs, ht⟩ := stamp_pingMsg h0 h
  obtain ⟨hc, -⟩ | ⟨-, -, w, hx⟩ := d.tx.xmitCtrl_cases (pingMsg (env.clock d.tick))
  · simp [hfd, hl] at hc
  · refine ⟨s, ht, ?_, d.tx.sameStream_xmitCtrl _, ?_⟩
    · simp only [sendPing, Client.ticked_tx, hx, Tx.pings, List.filterMap_append,
        List.filterMap_cons, hs, List.filterMap_nil]
    · simp only [sendPing, Client.ticked_tx, hx, hl]

section Beat

variable [CDouble D]

lemma ctlEvaluate_beat (env : Env) (c : Client D) :
    (ctlEvaluate env c).ctl.beat = c.ctl.beat ∧ c.tick ≤ (ctlEvaluate env c).tick := by
  have he := ctlEvaluate_evaluated env c
  have hset : ∀ s, c.tick ≤ (ctlSetState env c.ticked s).tick := fun s =>
    ctlSetState_later env s (Nat.le_succ _)
  have hmode : ∀ m, c.tick ≤ (xmitSetMode env c.ticked m).tick := fun m =>
    (Nat.le_succ _).trans (xmitSetMode_later env c.ticked m)
  generalize ctlEvaluate env c = d at he
  cases he with
  | idle | calm => exact ⟨rfl, Nat.le_succ _⟩
  | suspect | relax | heat => exact ⟨by simp, hset _⟩
  | enter =>
      unfold ctlEnter
      dsimp only
      split
      · refine ⟨(ctlSetState_beat ..).trans (xmitSetMode_beat env c.ticked _), ?_⟩
        exact ctlSetState_later env _ (hmode .h264)
      · refine ⟨(ctlSetState_beat ..).trans (xmitSetMode_beat env c.ticked _), ?_⟩
        exact ctlSetState_later env _ (hmode .h264)
  | cool hs d hd =>
      subst hd
      exact ⟨ctlSetState_beat env c.ticked _, hset _⟩
  | exit =>
      refine ⟨(ctlSetState_beat ..).trans (xmitSetMode_beat env c.ticked _), ?_⟩
      exact ctlSetState_later env _ (hmode .raw)

lemma ctlAimd_beat (env : Env) (c : Client D) : (ctlAimd env c).ctl.beat = c.ctl.beat := by
  unfold ctlAimd
  dsimp only
  split_ifs
  all_goals simp

lemma ctlSkipEncode_beat (env : Env) (c : Client D) :
    (ctlSkipEncode env c).1.ctl.beat = c.ctl.beat := by
  unfold ctlSkipEncode
  split <;> rfl

lemma ctlWindows_beat (c : Client D) (now : ℤ) : (ctlWindows c now).ctl.beat = c.ctl.beat := by
  unfold ctlWindows
  dsimp only
  split_ifs <;> rfl

lemma ctlOnDamage_beat (env : Env) (c : Client D) (n : ℕ) :
    (ctlOnDamage env c n).ctl.beat = c.ctl.beat := by
  unfold ctlOnDamage
  dsimp only
  rw [(ctlEvaluate_beat ..).1, ctlWindows_beat]
  split <;> rfl

lemma ctlOnDeliver_beat (env : Env) (c : Client D) (n : ℕ) :
    (ctlOnDeliver env c n).ctl.beat = c.ctl.beat := by
  unfold ctlOnDeliver
  dsimp only
  rw [(ctlEvaluate_beat ..).1, ctlWindows_beat]
  split <;> rfl

lemma Delivered.beat {env : Env} {d d' : Client D} (h : Delivered env d d') :
    d'.ctl.beat = d.ctl.beat := by
  obtain rfl | ⟨n, rfl⟩ := h
  · rfl
  · exact ctlOnDeliver_beat env d n

lemma xmitDamage_beat (env : Env) (c : Client D) (rects : List Rect) :
    (xmitDamage env c rects).ctl.beat = c.ctl.beat := by
  unfold xmitDamage
  dsimp only
  split_ifs
  · rfl
  · exact ctlOnDamage_beat ..
  · rfl

lemma buildH264Frame_beat (env : Env) (c : Client D) :
    (buildH264Frame env c).ctl.beat = c.ctl.beat := by
  unfold buildH264Frame
  dsimp only
  split
  · exact xmitSetMode_beat ..
  · split
    · rfl
    · exact (frameStart_delivered ..).beat

lemma buildNext_beat (env : Env) (c : Client D) :
    (buildNext env c).1.ctl.beat = c.ctl.beat := by
  unfold buildNext
  dsimp only
  split
  · rfl
  split
  · split
    · rfl
    split
    · exact ctlSkipEncode_beat env c
    · exact (buildH264Frame_beat ..).trans (ctlSkipEncode_beat env c)
  · split
    · exact (buildRawRect_delivered ..).beat
    split
    · rfl
    · exact (buildRawRect_delivered ..).beat

lemma onOutReady_beat (env : Env) (err : Bool) (c : Client D) :
    (onOutReady env err c).ctl.beat = c.ctl.beat := by
  have hdrained : ∀ d, Drained env c d → d.ctl.beat = c.ctl.beat := by
    intro d hd
    obtain ⟨w, o, a, q, qo, n, h⟩ := hd.frame
    rw [h]
  cases err with
  | true => rfl
  | false =>
      have hp := onOutReady_pass env c
      generalize onOutReady env false c = d' at hp
      cases hp with
      | fail d h => exact hdrained d h
      | block d h => exact hdrained _ h
      | build d h ha hq he b hb =>
          subst hb
          have hnext := (buildNext_beat env _).trans (hdrained _ h)
          split
          · exact hnext
          · exact hnext

/-- Only a PONG and the timer itself touch its fields. -/
lemma step_beat (env : Env) {c : Client D} {ev : Event} (hm : ev.isModeChange = false)
    (hpong : ∀ t, ev ≠ .pong t) (htick : ev ≠ .pingTick) :
    (step env c ev).ctl.beat = c.ctl.beat := by
  unfold step
  cases ev with
  | damage grab rects =>
      dsimp only
      split
      · exact xmitDamage_beat ..
      · rfl
  | outReady err =>
      dsimp only
      split
      · exact onOutReady_beat ..
      · rfl
  | retry | repaint =>
      dsimp only
      split <;> rfl
  | pong t => exact absurd rfl (hpong t)
  | pingTick => exact absurd rfl htick
  | setMode m => exact xmitSetMode_beat ..
  | modeChanged => cases hm
  | ctrl | dpms | lost => rfl

/-- The interactions are counted up. -/
lemma Micro.later {env : Env} {R : Rules} {c c' : Client D} (h : Micro env R c c') :
    c.tick ≤ c'.tick := by
  cases h with
  | act => exact le_rfl
  | measure k n hk hn => exact hn
  | evaluate => exact (ctlEvaluate_beat env c).2
  | decision m => exact xmitSetMode_later env c m
  | encodeFail n h hr hm hn => exact hn

/-! ## The two events that count -/

lemma Quiet.evaluate {env : Env} {c d : Client D} (h : Quiet c d) :
    Quiet c (ctlEvaluate env d) := by
  obtain ⟨ht, hn⟩ := ctlEvaluate_switched env d
  obtain ⟨hb, hl⟩ := ctlEvaluate_beat env d
  exact h.trans ⟨hb, ht.pings, ht.lost, ht.sameStream, hn, hl⟩

lemma pingTick_ticked (env : Env) (c : Client D) : Ticked env c (pingTick env c) := by
  unfold pingTick
  dsimp only
  split <;> rename_i hc
  · refine .closed fun hfd hst => ?_
    simpa [hfd, hst] using hc
  have hfd : c.tx.fd = true := by
    by_contra h
    exact hc (.inl (by simpa using h))
  have hl : c.tx.lost = false := by
    by_contra h
    exact hc (.inr (.inr (by simpa using h)))
  split <;> rename_i hd
  · exact .drop hfd hl hd.1 hd.2
  split
  · refine .of_quiet (Quiet.evaluate ((Quiet.ticked c).ctl ?_)) hfd hl
    rfl
  split <;> rename_i hm
  · exact .rest _ (Quiet.ticked c) (.inr hm)
  · exact .ask _ (Quiet.ticked c) hfd hl (not_le.mp hm)

lemma Quiet.aimd {env : Env} {c d : Client D} (h : Quiet c d) : Quiet c (ctlAimd env d) := by
  have hb := ctlAimd_beat env d
  obtain ⟨k, n, he, -, hn⟩ := ctlAimd_measured env d
  rw [he] at hb ⊢
  exact h.trans ⟨hb, rfl, rfl, ⟨rfl, rfl, rfl, rfl, rfl⟩, rfl, hn⟩

/-- An echo that is not garbage. -/
def Sound (env : Env) (c : Client D) (t : UInt64) : Prop :=
  CDouble.lt (CDouble.ofInt (env.clock c.tick - stampUs t) : D) 0.0 = false ∧
    CDouble.lt ((60.0 : D) * CDouble.ofInt usecPerSec)
      (CDouble.ofInt (env.clock c.tick - stampUs t)) = false

lemma ctlOnPong_heard {env : Env} {c : Client D} {t : UInt64} (h : Sound env c t) :
    Quiet { c with
      ctl := { c.ctl with
        lastPongUs := env.clock c.tick
        pingsOutstanding := c.ctl.pingsOutstanding - 1 } } (ctlOnPong env c t) := by
  obtain ⟨h0, h1⟩ := h
  rw [stampUs] at h0 h1
  unfold ctlOnPong
  dsimp only
  rw [if_neg (by simp [h0, h1])]
  split
  · exact (Quiet.ticked _).evaluate
  · refine (Quiet.aimd (Quiet.ctl (Quiet.ticked _) ?_)).evaluate
    rfl

/-- What is used of IEEE arithmetic: integers the size of a time are exact. -/
structure ExactTimes (D : Type) [CDouble D] : Prop where
  lt_ofInt : ∀ a b : ℤ, |a| ≤ 2 ^ 53 → |b| ≤ 2 ^ 53 →
    CDouble.lt (CDouble.ofInt a : D) (CDouble.ofInt b) = decide (a < b)
  zero : (0.0 : D) = CDouble.ofInt 0
  minute : (60.0 : D) * CDouble.ofInt usecPerSec = CDouble.ofInt 60000000

lemma exactTimes_rat : ExactTimes ℚ where
  lt_ofInt a b _ _ := by simp [CDouble.lt, CDouble.ofInt]
  zero := by simp [CDouble.ofInt]; norm_num
  minute := by simp [CDouble.ofInt, usecPerSec]; norm_num

lemma ExactTimes.sound (h : ExactTimes D) {env : Env} {c : Client D} {t : UInt64}
    (h0 : stampUs t ≤ env.clock c.tick) (h1 : env.clock c.tick ≤ stampUs t + 60000000) :
    Sound env c t := by
  have habs : |env.clock c.tick - stampUs t| ≤ 2 ^ 53 := abs_le.mpr ⟨by omega, by omega⟩
  refine ⟨?_, ?_⟩
  · rw [h.zero, h.lt_ofInt _ _ habs (by norm_num)]
    exact decide_eq_false (by omega)
  · rw [h.minute, h.lt_ofInt _ _ (by norm_num) habs]
    exact decide_eq_false (by omega)

end Beat

/-! ## The run, with its echoes counted -/

/-- A client, how many echoes it has had since its stream began, and the last tick.  The PINGs of
an earlier stream are counted as echoed. -/
structure Heard (D : Type) where
  client : Client D
  echoes : ℕ
  tickUs : ℤ

namespace Heard

/-- The PINGs sent and not yet echoed. -/
def waiting (g : Heard D) : List UInt64 := g.client.tx.pings.drop g.echoes

variable [CDouble D]

/-- A stream begins; the timer is armed at the last reading of the clock. -/
def start (env : Env) (c : Client D) (extra : UInt8) (token : UInt16) : Heard D where
  client := startStreaming env c extra token
  echoes := (startStreaming env c extra token).tx.pings.length
  tickUs := (startStreaming env c extra token).ctl.lastPongUs

def step (env : Env) (g : Heard D) (ev : Event) : Heard D where
  client := Sremfb.step env g.client ev
  echoes := match ev with
    | .pong _ => g.echoes + 1
    | _ => g.echoes
  tickUs := match ev with
    | .pingTick => env.clock g.client.tick
    | _ => g.tickUs

end Heard

/-- The other side behaves: echoes come in order and within three seconds, ticks twice a second,
and nothing resets the transmitter. -/
def Timely (env : Env) (g : Heard D) : Event → Prop
  | .pong t => g.waiting.head? = some t ∧ env.clock g.client.tick ≤ stampUs t + 3000000
  | .pingTick => env.clock g.client.tick ≤ g.tickUs + 500000 ∧
      ∀ t ∈ g.waiting, env.clock g.client.tick ≤ stampUs t + 3000000
  | .ctrl m => isPing m = false
  | .modeChanged w h _ _ _ => w ≤ 0 ∨ h ≤ 0
  | _ => True

/-! ## The invariant -/

/-- The outside of the result: clock readings do not decrease and fit a `gint64`. -/
structure Env.Steady (env : Env) : Prop where
  mono : Monotone env.clock
  nonneg : ∀ k, 0 ≤ env.clock k
  small : ∀ k, env.clock k < 2 ^ 63

/-- What the age of the last echo says, between callbacks, about the PINGs that wait. -/
structure Alive (env : Env) (g : Heard D) : Prop where
  timer : g.client.ctl.pingTimer = true
  feedback : g.client.neg.feedback = true
  streaming : g.client.tx.state = .streaming
  echoed : g.echoes ≤ g.client.tx.pings.length
  count : g.client.ctl.pingsOutstanding = g.waiting.length
  most : g.waiting.length ≤ pingsMaxFlight
  stamped : ∀ t ∈ g.waiting, stampUs t ≤ env.clock g.client.tick
  asked : g.client.ctl.lastPingUs ≤ env.clock g.client.tick
  ticked : g.tickUs ≤ env.clock g.client.tick
  /-- With nobody to wait for, the last tick came soon after the last echo. -/
  idle : g.client.tx.fd = true → g.client.tx.lost = false → g.waiting = [] →
    g.client.ctl.lastPingUs ≤ g.client.ctl.lastPongUs ∧
      g.tickUs < g.client.ctl.lastPongUs + pingIdleUs
  /-- The oldest PING was stamped, or sent, soon after the last echo. -/
  owed : g.client.tx.fd = true → g.client.tx.lost = false → ∀ t, g.waiting.head? = some t →
    stampUs t < g.client.ctl.lastPongUs + 3000000 ∨
      g.tickUs < g.client.ctl.lastPongUs + 2500000

section Run

variable {env : Env} {g : Heard D}

/-- Whatever neither counts a PING nor an echo and leaves the timer alone. -/
lemma Alive.quiet (henv : env.Steady) (h : Alive env g) {d : Client D}
    (hb : d.ctl.beat = g.client.ctl.beat) (hp : d.tx.pings = g.client.tx.pings)
    (hl : d.tx.lost = false → g.client.tx.lost = false) (hs : g.client.tx.SameStream d.tx)
    (hn : d.neg = g.client.neg) (ht : g.client.tick ≤ d.tick) :
    Alive env { g with client := d } := by
  have hclock := henv.mono ht
  have hw : ({ g with client := d } : Heard D).waiting = g.waiting := by
    rw [Heard.waiting, hp, Heard.waiting]
  simp only [Ctl.beat, Prod.mk.injEq] at hb
  obtain ⟨htimer, hping, hpong, hout⟩ := hb
  constructor
  · exact htimer.trans h.timer
  · rw [hn]
    exact h.feedback
  · exact hs.state.trans h.streaming
  · rw [hp]
    exact h.echoed
  · rw [hw, hout]
    exact h.count
  · rw [hw]
    exact h.most
  · rw [hw]
    exact fun t htm => (h.stamped t htm).trans hclock
  · rw [hping]
    exact h.asked.trans hclock
  · exact h.ticked.trans hclock
  · rw [hw, hping, hpong]
    exact fun hf hl' => h.idle (hs.fd ▸ hf) (hl hl')
  · rw [hw, hpong]
    exact fun hf hl' => h.owed (hs.fd ▸ hf) (hl hl')

/-- A tick that sends nothing. -/
lemma Alive.retick (h : Alive env g) (hgap : env.clock g.client.tick ≤ g.tickUs + 500000)
    (hidle : g.client.tx.fd = true → g.client.tx.lost = false → g.waiting = [] →
      env.clock g.client.tick - g.client.ctl.lastPingUs < pingIdleUs) :
    Alive env { g with tickUs := env.clock g.client.tick } where
  __ := h
  ticked := le_rfl
  idle hfd hl hw := by
    obtain ⟨hle, -⟩ := h.idle hfd hl hw
    have hnow := hidle hfd hl hw
    refine ⟨hle, ?_⟩
    dsimp only
    omega
  owed hfd hl t hw := by
    have howed := h.owed hfd hl t hw
    have hpast := h.stamped t (List.mem_of_mem_head? hw)
    left
    dsimp only
    omega

/-- A tick that sends a PING.  With nobody to wait for, the tick before came less than two seconds
after the last echo. -/
lemma Alive.ask (henv : env.Steady) (h : Alive env g)
    (hgap : env.clock g.client.tick ≤ g.tickUs + 500000) {d : Client D} (hd : Quiet g.client d)
    (hfd : g.client.tx.fd = true) (hl : g.client.tx.lost = false)
    (ho : g.client.ctl.pingsOutstanding < pingsMaxFlight) :
    Alive env { g with client := sendPing env d, tickUs := env.clock g.client.tick } := by
  obtain ⟨s, hs, hp, hst, -⟩ := sendPing_sent env (hd.stream.fd.trans hfd) (hd.lost.trans hl)
    (henv.nonneg _) (henv.small _)
  rw [hd.pings] at hp
  have hstream := hd.stream.trans hst
  have hnow : env.clock g.client.tick ≤ env.clock d.tick := henv.mono hd.later
  have hlater : env.clock d.tick ≤ env.clock (d.tick + 1) := henv.mono (Nat.le_succ _)
  have hw : ({ g with client := sendPing env d, tickUs := env.clock g.client.tick } :
      Heard D).waiting = g.waiting ++ [s] := by
    rw [Heard.waiting, hp, List.drop_append_of_le_length h.echoed, Heard.waiting]
  have hbeat := hd.beat
  simp only [Ctl.beat, Prod.mk.injEq] at hbeat
  obtain ⟨htimer, hping, hpong, hout⟩ := hbeat
  constructor
  · exact htimer.trans h.timer
  · exact (congrArg Negotiated.feedback hd.neg).trans h.feedback
  · exact hstream.state.trans h.streaming
  · rw [hp, List.length_append]
    exact h.echoed.trans (Nat.le_add_right _ _)
  · rw [hw, List.length_append, List.length_singleton, ← h.count, ← hout]
    rfl
  · rw [hw, List.length_append, List.length_singleton, ← h.count]
    exact ho
  · intro t ht
    rw [hw] at ht
    rcases List.mem_append.mp ht with ht | ht
    · exact (h.stamped t ht).trans (hnow.trans hlater)
    · rw [List.mem_singleton.mp ht, hs]
      exact hlater
  · exact hlater
  · exact hnow.trans hlater
  · intro _ _ hnone
    rw [hw] at hnone
    exact absurd hnone (by simp)
  · intro _ _ t ht
    rw [hw] at ht
    change stampUs t < d.ctl.lastPongUs + 3000000 ∨
      env.clock g.client.tick < d.ctl.lastPongUs + 2500000
    rw [hpong]
    cases hq : g.waiting with
    | nil =>
        obtain ⟨-, hrecent⟩ := h.idle hfd hl hq
        right
        simp only [pingIdleUs] at hrecent
        omega
    | cons u us =>
        rw [hq] at ht
        obtain rfl : u = t := by simpa using ht
        have howed := h.owed hfd hl u (by simp [hq])
        have hpast := h.stamped u (by simp [hq])
        left
        omega

/-- **The watchdog stays silent.** -/
lemma Alive.awake (h : Alive env g) (ht : Timely env g .pingTick) (hfd : g.client.tx.fd = true)
    (hl : g.client.tx.lost = false) (ho : 0 < g.client.ctl.pingsOutstanding) :
    env.clock g.client.tick - g.client.ctl.lastPongUs ≤ pongDeadUs := by
  obtain ⟨hgap, hage⟩ := ht
  rw [h.count] at ho
  obtain ⟨t, ts, hw⟩ := List.exists_cons_of_length_pos ho
  have hold := hage t (by simp [hw])
  have howed := h.owed hfd hl t (by simp [hw])
  simp only [pongDeadUs]
  omega

variable [CDouble D]

lemma Alive.tick (henv : env.Steady) (h : Alive env g) (ht : Timely env g .pingTick) :
    Alive env (g.step env .pingTick) ∧ (g.client.tx.lost = false →
      (g.step env .pingTick).client.tx.lost = false) := by
  have hstep : g.step env .pingTick =
      { g with client := pingTick env g.client, tickUs := env.clock g.client.tick } := by
    simp [Heard.step, step, h.timer]
  rw [hstep]
  have hgap := ht.1
  have hawake := h.awake ht
  have hticked := pingTick_ticked env g.client
  generalize pingTick env g.client = d at hticked
  cases hticked with
  | closed hc =>
      have hre := h.retick hgap fun hfd hl => by simp [hc hfd h.streaming] at hl
      have hq := Quiet.ticked g.client
      exact ⟨hre.quiet henv hq.beat hq.pings id hq.stream hq.neg hq.later, id⟩
  | drop hfd hl ho hp => exact absurd hp (not_lt.mpr (hawake hfd hl ho))
  | rest d hd hr =>
      have hre := h.retick hgap fun hfd hl hw =>
        hr.resolve_right (by simp [h.count, hw, pingsMaxFlight])
      exact ⟨hre.quiet henv hd.beat hd.pings (hd.lost ▸ id) hd.stream hd.neg hd.later,
        fun hl => hd.lost.trans hl⟩
  | ask d hd hfd hl ho =>
      obtain ⟨-, -, -, -, hkept⟩ := sendPing_sent env (hd.stream.fd.trans hfd) (hd.lost.trans hl)
        (henv.nonneg _) (henv.small _)
      exact ⟨h.ask henv hgap hd hfd hl ho, fun _ => hkept⟩

/-- The echo of the oldest PING that waits. -/
lemma Alive.pong (hD : ExactTimes D) (henv : env.Steady) (h : Alive env g) {t : UInt64}
    (ht : Timely env g (.pong t)) : Alive env (g.step env (.pong t)) ∧
      (g.step env (.pong t)).client.ctl.pingsOutstanding + 1 =
        g.client.ctl.pingsOutstanding := by
  obtain ⟨hhead, hage⟩ := ht
  obtain ⟨ts, hw⟩ := List.head?_eq_some_iff.mp hhead
  have hpast : stampUs t ≤ env.clock g.client.tick := h.stamped t (by simp [hw])
  have hq := ctlOnPong_heard (hD.sound hpast (by omega))
  have hcount : g.client.ctl.pingsOutstanding = ts.length + 1 := by rw [h.count, hw]; rfl
  have hrest : g.client.tx.pings.drop (g.echoes + 1) = ts := by
    rw [← List.drop_drop, show g.client.tx.pings.drop g.echoes = t :: ts from hw]
    rfl
  have hechoed : g.echoes + 1 ≤ g.client.tx.pings.length := by
    have hlen := congrArg List.length hw
    rw [Heard.waiting, List.length_drop, List.length_cons] at hlen
    omega
  have hstep : g.step env (.pong t) =
      { g with client := ctlOnPong env g.client t, echoes := g.echoes + 1 } := by
    simp [Heard.step, step, h.feedback]
  rw [hstep]
  refine ⟨?_, ?_⟩
  · have hmid : Alive env { g with
        client := { g.client with
          ctl := { g.client.ctl with
            lastPongUs := env.clock g.client.tick
            pingsOutstanding := g.client.ctl.pingsOutstanding - 1 } }
        echoes := g.echoes + 1 } := by
      have hmost := h.most
      have hasked := h.asked
      have hticked := h.ticked
      rw [hw, List.length_cons] at hmost
      have hwait : ∀ u ∈ ts, stampUs u ≤ env.clock g.client.tick := fun u hu =>
        h.stamped u (by simp [hw, hu])
      constructor
      · exact h.timer
      · exact h.feedback
      · exact h.streaming
      · exact hechoed
      · simp only [Heard.waiting, hrest, hcount]
        rfl
      · simp only [Heard.waiting, hrest]
        omega
      · simp only [Heard.waiting, hrest]
        exact hwait
      · exact hasked
      · exact hticked
      · intro _ _ _
        simp only [pingIdleUs]
        exact ⟨hasked, by omega⟩
      · intro _ _ u hu
        simp only [Heard.waiting, hrest] at hu
        have hup := hwait u (List.mem_of_mem_head? hu)
        left
        dsimp only
        omega
    exact hmid.quiet henv hq.beat hq.pings (hq.lost ▸ id) hq.stream hq.neg hq.later
  · rw [show (ctlOnPong env g.client t).ctl.pingsOutstanding =
      g.client.ctl.pingsOutstanding - 1 from hq.pingsOutstanding]
    omega

/-- Everything else leaves the count alone. -/
lemma Alive.other (henv : env.Steady) (h : Alive env g) {ev : Event} (ht : Timely env g ev)
    (hpong : ∀ t, ev ≠ .pong t) (htick : ev ≠ .pingTick) : Alive env (g.step env ev) := by
  have hstep : g.step env ev = { g with client := step env g.client ev } := by
    cases ev with
    | pong t => exact absurd rfl (hpong t)
    | pingTick => exact absurd rfl htick
    | _ => rfl
  rw [hstep]
  by_cases hm : ev.isModeChange = true
  · cases ev with
    | modeChanged w h' grab extra token =>
        have hsame : step env g.client (.modeChanged w h' grab extra token) = g.client :=
          if_pos ht
        rw [hsame]
        exact h
    | _ => cases hm
  rw [Bool.not_eq_true] at hm
  have hadm : noPings.Admits env g.client ev := by
    cases ev with
    | ctrl m => exact ht
    | dpms on => cases on <;> exact isPing_ctrlMsg (by decide)
    | repaint => exact ⟨trivial, isPing_ctrlMsg (by decide)⟩
    | outReady => exact fun _ _ => ⟨fun _ => trivial, fun _ _ => trivial⟩
    | pingTick => exact absurd rfl htick
    | modeChanged => cases hm
    | damage | setMode | retry | pong | lost => trivial
  obtain ⟨hn, htx⟩ := step_txChain hadm
  refine h.quiet henv (step_beat env hm hpong htick) ?_ ?_ (step_sameStream env hm) hn ?_
  · exact chain_invariant (P := fun u => u.pings = g.client.tx.pings)
      (fun hs hu => hs.pings.trans hu) htx rfl
  · intro hl
    by_contra hlost
    rw [Bool.not_eq_false] at hlost
    have hkept := chain_invariant (P := fun u => u.lost = true) (fun hs => hs.lost) htx hlost
    simp [hl] at hkept
  · exact step_invariant (P := fun d => g.client.tick ≤ d.tick) (fun hs hd => hd.trans hs.later)
      hadm le_rfl

lemma Alive.step (hD : ExactTimes D) (henv : env.Steady) (ev : Event) (ht : Timely env g ev)
    (h : Alive env g) : Alive env (g.step env ev) := by
  by_cases htick : ev = .pingTick
  · subst htick
    exact (h.tick henv ht).1
  by_cases hpong : ∃ t, ev = .pong t
  · obtain ⟨t, rfl⟩ := hpong
    exact (h.pong hD henv ht).1
  · exact h.other henv ht (fun t hev => hpong ⟨t, hev⟩) htick

/-- A stream that begins owes nothing. -/
lemma alive_start (henv : env.Steady) {c : Client D} (hf : c.neg.feedback = true) (extra : UInt8)
    (token : UInt16) : Alive env (Heard.start env c extra token) := by
  have hnone : (Heard.start env c extra token).waiting = [] := List.drop_length
  have hstate : (startStreaming env c extra token).tx.state = .streaming := by
    rw [startStreaming_tx]
  constructor
  · simp [Heard.start, startStreaming, ctlStart, hf]
  · simpa [Heard.start, startStreaming, ctlStart] using hf
  · exact hstate
  · exact le_rfl
  · rw [hnone]
    rfl
  · rw [hnone]
    exact Nat.zero_le _
  · rw [hnone]
    exact fun t ht => by cases ht
  · exact henv.nonneg _
  · exact henv.mono (Nat.le_succ _)
  · intro _ _ _
    refine ⟨henv.nonneg _, ?_⟩
    simp only [Heard.start, pingIdleUs]
    omega
  · rw [hnone]
    exact fun _ _ t ht => by cases ht

/-- **PING accounting and liveness.**  From the start of a stream with feedback, in every run
without a reset in which the PINGs are echoed in order, each within three seconds of its stamp,
and the timer fires twice a second: as many PINGs are outstanding as were sent and not yet echoed,
never more than four; an echo always finds one to count down; and no tick drops the client. -/
theorem pings_accounted (hD : ExactTimes D) {env : Env} (henv : env.Steady) {c : Client D}
    (hf : c.neg.feedback = true) (extra : UInt8) (token : UInt16) {es : List Event}
    (hes : Along (Timely env) (Heard.step env) (Heard.start env c extra token) es) :
    let g := run (Heard.step env) (Heard.start env c extra token) es
    g.client.ctl.pingsOutstanding = g.waiting.length ∧
      g.client.ctl.pingsOutstanding ≤ pingsMaxFlight ∧
      (∀ t, Timely env g (.pong t) →
        (g.step env (.pong t)).client.ctl.pingsOutstanding + 1 = g.client.ctl.pingsOutstanding) ∧
      (Timely env g .pingTick → g.client.tx.lost = false →
        (g.step env .pingTick).client.tx.lost = false) := by
  intro g
  have h : Alive env g :=
    run_invariant (fun g ev => Alive.step hD henv ev) (alive_start henv hf extra token) hes
  refine ⟨h.count, ?_, fun t ht => (h.pong hD henv ht).2, fun ht => (h.tick henv ht).2⟩
  rw [h.count]
  exact h.most

end Run

lemma timely_pingTick {env : Env} {g : Heard D}
    (hgap : env.clock g.client.tick ≤ g.tickUs + 500000)
    (hage : g.waiting.all (fun t => env.clock g.client.tick ≤ stampUs t + 3000000) = true) :
    Timely env g .pingTick :=
  ⟨hgap, fun t ht => of_decide_eq_true (List.all_eq_true.mp hage t ht)⟩

/-- The willing outside, a tenth of a second per interaction. -/
def Env.brisk : Env := { Env.willing with clock := fun k => min (100000 * k) 1000000000 }

/-- A busy link is asked at the next tick.  The echo comes, more traffic, another PING, and a tick
that has nothing to ask. -/
theorem pings_accounted_tiny :
    let g := run (Heard.step .brisk) (Heard.start .brisk (Client.fresh .tiny : Client ℚ) 0 0)
      [.ctrl (ctrlMsg .blank), .pingTick, .pong 300000, .ctrl (ctrlMsg .unblank), .pingTick,
        .pingTick]
    g.client.ctl.pingsOutstanding = g.waiting.length ∧ g.waiting.length = 1 ∧
      (g.step .brisk .pingTick).client.tx.lost = false := by
  have henv : Env.brisk.Steady := by
    refine ⟨fun a b hab => ?_, fun k => ?_, fun k => ?_⟩
    · simp only [Env.brisk]
      omega
    · simp only [Env.brisk]
      omega
    · simp only [Env.brisk]
      omega
  have hes : Along (Timely Env.brisk) (Heard.step .brisk)
      (Heard.start .brisk (Client.fresh .tiny : Client ℚ) 0 0)
      [.ctrl (ctrlMsg .blank), .pingTick, .pong 300000, .ctrl (ctrlMsg .unblank), .pingTick,
        .pingTick] :=
    ⟨isPing_ctrlMsg (by decide), timely_pingTick (by decide +kernel) (by decide +kernel),
      ⟨by decide +kernel, by decide +kernel⟩, isPing_ctrlMsg (by decide),
      timely_pingTick (by decide +kernel) (by decide +kernel),
      timely_pingTick (by decide +kernel) (by decide +kernel), trivial⟩
  obtain ⟨hcount, -, -, htick⟩ := pings_accounted exactTimes_rat henv rfl 0 0 hes
  exact ⟨hcount, by decide +kernel,
    htick (timely_pingTick (by decide +kernel) (by decide +kernel)) (by decide +kernel)⟩

end Sremfb
