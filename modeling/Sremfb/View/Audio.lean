import Mathlib.Algebra.Order.Floor.Semiring
import Mathlib.Data.Rat.Floor
import Mathlib.Tactic.Linarith
import Sremfb.Lib.Hysteresis
import Sremfb.Lib.Run

/-!
# The viewer's sound (`view/audio.c`)

The stream of the sound device is the jitter buffer: what has been put and not played yet.
`on_packet` fills it up to the target at a start and at an underrun, puts silence for up to
`CONCEAL_MAX` lost packets, and above the target and `DROP_SLACK_MS` throws packets away until the
level is down to the target.  Times are exact fractions of a millisecond; the device may have played
anything between two packets.  The probe, the dump and the statistics are left out.

Latency should never creep up.  Of the packets themselves this is what a buffer with hysteresis
gives; but the silence for a hole is put before the level is looked at, also while packets are thrown
away.  `latency_bounded_iff` says that this is the only way out of the bound.
-/

namespace Sremfb

open Lib

/-- `SREMFB_AUDIO_RATE`. -/
def audioRate : ℕ := 48000

/-- `BYTES_PER_FRAME`. -/
def bytesPerFrame : ℕ := 4

/-- `SREMFB_AUDIO_MAX_FRAMES`. -/
def audioMaxFrames : ℕ := 240

/-- The duration of the largest packet. -/
def audioMaxMs : ℚ := audioMaxFrames * 1000 / audioRate

/-- `DROP_SLACK_MS`. -/
def dropSlackMs : ℚ := 10

/-- `IDLE_GAP_NS`. -/
def idleGapNs : UInt64 := 60000000

/-- `CONCEAL_MAX`. -/
def concealMax : ℤ := 8

/-- `RATIO_MAX`. -/
def ratioMax : ℚ := 3 / 1000

/-- `RATIO_GAIN`. -/
def ratioGain : ℚ := 3 / 10000

/-- The header of an audio datagram, and the length of the datagram. -/
structure AudioPacket where
  format : UInt8 := 0
  frames : UInt16
  seq : UInt32
  len : ℕ := 24 + frames.toNat * bytesPerFrame

namespace AudioPacket

/-- The duration of the packet. -/
def ms (p : AudioPacket) : ℚ := p.frames.toNat * 1000 / audioRate

/-- The checks at the head of `on_packet`. -/
def Valid (p : AudioPacket) : Prop :=
  p.format = 0 ∧ p.frames ≠ 0 ∧ p.frames.toNat ≤ audioMaxFrames ∧
    p.len = 24 + p.frames.toNat * bytesPerFrame

instance (p : AudioPacket) : Decidable p.Valid := inferInstanceAs (Decidable (_ ∧ _))

end AudioPacket

/-- `struct view_audio`, with the bytes that are queued in its stream. -/
structure ViewAudio where
  queued : ℕ := 0
  started : Bool := false
  dropping : Bool := false
  nextSeq : UInt32 := 0
  lastRxNs : UInt64 := 0
  levelEwmaMs : ℚ := 0
  ratio : ℚ := 1
  sinceRatio : ℕ := 0

namespace ViewAudio

/-- `queued_ms`. -/
def queuedMs (a : ViewAudio) : ℚ := a.queued / bytesPerFrame * 1000 / audioRate

/-- `put_silence`. -/
def putSilence (ms : ℚ) (a : ViewAudio) : ViewAudio :=
  { a with queued := a.queued + ⌊ms * audioRate / 1000⌋₊ * bytesPerFrame }

/-- A pause in the sound makes the buffer start over. -/
def arrive (rx : UInt64) (a : ViewAudio) : ViewAudio :=
  { a with started := a.started && decide (rx - a.lastRxNs ≤ idleGapNs), lastRxNs := rx }

/-- How many packets are missing before this one; negative when it is late. -/
def gap (p : AudioPacket) (a : ViewAudio) : ℤ :=
  if a.started then (p.seq - a.nextSeq).toInt32.toInt else 0

/-- Silence for a hole, or a fresh start. -/
def conceal (p : AudioPacket) (a : ViewAudio) : ViewAudio :=
  let d := a.gap p
  if 0 < d then
    if d ≤ concealMax then a.putSilence (d * p.ms) else { a with started := false }
  else a

/-- Back to the target, at a start and at an underrun; and the level. -/
def refill (target : ℚ) (a : ViewAudio) : ViewAudio × ℚ :=
  if a.started = false then
    ({ { a with queued := 0 }.putSilence target with
        started := true, dropping := false, levelEwmaMs := target }, target)
  else if a.queuedMs ≤ 0 then (a.putSilence target, target)
  else (a, a.queuedMs)

/-- The control loop of the playback rate. -/
def nudge (target q : ℚ) (p : AudioPacket) (a : ViewAudio) : ViewAudio :=
  let a := { a with
    levelEwmaMs := a.levelEwmaMs + 2 / 1000 * (q + p.ms - a.levelEwmaMs)
    sinceRatio := a.sinceRatio + 1 }
  if 40 ≤ a.sinceRatio then
    let r := 1 + (a.levelEwmaMs - (target + p.ms)) * ratioGain
    { a with ratio := max (1 - ratioMax) (min (1 + ratioMax) r), sinceRatio := 0 }
  else a

/-- The packet is put, or thrown away because the buffer is too deep. -/
def putOrDrop (target : ℚ) (p : AudioPacket) (a : ViewAudio) (q : ℚ) : ViewAudio :=
  let dropping := a.dropping || decide (target + dropSlackMs < q)
  let a := { a with nextSeq := p.seq + 1, dropping := dropping }
  if dropping = true ∧ target < q then a
  else
    { a with
      dropping := false
      queued := a.queued + p.frames.toNat * bytesPerFrame }.nudge target q p

/-- `on_packet`. -/
def onPacket (target : ℚ) (p : AudioPacket) (rx : UInt64) (a : ViewAudio) : ViewAudio :=
  if ¬p.Valid then a
  else
    let a := a.arrive rx
    if a.gap p < 0 then a
    else
      let r := (a.conceal p).refill target
      r.1.putOrDrop target p r.2

/-- A datagram, and what has been played since the one before. -/
structure Arrival where
  played : ℕ
  rx : UInt64
  pkt : AudioPacket

/-- The stream of the sound device plays some of what is queued. -/
def play (n : ℕ) (a : ViewAudio) : ViewAudio := { a with queued := a.queued - n }

def step (target : ℚ) (a : ViewAudio) (e : Arrival) : ViewAudio :=
  (a.play e.played).onPacket target e.pkt e.rx

/-- The target, the slack, and `CONCEAL_MAX + 1` packets of the largest size. -/
def latencyBound (target : ℚ) : ℚ := target + dropSlackMs + (concealMax + 1) * audioMaxMs

/-- The packet comes after a hole that is filled with silence. -/
def Conceals (a : ViewAudio) (e : Arrival) : Prop :=
  e.pkt.Valid ∧ 0 < ((a.play e.played).arrive e.rx).gap e.pkt ∧
    ((a.play e.played).arrive e.rx).gap e.pkt ≤ concealMax

/-- The silence for a hole that is found while packets are thrown away still finds room. -/
def HasRoom (target : ℚ) (a : ViewAudio) (e : Arrival) : Prop :=
  a.Conceals e → a.dropping = true →
    (a.play e.played).queuedMs + ((a.play e.played).arrive e.rx).gap e.pkt * e.pkt.ms ≤
      latencyBound target

/-! ## Durations -/

section durations

variable {p : AudioPacket} {a : ViewAudio} {ms target q : ℚ}

lemma queuedMs_eq (a : ViewAudio) : a.queuedMs = a.queued / 192 := by
  simp only [queuedMs, bytesPerFrame, audioRate]
  push_cast
  ring

lemma ms_eq (p : AudioPacket) : p.ms = p.frames.toNat / 48 := by
  simp only [AudioPacket.ms, audioRate]
  push_cast
  ring

/-- A packet lasts at most 5 ms. -/
lemma ms_le (h : p.Valid) : p.ms ≤ audioMaxMs := by
  have hframes : (p.frames.toNat : ℚ) ≤ audioMaxFrames := Nat.cast_le.mpr h.2.2.1
  rw [AudioPacket.ms, audioMaxMs]
  gcongr

lemma ms_pos (h : p.Valid) : 0 < p.ms := by
  have hframes : 0 < p.frames.toNat :=
    Nat.pos_of_ne_zero fun hzero => h.2.1 (UInt16.toNat_inj.mp hzero)
  have hpos : (0 : ℚ) < p.frames.toNat := Nat.cast_pos.mpr hframes
  rw [ms_eq]
  positivity

/-- Silence is rounded down to whole frames. -/
lemma queuedMs_putSilence_le (hms : 0 ≤ ms) (a : ViewAudio) :
    (a.putSilence ms).queuedMs ≤ a.queuedMs + ms := by
  have hfloor : ((⌊ms * audioRate / 1000⌋₊ : ℕ) : ℚ) ≤ ms * audioRate / 1000 :=
    Nat.floor_le (by positivity)
  rw [queuedMs_eq, queuedMs_eq, putSilence]
  simp only [audioRate, bytesPerFrame] at hfloor ⊢
  push_cast at hfloor ⊢
  linarith

/-- The silence for whole packets is exact. -/
lemma queuedMs_putSilence_packets (n : ℕ) (p : AudioPacket) (a : ViewAudio) :
    (a.putSilence (n * p.ms)).queuedMs = a.queuedMs + n * p.ms := by
  have hframes : (n * p.ms : ℚ) * audioRate / 1000 = (n * p.frames.toNat : ℕ) := by
    rw [ms_eq, audioRate]
    push_cast
    ring
  rw [queuedMs_eq, queuedMs_eq, putSilence, hframes, Nat.floor_natCast, ms_eq]
  simp only [bytesPerFrame]
  push_cast
  ring

lemma queuedMs_play_le (n : ℕ) (a : ViewAudio) : (a.play n).queuedMs ≤ a.queuedMs := by
  have hle : ((a.queued - n : ℕ) : ℚ) ≤ a.queued := Nat.cast_le.mpr (Nat.sub_le _ _)
  rw [queuedMs_eq, queuedMs_eq, play]
  linarith

end durations

/-! ## One packet -/

section packets

variable {p : AudioPacket} {a : ViewAudio} {target q : ℚ}

/-- The gauge that the buffer is, seen with the level `q`. -/
lemma putOrDrop_fill (target : ℚ) (p : AudioPacket) (a : ViewAudio) (q : ℚ) :
    let g := Gauge.fill target (target + dropSlackMs) ⟨q, a.dropping⟩ p.ms
    (a.putOrDrop target p q).dropping = g.cut ∧
      (a.putOrDrop target p q).queuedMs + (q - a.queuedMs) = g.level := by
  have hcond : (a.dropping || decide (target + dropSlackMs < q)) = true ∧ target < q ↔
      (a.dropping = true ∨ target + dropSlackMs < q) ∧ target < q := by
    rw [Bool.or_eq_true, decide_eq_true_iff]
  unfold putOrDrop Gauge.fill
  dsimp only
  by_cases h : (a.dropping = true ∨ target + dropSlackMs < q) ∧ target < q
  · rw [if_pos h, if_pos (hcond.mpr h)]
    exact ⟨(hcond.mpr h).1, add_sub_cancel _ _⟩
  · have hnudge (b : ViewAudio) : (b.nudge target q p).dropping = b.dropping ∧
        (b.nudge target q p).queuedMs = b.queuedMs := by
      unfold nudge
      dsimp only
      split <;> exact ⟨rfl, rfl⟩
    rw [if_neg h, if_neg (hcond.not.mpr h)]
    refine ⟨(hnudge _).1, ?_⟩
    rw [(hnudge _).2, queuedMs_eq, queuedMs_eq, ms_eq]
    simp only [bytesPerFrame]
    push_cast
    ring

/-- The level that `on_packet` goes by. -/
lemma refill_cases (htarget : 0 ≤ target) (a : ViewAudio) :
    let r := a.refill target
    (r = (a, a.queuedMs) ∧ a.started = true ∧ 0 < a.queuedMs) ∨
      (r.2 = target ∧ r.1.queuedMs ≤ target ∧ (a.started = false ∨ a.queuedMs ≤ 0)) := by
  unfold refill
  dsimp only
  by_cases hfresh : a.started = false
  · rw [if_pos hfresh]
    refine .inr ⟨rfl, ?_, .inl hfresh⟩
    have hle := queuedMs_putSilence_le htarget { a with queued := 0 }
    have hzero : ({ a with queued := 0 } : ViewAudio).queuedMs = 0 := by
      rw [queuedMs_eq]
      simp
    rw [hzero, zero_add] at hle
    exact hle
  rw [if_neg hfresh]
  by_cases hdry : a.queuedMs ≤ 0
  · rw [if_pos hdry]
    have hle := queuedMs_putSilence_le htarget a
    exact .inr ⟨rfl, by linarith, .inr hdry⟩
  · rw [if_neg hdry]
    exact .inl ⟨rfl, by simpa using hfresh, not_le.mp hdry⟩

/-- The silence for a hole. -/
lemma conceal_cases (hgap : ¬a.gap p < 0) :
    (a.conceal p).dropping = a.dropping ∧
      ((a.gap p = 0 ∨ concealMax < a.gap p) ∧ (a.conceal p).queuedMs = a.queuedMs ∨
        (0 < a.gap p ∧ a.gap p ≤ concealMax) ∧ (a.conceal p).started = true ∧
          (a.conceal p).queuedMs = a.queuedMs + a.gap p * p.ms) := by
  unfold conceal
  dsimp only
  by_cases hpos : 0 < a.gap p
  · rw [if_pos hpos]
    by_cases hmax : a.gap p ≤ concealMax
    · rw [if_pos hmax]
      have hstarted : a.started = true := by
        by_contra hno
        exact hpos.ne' (if_neg hno)
      obtain ⟨n, hn⟩ := Int.eq_ofNat_of_zero_le hpos.le
      have hexact := queuedMs_putSilence_packets n p a
      refine ⟨rfl, .inr ⟨⟨hpos, hmax⟩, hstarted, ?_⟩⟩
      rw [hn]
      exact hexact
    · rw [if_neg hmax]
      exact ⟨rfl, .inl ⟨.inr (not_le.mp hmax), rfl⟩⟩
  · rw [if_neg hpos]
    exact ⟨rfl, .inl ⟨.inl (by omega), rfl⟩⟩

/-- The gauge that the buffer is. -/
def gauge (a : ViewAudio) : Gauge ℚ := ⟨a.queuedMs, a.dropping⟩

/-- When no packets are thrown away, the level is at most one packet above the slack. -/
def Settled (target : ℚ) (a : ViewAudio) : Prop :=
  a.gauge.Settled (target + dropSlackMs) audioMaxMs

lemma audioMaxMs_eq : audioMaxMs = 5 := by
  simp only [audioMaxMs, audioMaxFrames, audioRate]
  norm_num

lemma latencyBound_eq (target : ℚ) : latencyBound target = target + dropSlackMs + 45 := by
  rw [latencyBound, audioMaxMs_eq, concealMax]
  norm_num

lemma low_le_high (target : ℚ) : target ≤ target + dropSlackMs := by
  rw [dropSlackMs]
  linarith

/-- **A packet that is put or dropped** leaves the buffer settled, and over the bound only if the level was
over it. -/
lemma putOrDrop_spec (target : ℚ) (h : p.Valid) (hq : a.queuedMs ≤ q) :
    (a.putOrDrop target p q).Settled target ∧
      (q ≤ latencyBound target → (a.putOrDrop target p q).queuedMs ≤ latencyBound target) ∧
      (a.queuedMs = q → (a.putOrDrop target p q).queuedMs ≤ latencyBound target →
        q ≤ latencyBound target) := by
  obtain ⟨hcut, hlevel⟩ := putOrDrop_fill target p a q
  set g := Gauge.fill target (target + dropSlackMs) ⟨q, a.dropping⟩ p.ms with hg
  have hlow := low_le_high target
  have hbound : target + dropSlackMs + audioMaxMs ≤ latencyBound target := by
    rw [latencyBound_eq, audioMaxMs_eq]
    linarith
  have hiff := Gauge.level_fill_le_iff hlow (ms_pos h).le (ms_le h) hbound ⟨q, a.dropping⟩
  rw [← hg] at hiff
  refine ⟨fun hopen => ?_, fun hle => ?_, fun heq hle => ?_⟩
  · have hsettled := Gauge.settled_fill hlow (ms_le h) ⟨q, a.dropping⟩ (hcut.symm.trans hopen)
    rw [← hg] at hsettled
    change (a.putOrDrop target p q).queuedMs ≤ _
    linarith
  · have hg' := hiff.mpr hle
    linarith
  · exact hiff.mp (by linarith)

/-- **One packet.** -/
lemma onPacket_spec (htarget : 0 ≤ target) (hs : a.Settled target) (rx : UInt64) :
    (a.onPacket target p rx).Settled target ∧
      (a.queuedMs ≤ latencyBound target →
        ((a.onPacket target p rx).queuedMs ≤ latencyBound target ↔
          (p.Valid → 0 < (a.arrive rx).gap p → (a.arrive rx).gap p ≤ concealMax →
            a.dropping = true →
            a.queuedMs + (a.arrive rx).gap p * p.ms ≤ latencyBound target))) := by
  unfold onPacket
  by_cases hvalid : p.Valid
  swap
  · rw [if_pos hvalid]
    exact ⟨hs, fun hle => iff_of_true hle fun h => absurd h hvalid⟩
  rw [if_neg (not_not.mpr hvalid)]
  dsimp only
  have hsame : (a.arrive rx).queuedMs = a.queuedMs := rfl
  by_cases hgap : (a.arrive rx).gap p < 0
  · rw [if_pos hgap]
    exact ⟨hs, fun hle => iff_of_true hle fun _ hpos => absurd hgap hpos.not_gt⟩
  rw [if_neg hgap]
  have hms := ms_pos hvalid
  obtain ⟨hdrop, hconceal⟩ := conceal_cases hgap
  generalize (a.arrive rx).gap p = d at hgap hconceal ⊢
  obtain ⟨hr, hstarted, hpos⟩ | ⟨hr, hlevel, hlow⟩ :=
    refill_cases htarget ((a.arrive rx).conceal p)
  · rw [hr]
    obtain ⟨hsettled, hup, hdown⟩ := putOrDrop_spec target hvalid
      (le_refl ((a.arrive rx).conceal p).queuedMs)
    refine ⟨hsettled, fun hle => ⟨fun h _ hgap' hmax _ => ?_, fun h => hup ?_⟩⟩
    · have hlevel := hdown rfl h
      obtain ⟨hno, -⟩ | ⟨-, -, hq⟩ := hconceal
      · omega
      · rw [hq, hsame] at hlevel
        exact hlevel
    · obtain ⟨-, hq⟩ | ⟨hhole, -, hq⟩ := hconceal
      · rw [hq]
        exact hle
      · rw [hq]
        by_cases hdropping : a.dropping = true
        · exact h hvalid hhole.1 hhole.2 hdropping
        · -- up to eight packets on top of a settled buffer
          have hbase : a.queuedMs ≤ target + dropSlackMs + audioMaxMs :=
            hs ((Bool.not_eq_true _).mp hdropping)
          have hpkt := ms_le hvalid
          have hd : (d : ℚ) ≤ (8 : ℤ) := Int.cast_le.mpr hhole.2
          have hmul := mul_le_mul_of_nonneg_right hd hms.le
          rw [Int.cast_ofNat] at hmul
          rw [hsame, latencyBound_eq]
          rw [audioMaxMs_eq] at hbase hpkt
          linarith
  · obtain ⟨hsettled, hup, -⟩ := putOrDrop_spec target hvalid (hlevel.trans_eq hr.symm)
    refine ⟨hsettled, fun _ => iff_of_true (hup ?_) fun _ hgap' hmax _ => ?_⟩
    · rw [hr, latencyBound_eq, dropSlackMs]
      linarith
    · -- after the silence the buffer is neither fresh nor dry
      obtain ⟨hno, -⟩ | ⟨-, hstarted, hq⟩ := hconceal
      · omega
      have hwet : 0 < ((a.arrive rx).conceal p).queuedMs := by
        have hd : (0 : ℚ) < d := Int.cast_pos.mpr hgap'
        rw [hq, queuedMs_eq]
        positivity
      rcases hlow with hfresh | hdry
      · exact absurd (hstarted.symm.trans hfresh) (by decide)
      · exact absurd hdry (not_le.mpr hwet)

end packets

/-! ## Runs -/

lemma Settled.play {a : ViewAudio} {target : ℚ} (h : a.Settled target) (n : ℕ) :
    (a.play n).Settled target :=
  fun hcut => (queuedMs_play_le n a).trans (h hcut)

lemma Settled.step {a : ViewAudio} {target : ℚ} (htarget : 0 ≤ target) (h : a.Settled target)
    (e : Arrival) : (step target a e).Settled target :=
  (onPacket_spec (p := e.pkt) htarget (h.play e.played) e.rx).1

/-- A packet keeps the bound if its silence has room. -/
lemma bounded_step_iff {a : ViewAudio} {target : ℚ} (htarget : 0 ≤ target) (h : a.Settled target)
    (hle : a.queuedMs ≤ latencyBound target) (e : Arrival) :
    (step target a e).queuedMs ≤ latencyBound target ↔ a.HasRoom target e := by
  have hiff := (onPacket_spec (p := e.pkt) htarget (h.play e.played) e.rx).2
    ((queuedMs_play_le e.played a).trans hle)
  exact hiff.trans ⟨fun hroom hc hdrop => hroom hc.1 hc.2.1 hc.2.2 hdrop,
    fun hroom hv hpos hmax hdrop => hroom ⟨hv, hpos, hmax⟩ hdrop⟩

lemma queuedMs_start_le {target : ℚ} (htarget : 0 ≤ target) :
    ({} : ViewAudio).queuedMs ≤ target := by
  rw [queuedMs_eq]
  simpa using htarget

/-- **The latency is bounded** in every state exactly when the silence for each hole that is found
while packets are thrown away has room. -/
theorem latency_bounded_iff {target : ℚ} (htarget : 0 ≤ target) (es : List Arrival) :
    (∀ n, (run (step target) {} (es.take n)).queuedMs ≤ latencyBound target) ↔
      Along (HasRoom target) (step target) {} es := by
  have hempty := queuedMs_start_le htarget
  refine forall_run_iff_along (Q := fun _ => True) (J := Settled target)
    (P := fun a => a.queuedMs ≤ latencyBound target) (fun a e _ hs => hs.step htarget e)
    (fun a e _ hs hle => bounded_step_iff htarget hs hle e) (fun _ => hempty.trans ?_)
    (hempty.trans ?_) fun _ _ => trivial
  · rw [audioMaxMs_eq, dropSlackMs]
    linarith
  · rw [latencyBound_eq, dropSlackMs]
    linarith

/-- A hole of two packets in a buffer that is not too deep. -/
theorem latency_bounded_hole :
    let pkt (seq : UInt32) : Arrival := ⟨480, 0, { frames := 128, seq := seq }⟩
    ∀ n, (run (step 10) {} ([pkt 0, pkt 3, pkt 4].take n)).queuedMs ≤ latencyBound 10 := by
  intro pkt
  have hroom : Along (HasRoom 10) (step 10) {} [pkt 0, pkt 3, pkt 4] := by
    refine ⟨fun _ h => ?_, fun _ h => ?_, fun _ h => ?_, trivial⟩
    · exact absurd h (by decide +kernel)
    · exact absurd h (by decide +kernel)
    · exact absurd h (by decide +kernel)
  exact (latency_bounded_iff (by norm_num) _).mpr hroom

/-- Two holes of eight packets in a row: the silence for the second is put although the first one is
still being thrown away. -/
theorem exists_latency_unbounded :
    ∃ es : List Arrival, ¬∀ n, (run (step 10) {} (es.take n)).queuedMs ≤ latencyBound 10 := by
  let pkt (seq : UInt32) : Arrival := ⟨0, 0, { frames := 240, seq := seq }⟩
  refine ⟨[pkt 0, pkt 9, pkt 18], fun h => ?_⟩
  exact absurd (h 3) (by decide +kernel)

end ViewAudio

end Sremfb
