import Sremfb.Kvm.Pipeline

/-!
# Looking for the signal (`capture.c`, `testsrc.c`)

The capture itself takes a probe at any time.  Here are the two timers that decide when there is
one: the poll, which comes back every second as long as there is no signal, and the debounce, which
puts a single probe behind a burst of `SOURCE_CHANGE` events or a broken `DQBUF`.  A probe that
fails arms the poll, one that restreams clears it; the debounce is cleared only by going off.

How long a timer runs is left out: it goes off at any time after it is armed.  `Watched` is the
invariant: with signal there is a stream whose frames are waited for, without it a timer is armed.
-/

namespace Sremfb

open Lib

/-- `SremfbKvmState` with its timers. -/
structure KvmWatch where
  st : KvmState
  /-- `poll_id != 0`. -/
  poll : Bool := false
  /-- `debounce_id != 0`. -/
  debounce : Bool := false

namespace KvmWatch

open KvmState

/-- `arm_poll`. -/
def armPoll (w : KvmWatch) : KvmWatch := if w.poll then w else { w with poll := true }

/-- `signal_lost`. -/
def signalLost (w : KvmWatch) : KvmWatch := { w with st := w.st.signalLost }.armPoll

/-- `sremfb_kvm_source_changed`. -/
def sourceChanged (w : KvmWatch) : KvmWatch :=
  if w.debounce then w else { w with debounce := true }

/-- `probe_signal`. -/
def probeSignal (p : Probe) (w : KvmWatch) : KvmWatch :=
  match p.queryMode with
  | none => w.signalLost
  | some (x, y) =>
      if w.st.streaming = true ∧ w.st.signal = true ∧ x = w.st.fmt.srcW ∧ y = w.st.fmt.srcH then w
      else
        let (st, ok) := w.st.stopStream.startStream p.start x y
        if ok = false then { w with st := st }.signalLost
        else { w with st := { st with signal := true }.applyResize, poll := false }

/-- `poll_cb`, of an armed timer. -/
def pollCb (p : Probe) (w : KvmWatch) : KvmWatch :=
  if w.poll = false then w
  else
    let w := { w with poll := false }.probeSignal p
    if w.st.signal = false then w.armPoll else w

/-- `debounce_cb`, of an armed timer. -/
def debounceCb (p : Probe) (w : KvmWatch) : KvmWatch :=
  if w.debounce = false then w else { w with debounce := false }.probeSignal p

/-- `on_event`: for each event of the burst, whether it is `SOURCE_CHANGE`. -/
def onEvent (burst : List Bool) (w : KvmWatch) : KvmWatch :=
  if burst.any id then w.sourceChanged else w

/-- `on_frame_ready`. -/
def onFrameReady (r : Dqbuf) (ok : Bool) (w : KvmWatch) : KvmWatch :=
  let w' := { w with st := w.st.onFrameReady r ok }
  match r with
  | .error => if w.st.frameWatch then w'.sourceChanged else w'
  | .again | .buffer _ => w'

/-- `sremfb_kvm_start`: the first probe. -/
def start (st : KvmState) (p : Probe) : KvmWatch := { st := st : KvmWatch }.probeSignal p

/-- What can happen once the capture runs. -/
inductive Event
  /-- The driver fills a buffer it holds. -/
  | write (i : ℕ) (mem : Bytes)
  | frameReady (r : Dqbuf) (ok : Bool)
  /-- Events of the device. -/
  | event (burst : List Bool)
  /-- A signal or the phase timer turns the synthetic source on, off or to another mode. -/
  | turned
  | tick (mem : Bytes)
  | poll (p : Probe)
  | debounce (p : Probe)
  | accept (id : ℕ) (xres yres : ℤ)
  | leave (id : ℕ)
  | scheduleLost (id : ℕ)

def step (w : KvmWatch) : Event → KvmWatch
  | .write i mem => { w with st := w.st.step (.write i mem) }
  | .frameReady r ok => w.onFrameReady r ok
  | .event burst => w.onEvent burst
  | .turned => w.sourceChanged
  | .tick mem => { w with st := w.st.step (.tick mem) }
  | .poll p => w.pollCb p
  | .debounce p => w.debounceCb p
  | .accept id xres yres => { w with st := w.st.step (.accept id xres yres) }
  | .leave id => { w with st := w.st.step (.leave id) }
  | .scheduleLost id => { w with st := w.st.step (.scheduleLost id) }

/-! ## The capture under the timers -/

section Steps

variable {w : KvmWatch} {st st' : KvmState}

@[simp] lemma armPoll_st (w : KvmWatch) : w.armPoll.st = w.st := by
  unfold armPoll
  split <;> rfl

@[simp] lemma armPoll_poll (w : KvmWatch) : w.armPoll.poll = true := by
  unfold armPoll
  split <;> rename_i h
  · exact h
  · rfl

@[simp] lemma sourceChanged_st (w : KvmWatch) : w.sourceChanged.st = w.st := by
  unfold sourceChanged
  split <;> rfl

@[simp] lemma sourceChanged_debounce (w : KvmWatch) : w.sourceChanged.debounce = true := by
  unfold sourceChanged
  split <;> rename_i h
  · exact h
  · rfl

lemma probeSignal_st (p : Probe) (w : KvmWatch) : (w.probeSignal p).st = w.st.probeSignal p := by
  unfold probeSignal KvmState.probeSignal signalLost
  cases p.queryMode with
  | none => exact armPoll_st _
  | some m =>
      dsimp only
      split
      · rfl
      · split
        · exact armPoll_st _
        · rfl

/-- The probe that a callback makes. -/
def probed (w : KvmWatch) : Event → List KvmEvent
  | .poll p => if w.poll then [.probe p] else []
  | .debounce p => if w.debounce then [.probe p] else []
  | .event _ | .turned => []
  | .write i mem => [.write i mem]
  | .frameReady r ok => [.frameReady r ok]
  | .tick mem => [.tick mem]
  | .accept id xres yres => [.accept id xres yres]
  | .leave id => [.leave id]
  | .scheduleLost id => [.scheduleLost id]

/-- **The timers only decide when there is a probe.** -/
lemma step_st (w : KvmWatch) (ev : Event) :
    (w.step ev).st = run KvmState.step w.st (w.probed ev) := by
  cases ev with
  | event burst =>
      simp only [step, onEvent, probed]
      split
      · exact sourceChanged_st w
      · rfl
  | turned => exact sourceChanged_st w
  | frameReady r ok =>
      cases r with
      | error =>
          simp only [step, onFrameReady, probed]
          split
          · exact sourceChanged_st _
          · rfl
      | again => rfl
      | buffer b => rfl
  | poll p =>
      cases hp : w.poll with
      | false => simp [step, pollCb, probed, hp]
      | true =>
          simp only [step, pollCb, probed, hp, Bool.true_eq_false, if_false, if_true]
          split
          · rw [armPoll_st, probeSignal_st]
            rfl
          · exact probeSignal_st ..
  | debounce p =>
      cases hd : w.debounce with
      | false => simp [step, debounceCb, probed, hd]
      | true =>
          simp only [step, debounceCb, probed, hd, Bool.true_eq_false, if_false, if_true]
          exact probeSignal_st ..
  | write i mem => rfl
  | tick mem => rfl
  | accept id xres yres => rfl
  | leave id => rfl
  | scheduleLost id => rfl

end Steps

/-! ## The watch is never lost -/

/-- With signal there is a stream, and the frames of a device are waited for. -/
def Live (st : KvmState) : Prop :=
  st.signal = true → st.streaming = true ∧ (st.fd = true → st.frameWatch = true)

/-- **The watch.** -/
structure Watched (w : KvmWatch) : Prop where
  live : Live w.st
  armed : w.st.signal = false → w.poll = true ∨ w.debounce = true

section Watched

variable {w w' : KvmWatch} {st st' : KvmState}

/-- What the watch is about. -/
def flags (st : KvmState) : Bool × Bool × Bool × Bool :=
  (st.fd, st.streaming, st.signal, st.frameWatch)

lemma Live.congr (h : Live st) (he : flags st' = flags st) : Live st' := by
  simp only [flags, Prod.mk.injEq] at he
  obtain ⟨hfd, hstr, hsig, hwatch⟩ := he
  unfold Live
  rw [hfd, hstr, hsig, hwatch]
  exact h

lemma flags_releaseBuf (st : KvmState) (idx : ℕ) (ok : Bool) :
    flags (st.releaseBuf idx ok) = flags st := by
  unfold releaseBuf
  split
  · rfl
  · split
    · rfl
    · rfl

lemma flags_kvmFrame (st : KvmState) (idx : ℕ) (ok : Bool) :
    flags (st.kvmFrame idx ok) = flags st := by
  unfold kvmFrame fanout
  dsimp only
  split
  · exact flags_releaseBuf ..
  · rfl

/-- A frame keeps the flags, unless the stream is broken. -/
lemma flags_onFrameReady (st : KvmState) {r : Dqbuf} (hr : r ≠ .error) (ok : Bool) :
    flags (st.onFrameReady r ok) = flags st := by
  unfold KvmState.onFrameReady
  split
  · rfl
  · cases r with
    | again => rfl
    | error => exact absurd rfl hr
    | buffer b =>
        dsimp only
        split
        · rfl
        · split
          · exact flags_releaseBuf ..
          · exact flags_kvmFrame ..

lemma flags_tick (st : KvmState) (mem : Bytes) : flags (st.tick mem) = flags st := by
  unfold KvmState.tick
  split
  · rfl
  · split
    · rfl
    · exact flags_kvmFrame ..

lemma frameWatch_of_v4l2Start {a : StartAnswers} (h : (st.v4l2Start a).2 = true) :
    (st.v4l2Start a).1.frameWatch = true := by
  unfold v4l2Start at h ⊢
  cases hreq : a.reqbufs with
  | none => simp [hreq] at h
  | some count =>
      rw [hreq] at h
      dsimp only at h ⊢
      split at h
      · cases h
      · rename_i hbufs
        rw [if_neg hbufs]
        split at h
        · cases h
        · rename_i hon
          rw [if_neg hon]

lemma fd_v4l2SetFormat (st : KvmState) (a : StartAnswers) (x y : ℤ) :
    (st.v4l2SetFormat a x y).1.fd = st.fd := by
  unfold v4l2SetFormat
  dsimp only
  split
  · rfl
  · rfl

/-- A device that has started is waited for. -/
lemma frameWatch_of_startStream {a : StartAnswers} {x y : ℤ}
    (h : (st.startStream a x y).2 = true) (hfd : (st.startStream a x y).1.fd = true) :
    (st.startStream a x y).1.frameWatch = true := by
  unfold startStream at h hfd ⊢
  by_cases hdev : st.fd = true
  swap
  · simp [hdev, testStart] at hfd
  rw [if_pos hdev] at h ⊢
  have hset := (fd_v4l2SetFormat st a x y).trans hdev
  dsimp only at h ⊢
  split at h
  · cases h
  rename_i hok
  rw [if_neg hok]
  simp only [hset, if_true] at h ⊢
  split at h
  · cases h
  rename_i hstart
  rw [if_neg hstart]
  exact frameWatch_of_v4l2Start (Bool.eq_true_of_not_eq_false hstart)

lemma Watched.of_st (h : w.Watched) (hf : flags w'.st = flags w.st) (hp : w'.poll = w.poll)
    (hd : w'.debounce = w.debounce) : w'.Watched where
  live := h.live.congr hf
  armed := by
    have hsig : w'.st.signal = w.st.signal := congrArg (·.2.2.1) hf
    rw [hsig, hp, hd]
    exact h.armed

/-- Losing the signal arms the poll. -/
lemma watched_signalLost (w : KvmWatch) : w.signalLost.Watched := by
  have hsig : w.signalLost.st.signal = false := by
    unfold signalLost KvmState.signalLost
    rw [armPoll_st]
    dsimp only
    split
    · rfl
    · rfl
  refine ⟨fun h => ?_, fun _ => .inl (armPoll_poll _)⟩
  rw [hsig] at h
  cases h

/-- **A probe.**  It ends with signal or with the poll armed, whatever was armed before. -/
lemma watched_probeSignal (hl : Live w.st) (p : Probe) : (w.probeSignal p).Watched := by
  unfold probeSignal
  cases hq : p.queryMode with
  | none => exact watched_signalLost w
  | some m =>
      obtain ⟨x, y⟩ := m
      obtain ⟨hx, hy⟩ := Probe.queryMode_pos hq
      dsimp only
      split <;> rename_i hsame
      · refine ⟨hl, fun hsig => ?_⟩
        rw [hsame.2.1] at hsig
        cases hsig
      obtain ⟨-, -, hcase⟩ := startStream_cases w.st p.start hx hy
      split <;> rename_i hok
      · exact watched_signalLost _
      · obtain ⟨hstart, hst⟩ := hcase.resolve_right fun hfail => hok hfail.1
        exact ⟨fun _ => ⟨hst.streaming, fun hfd => frameWatch_of_startStream hstart hfd⟩,
          fun hsig => by cases hsig⟩

lemma Watched.sourceChanged (h : Live w.st) : w.sourceChanged.Watched where
  live := by
    rw [sourceChanged_st]
    exact h
  armed _ := .inr (sourceChanged_debounce w)

/-- **One callback.** -/
theorem Watched.step (h : w.Watched) (ev : Event) : (w.step ev).Watched := by
  cases ev with
  | write i mem => exact h.of_st rfl rfl rfl
  | frameReady r ok =>
      cases r with
      | again => exact h.of_st (flags_onFrameReady _ (by simp) ok) rfl rfl
      | buffer b => exact h.of_st (flags_onFrameReady _ (by simp) ok) rfl rfl
      | error =>
          simp only [KvmWatch.step, KvmWatch.onFrameReady]
          cases hwatch : w.st.frameWatch with
          | false =>
              have hsame : w.st.onFrameReady .error ok = w.st := by
                rw [KvmState.onFrameReady, if_pos hwatch]
              rw [hsame]
              exact h
          | true =>
              refine Watched.sourceChanged fun hsig => ?_
              simp [KvmState.onFrameReady, hwatch] at hsig
  | event burst =>
      simp only [KvmWatch.step, onEvent]
      split
      · exact Watched.sourceChanged h.live
      · exact h
  | turned => exact Watched.sourceChanged h.live
  | tick mem => exact h.of_st (flags_tick _ mem) rfl rfl
  | poll p =>
      simp only [KvmWatch.step, pollCb]
      split
      · exact h
      · have hp := watched_probeSignal (w := { w with poll := false }) h.live p
        split
        · exact ⟨by rw [armPoll_st]; exact hp.live, fun _ => .inl (armPoll_poll _)⟩
        · exact hp
  | debounce p =>
      simp only [KvmWatch.step, debounceCb]
      split
      · exact h
      · exact watched_probeSignal (w := { w with debounce := false }) h.live p
  | accept id xres yres => exact h.of_st rfl rfl rfl
  | leave id => exact h.of_st rfl rfl rfl
  | scheduleLost id => exact h.of_st rfl rfl rfl

/-- **The capture never loses the watch for the signal.**  After the first probe and after every
callback since: with signal the stream runs, and with a device its frames are waited for; without
it the poll or the debounce is armed. -/
theorem signal_watch_kept (tile : TileSize) (pixfmt : Fourcc) (geometry : KvmGeometry)
    (resize : KvmResize) (fd : Bool) (p : Probe) (es : List Event) :
    let w := run step (start (boot tile pixfmt geometry resize fd) p) es
    (w.st.signal = true → w.st.streaming = true ∧ (w.st.fd = true → w.st.frameWatch = true)) ∧
      (w.st.signal = false → w.poll = true ∨ w.debounce = true) := by
  have hstart : (start (boot tile pixfmt geometry resize fd) p).Watched :=
    watched_probeSignal (fun hsig => by cases hsig) p
  have h := run_keeps (P := Watched) (fun _ ev hw => hw.step ev) hstart es
  exact ⟨h.live, h.armed⟩

end Watched

end KvmWatch

end Sremfb
