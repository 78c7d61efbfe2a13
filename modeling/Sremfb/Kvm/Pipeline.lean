import Sremfb.Kvm.Capture

/-!
# The master image is the last frame

A frame is converted only where it differs from the retained one, so the master image is right as
long as the retained buffer still holds what was converted.  It does, because the driver never has
it: `Retained` says that the retained buffer is not the driver's, and that the master is the
conversion of what it holds.  Each event keeps it, under the assumption on the driver alone.
-/

namespace Sremfb

open Lib

namespace KvmState

variable {st : KvmState}

/-! ## One frame -/

/-- The rectangles of a frame: few, aligned, and every pixel that changes lies in one. -/
lemma frameRects_spec (st : KvmState) (idx : ℕ) :
    (st.frameRects idx).length ≤ kvmMaxRects ∧ (∀ r ∈ st.frameRects idx, st.fmt.Aligned r) ∧
      ∀ x y, st.fmt.before (st.prev.map st.buf) x y ≠ st.fmt.kvmConvertFull (st.buf idx) x y →
        ∃ r ∈ st.frameRects idx, r.Mem x y := by
  unfold frameRects
  dsimp only
  split <;> rename_i hn
  · obtain ⟨hlen, hal, -⟩ := KvmFormat.kvmRects_spec
      (KvmFormat.length_kvmDiff (f := st.fmt) (t := st.tile) (st.buf idx) (st.prev.map st.buf)).le
      kvmMaxRects (by decide)
    exact ⟨hlen, hal, fun x y hne => KvmFormat.kvmRects_cover _ _ (by decide) hne⟩
  · refine ⟨Nat.zero_le _, fun r hr => absurd hr List.not_mem_nil, fun x y hne => ?_⟩
    obtain ⟨-, hdirty⟩ := KvmFormat.dirty_of_ne (t := st.tile) hne
    exact absurd (KvmFormat.count_pos_of_tileAt hdirty) hn

/-- The retained picture is black where nothing is converted. -/
lemma before_eq_zero (f : KvmFormat) (prev : Option Bytes) {x y : ℤ} (hs : ¬f.shown.Mem x y) :
    f.before prev x y = 0 := by
  cases prev with
  | none => rfl
  | some p => exact (KvmFormat.kvmConvertFull_apply p x y).trans (if_neg hs)

/-- **The dirty rectangles make the new frame out of the old one.** -/
lemma foldl_frameRects (st : KvmState) (idx : ℕ) :
    (st.frameRects idx).foldl (fun m r => st.fmt.kvmConvertRect (st.buf idx) r m)
      (st.fmt.before (st.prev.map st.buf)) = st.fmt.kvmConvertFull (st.buf idx) := by
  obtain ⟨-, hal, hcover⟩ := frameRects_spec st idx
  rw [KvmFormat.foldl_kvmConvertRect hal _ fun x y hs => before_eq_zero _ _ hs]
  exact rewrite_eq hcover

/-- Everything but the flags of the buffers is the same. -/
def SameBuffers (st st' : KvmState) : Prop :=
  st' = { st with queued := st'.queued, driver := st'.driver }

lemma SameBuffers.trans {st' st'' : KvmState} (h : st.SameBuffers st') (h' : st'.SameBuffers st'') :
    st.SameBuffers st'' := by
  unfold SameBuffers at *
  rw [h', h]

lemma sameBuffers_releaseBuf (st : KvmState) (idx : ℕ) (ok : Bool) :
    st.SameBuffers (st.releaseBuf idx ok) := by
  unfold releaseBuf
  split
  · rfl
  split
  · rfl
  · rfl

/-- Giving a buffer back touches that buffer alone. -/
lemma releaseBuf_of_ne (st : KvmState) {idx i : ℕ} (ok : Bool) (h : i ≠ idx) :
    (st.releaseBuf idx ok).driver i = st.driver i ∧
      (st.releaseBuf idx ok).queued i = st.queued i := by
  unfold releaseBuf
  split
  · exact ⟨rfl, rfl⟩
  split
  · exact ⟨rfl, rfl⟩
  · exact ⟨Function.update_of_ne h .., Function.update_of_ne h ..⟩

/-- What `sremfb_kvm_frame` does to the capture. -/
lemma kvmFrame_spec (st : KvmState) {idx : ℕ} (ok : Bool) (hne : st.prev ≠ some idx)
    (hd : st.driver idx = false) :
    let st' := st.kvmFrame idx ok
    st'.prev = some idx ∧ st'.driver idx = false ∧ st'.queued idx = false ∧
      st'.master = st.master.map ((st.frameRects idx).foldl
        fun m r => st.fmt.kvmConvertRect (st.buf idx) r m) ∧
      st' = { st with
        prev := st'.prev, master := st'.master, queued := st'.queued, driver := st'.driver
        clients := st'.clients } := by
  unfold kvmFrame fanout
  dsimp only
  cases hp : st.prev with
  | none =>
      refine ⟨rfl, hd, Function.update_self .., rfl, rfl⟩
  | some p =>
      have hpi : idx ≠ p := fun h => hne (by rw [hp, h])
      dsimp only
      set st₁ : KvmState := { st with
        queued := Function.update st.queued idx false
        master := st.master.map fun m => (st.frameRects idx).foldl
          (fun m r => st.fmt.kvmConvertRect (st.buf idx) r m) m
        prev := some p } with hst₁
      have hsame : st₁.releaseBuf p ok = _ := sameBuffers_releaseBuf st₁ p ok
      obtain ⟨hdrv, hq⟩ := releaseBuf_of_ne st₁ ok hpi
      refine ⟨rfl, ?_, ?_, ?_, ?_⟩
      · exact hdrv.trans hd
      · exact hq.trans (Function.update_self ..)
      · rw [hsame]
      · rw [hsame]

/-! ## The invariant -/

/-- **The invariant.**  The retained buffer is not the driver's, and while the device streams the
master is the conversion of what it holds, or black. -/
structure Retained (st : KvmState) : Prop where
  watching : st.frameWatch = true → st.streaming = true
  synthetic : st.fd = false → st.streaming = true → st.nbuf = kvmNbuf
  held : ∀ p, st.prev = some p → p < st.nbuf ∧ st.driver p = false ∧ st.queued p = false
  image : st.streaming = true → st.master = some (st.fmt.before (st.prev.map st.buf))

/-- A frame in a buffer that the driver has just given back. -/
lemma Retained.frame (h : st.Retained) {idx : ℕ} (ok : Bool) (hs : st.streaming = true)
    (hidx : idx < st.nbuf) (hne : st.prev ≠ some idx) (hd : st.driver idx = false) :
    (st.kvmFrame idx ok).Retained ∧ (st.kvmFrame idx ok).prev = some idx ∧
      (st.kvmFrame idx ok).master = some (st.fmt.kvmConvertFull (st.buf idx)) := by
  obtain ⟨hprev, hdrv, hq, hmaster, hsame⟩ := kvmFrame_spec st ok hne hd
  rw [h.image hs, Option.map_some, foldl_frameRects] at hmaster
  refine ⟨⟨?_, ?_, ?_, ?_⟩, hprev, hmaster⟩
  · intro _
    rw [hsame]
    exact hs
  · rw [hsame]
    exact h.synthetic
  · intro p hp
    obtain rfl := Option.some.inj (hprev.symm.trans hp)
    refine ⟨?_, hdrv, hq⟩
    rw [hsame]
    exact hidx
  · intro _
    rw [hmaster, hprev, hsame]
    rfl

/-- Changing the clients changes nothing here. -/
lemma Retained.clients (h : st.Retained) (cs : List KvmClient) :
    Retained { st with clients := cs } :=
  ⟨h.watching, h.synthetic, h.held, h.image⟩

/-- Giving a buffer that is not retained to the driver. -/
lemma Retained.release (h : st.Retained) {idx : ℕ} (hne : st.prev ≠ some idx) (ok : Bool) :
    (st.releaseBuf idx ok).Retained := by
  have hsame : st.releaseBuf idx ok = _ := sameBuffers_releaseBuf st idx ok
  refine ⟨?_, ?_, ?_, ?_⟩
  · rw [hsame]
    exact h.watching
  · rw [hsame]
    exact h.synthetic
  · intro p hp
    rw [hsame] at hp
    have hpi : p ≠ idx := fun he => hne (by rw [← he]; exact hp)
    obtain ⟨hdrv, hq⟩ := releaseBuf_of_ne st ok hpi
    obtain ⟨hlt, hd, hqd⟩ := h.held p hp
    refine ⟨?_, hdrv.trans hd, hq.trans hqd⟩
    rw [hsame]
    exact hlt
  · rw [hsame]
    exact h.image

/-- The driver gives a buffer back: it is not the retained one, and nothing else changes. -/
lemma Retained.dequeue (h : st.Retained) {i : ℕ} (hd : st.driver i = true) :
    st.prev ≠ some i ∧ Retained { st with
      driver := Function.update st.driver i false
      queued := Function.update st.queued i false } := by
  have hne : st.prev ≠ some i := by
    intro hp
    rw [(h.held i hp).2.1] at hd
    cases hd
  refine ⟨hne, h.watching, h.synthetic, fun p hp => ?_, h.image⟩
  obtain ⟨hlt, hdp, hqp⟩ := h.held p hp
  have hpi : p ≠ i := fun he => hne (by rw [← he]; exact hp)
  refine ⟨hlt, ?_, ?_⟩
  · exact (Function.update_of_ne hpi ..).trans hdp
  · exact (Function.update_of_ne hpi ..).trans hqp

/-- **A frame comes back.**  It is not the retained one, and if it is taken the master becomes its
conversion. -/
lemma Retained.frameReady (h : st.Retained) {b : Dequeued} (ok : Bool)
    (hw : st.frameWatch = true) (hd : st.driver b.index = true) :
    st.prev ≠ some b.index ∧ (st.onFrameReady (.buffer b) ok).Retained ∧
      (b.index < st.nbuf → st.discards b = false →
        (st.onFrameReady (.buffer b) ok).prev = some b.index ∧
        (st.onFrameReady (.buffer b) ok).master =
          some (st.fmt.kvmConvertFull (st.buf b.index))) := by
  obtain ⟨hne, hr⟩ := h.dequeue hd
  refine ⟨hne, ?_⟩
  unfold onFrameReady
  rw [if_neg (by simp [hw])]
  dsimp only
  split <;> rename_i hlt
  · refine ⟨⟨h.watching, h.synthetic, fun p hp => ?_, h.image⟩, fun hlt' => absurd hlt' (by omega)⟩
    obtain ⟨hp₁, hp₂, hp₃⟩ := h.held p hp
    have hpi : p ≠ b.index := by
      intro he
      omega
    exact ⟨hp₁, (Function.update_of_ne hpi ..).trans hp₂, hp₃⟩
  split <;> rename_i hdis
  · exact ⟨hr.release hne ok, fun _ hno => absurd (hno.symm.trans hdis) (by decide)⟩
  · obtain ⟨hret, hprev, hmaster⟩ :=
      hr.frame ok (h.watching hw) (Nat.lt_of_not_le hlt) hne (Function.update_self ..)
    exact ⟨hret, fun _ _ => ⟨hprev, hmaster⟩⟩

lemma Retained.onFrameReady (h : st.Retained) {r : Dqbuf} {ok : Bool}
    (hd : Driver st (.frameReady r ok)) : (st.onFrameReady r ok).Retained := by
  by_cases hw : st.frameWatch = true
  · cases r with
    | again =>
        unfold KvmState.onFrameReady
        rw [if_neg (by simp [hw])]
        exact h
    | error =>
        unfold KvmState.onFrameReady
        rw [if_neg (by simp [hw])]
        exact ⟨fun hf => Bool.noConfusion hf, h.synthetic, h.held, h.image⟩
    | buffer b => exact (h.frameReady ok hw (hd hw)).2.1
  · unfold KvmState.onFrameReady
    rw [if_pos (by simpa using hw)]
    exact h

/-- The synthetic source draws into a buffer that is not retained. -/
lemma Retained.draw (h : st.Retained) (hs : st.streaming = true) {i : ℕ} (hne : st.prev ≠ some i)
    (mem : Bytes) : Retained { st with
      buf := Function.update st.buf i mem
      driver := Function.update st.driver i false } := by
  refine ⟨h.watching, h.synthetic, fun p hp => ?_, fun _ => ?_⟩
  · obtain ⟨hp₁, hp₂, hp₃⟩ := h.held p hp
    have hpi : p ≠ i := fun he => hne (by rw [← he]; exact hp)
    exact ⟨hp₁, (Function.update_of_ne hpi ..).trans hp₂, hp₃⟩
  · dsimp only
    rw [h.image hs]
    cases hp : st.prev with
    | none => rfl
    | some p =>
        have hpi : p ≠ i := fun he => hne (by rw [← he]; exact hp)
        rw [Option.map_some, Option.map_some, Function.update_of_ne hpi]

/-- A frame of the synthetic source. -/
lemma Retained.tick (h : st.Retained) (mem : Bytes) :
    (st.tick mem).Retained ∧
      (st.tick mem = st ∨ (st.tick mem).master = some (st.fmt.kvmConvertFull mem)) := by
  unfold KvmState.tick
  split <;> rename_i hmode
  · exact ⟨h, .inl rfl⟩
  rw [not_or, Bool.not_eq_true, Bool.not_eq_false] at hmode
  obtain ⟨hfd, hs⟩ := hmode
  split
  · exact ⟨h, .inl rfl⟩
  · rename_i i hfind
    have hi : i < kvmNbuf := List.mem_range.mp (List.mem_of_find?_eq_some hfind)
    have hpick := List.find?_some hfind
    rw [Bool.and_eq_true, decide_eq_true_eq] at hpick
    have hr := h.draw hs hpick.2 mem
    have hlt : i < st.nbuf := by rw [h.synthetic hfd hs]; exact hi
    obtain ⟨hret, -, hmaster⟩ := hr.frame true hs hlt hpick.2 (Function.update_self ..)
    refine ⟨hret, .inr ?_⟩
    rw [hmaster]
    dsimp only
    rw [Function.update_self]

/-! ## Streams and probes -/

/-- A device that does not stream retains nothing. -/
lemma retained_of_idle (hs : st.streaming = false) (hw : st.frameWatch = false)
    (hp : st.prev = none) : st.Retained where
  watching h := absurd (hw.symm.trans h) (by decide)
  synthetic _ h := absurd (hs.symm.trans h) (by decide)
  held p h := absurd (hp.symm.trans h) (by simp)
  image h := absurd (hs.symm.trans h) (by decide)

lemma retained_signalLost (st : KvmState) : st.signalLost.Retained := by
  unfold signalLost
  dsimp only
  split
  · exact retained_of_idle rfl rfl rfl
  · exact retained_of_idle rfl rfl rfl

lemma sameBuffers_foldl (ok : ℕ → Bool) (is : List ℕ) (st : KvmState) :
    st.SameBuffers (is.foldl (fun st i => st.releaseBuf i (ok i)) st) := by
  induction is generalizing st with
  | nil => rfl
  | cons i is ih => exact (sameBuffers_releaseBuf st i (ok i)).trans (ih _)

/-- What starting the buffers of a stream leaves alone. -/
structure SameStream (st st' : KvmState) : Prop where
  fd : st'.fd = st.fd
  streaming : st'.streaming = st.streaming
  signal : st'.signal = st.signal
  prev : st'.prev = st.prev
  master : st'.master = st.master
  fmt : st'.fmt = st.fmt
  clients : st'.clients = st.clients

def core (st : KvmState) :=
  (st.fd, st.streaming, st.signal, st.prev, st.master, st.fmt, st.clients)

lemma sameStream_of_eq {st st' : KvmState} (h : st'.core = st.core) : st.SameStream st' := by
  simp only [core, Prod.mk.injEq] at h
  obtain ⟨hfd, hstr, hsig, hprev, hmaster, hfmt, hclients⟩ := h
  exact ⟨hfd, hstr, hsig, hprev, hmaster, hfmt, hclients⟩

lemma sameStream_v4l2Start (st : KvmState) (a : StartAnswers) :
    st.SameStream (st.v4l2Start a).1 := by
  unfold v4l2Start
  cases a.reqbufs with
  | none => exact sameStream_of_eq rfl
  | some count =>
      dsimp only
      split
      · exact sameStream_of_eq rfl
      have hsame := sameBuffers_foldl a.qbuf (List.range (min count kvmNbuf))
        { st with nbuf := min count kvmNbuf, buf := a.mem }
      unfold SameBuffers at hsame
      rw [hsame]
      split
      · exact sameStream_of_eq rfl
      · exact sameStream_of_eq rfl

/-- A stream that has started: nothing is retained and the master is black. -/
structure Started (st : KvmState) : Prop where
  streaming : st.streaming = true
  prev : st.prev = none
  master : st.master = some fun _ _ => 0
  synthetic : st.fd = false → st.nbuf = kvmNbuf
  sized : 0 < st.fmt.srcW ∧ 0 < st.fmt.srcH

lemma Started.retained (h : st.Started) : st.Retained where
  watching _ := h.streaming
  synthetic hfd _ := h.synthetic hfd
  held p hp := absurd (h.prev.symm.trans hp) (by simp)
  image _ := by
    rw [h.master, h.prev]
    rfl

/-- `start_stream` of a stopped device: it has started, or it is stopped and the size of the source
is what the device last said. -/
lemma startStream_cases (st : KvmState) (a : StartAnswers) {w h : ℤ} (hw : 0 < w) (hh : 0 < h) :
    let r := st.stopStream.startStream a w h
    r.1.clients = st.clients ∧ r.1.signal = false ∧
      ((r.2 = true ∧ r.1.Started) ∨ (r.2 = false ∧ r.1.streaming = false ∧
        (r.1.fmt.srcW = st.fmt.srcW ∨
          (st.fd = true ∧ (st.settled a w h).pixelformat ≠ .other ∧
            r.1.fmt.srcW = (st.settled a w h).width)))) := by
  unfold startStream
  by_cases hfd : st.fd = true
  · -- the device
    have hset : st.stopStream.settled a w h = st.settled a w h := rfl
    have hfd' : st.stopStream.fd = true := hfd
    rw [if_pos hfd', v4l2SetFormat, hset]
    dsimp only
    split
    · rename_i hother
      rw [if_pos rfl]
      exact ⟨rfl, rfl, .inr ⟨rfl, rfl, .inl rfl⟩⟩
    rename_i hother
    dsimp only
    split
    · exact ⟨rfl, rfl, .inr ⟨rfl, rfl, .inr ⟨hfd, hother, rfl⟩⟩⟩
    rename_i hsize
    set st₁ : KvmState := { st.stopStream with
      fmt := _, master := some fun _ _ => 0, prev := none, streaming := true } with hst₁
    have hs := sameStream_v4l2Start st₁ a
    split
    · refine ⟨hs.clients, rfl, .inr ⟨rfl, rfl, .inr ⟨hfd, hother, ?_⟩⟩⟩
      exact congrArg KvmFormat.srcW hs.fmt
    · refine ⟨hs.clients, hs.signal, .inl ⟨rfl, hs.streaming, hs.prev, hs.master, ?_, ?_⟩⟩
      · intro hno
        rw [hs.fd] at hno
        exact absurd (hfd.symm.trans hno) (by decide)
      · rw [hs.fmt]
        simpa using hsize
  · rw [Bool.not_eq_true] at hfd
    have hno : ¬st.stopStream.fd = true := fun h => absurd (hfd.symm.trans h) (by decide)
    rw [if_neg hno]
    dsimp only
    simp only [if_neg hno, testStart, Bool.true_eq_false, if_false]
    exact ⟨rfl, rfl, .inl ⟨trivial, rfl, rfl, rfl, fun _ => rfl, hw, hh⟩⟩

lemma retained_probeSignal (h : st.Retained) (p : Probe) : (st.probeSignal p).Retained := by
  unfold probeSignal
  cases hq : p.queryMode with
  | none => exact retained_signalLost st
  | some m =>
      obtain ⟨w, hgt⟩ := m
      have hpos := Probe.queryMode_pos hq
      dsimp only
      split
      · exact h
      obtain ⟨-, -, hcase⟩ := startStream_cases st p.start hpos.1 hpos.2
      split <;> rename_i hok
      · exact retained_signalLost _
      · obtain ⟨-, hstart⟩ := hcase.resolve_right fun hfail => hok hfail.1
        obtain ⟨h₁, h₂, h₃, h₄⟩ := hstart.retained
        exact ⟨h₁, h₂, h₃, h₄⟩

/-! ## Runs -/

/-- The state before the first probe. -/
def boot (tile : TileSize) (pixfmt : Fourcc) (geometry : KvmGeometry) (resize : KvmResize)
    (fd : Bool) : KvmState :=
  { tile := tile, pixfmt := pixfmt, geometry := geometry, resize := resize, fd := fd }

/-- One event. -/
lemma Retained.step (h : st.Retained) {ev : KvmEvent} (hd : Driver st ev) : (st.step ev).Retained := by
  cases ev with
  | write i mem =>
      refine ⟨h.watching, h.synthetic, h.held, fun hs => ?_⟩
      have himage := h.image hs
      cases hp : st.prev with
      | none =>
          rw [hp] at himage
          simp only [KvmState.step, hp]
          exact himage
      | some p =>
          -- the driver does not have the retained buffer
          have hpi : p ≠ i := by
            intro he
            rw [← he, Driver, (h.held p hp).2.1] at hd
            cases hd
          rw [hp] at himage
          simp only [KvmState.step, hp, Option.map_some, Function.update_of_ne hpi]
          exact himage
  | frameReady r ok => exact h.onFrameReady hd
  | tick mem => exact (h.tick mem).1
  | probe p => exact retained_probeSignal h p
  | accept id xres yres => exact h.clients _
  | leave id => exact h.clients _
  | scheduleLost id => exact h.clients _

lemma retained_run {tile : TileSize} {pixfmt : Fourcc} {geometry : KvmGeometry}
    {resize : KvmResize} {fd : Bool} {es : List KvmEvent}
    (hes : Along Driver KvmState.step (boot tile pixfmt geometry resize fd) es) :
    (run KvmState.step (boot tile pixfmt geometry resize fd) es).Retained :=
  run_invariant (fun _ _ hd h => h.step hd) (retained_of_idle rfl rfl rfl) hes

/-- **The capture pipeline.**  In every run of a driver that writes only the buffers it holds and
gives each back once: the retained buffer is never the driver's; the master is the conversion of
the retained frame as a whole; the next frame is never in the retained buffer; and a frame that is
taken makes the master its conversion, into a zeroed image, as a whole. -/
theorem master_is_last_frame (tile : TileSize) (pixfmt : Fourcc) (geometry : KvmGeometry)
    (resize : KvmResize) (fd : Bool) (es : List KvmEvent)
    (hes : Along Driver KvmState.step (boot tile pixfmt geometry resize fd) es) :
    let st := run KvmState.step (boot tile pixfmt geometry resize fd) es
    (∀ p, st.prev = some p → st.driver p = false ∧ st.queued p = false ∧
      (st.streaming = true → st.master = some (st.fmt.kvmConvertFull (st.buf p)))) ∧
    (∀ b ok, st.frameWatch = true → Driver st (.frameReady (.buffer b) ok) →
      st.prev ≠ some b.index ∧
      (b.index < st.nbuf → st.discards b = false →
        (st.step (.frameReady (.buffer b) ok)).prev = some b.index ∧
        (st.step (.frameReady (.buffer b) ok)).master =
          some (st.fmt.kvmConvertFull (st.buf b.index)))) ∧
    ∀ mem, st.step (.tick mem) = st ∨
      (st.step (.tick mem)).master = some (st.fmt.kvmConvertFull mem) := by
  intro st
  have h : st.Retained := retained_run hes
  refine ⟨fun p hp => ?_, fun b ok hw hd => ?_, fun mem => (h.tick mem).2⟩
  · obtain ⟨-, hdrv, hq⟩ := h.held p hp
    refine ⟨hdrv, hq, fun hs => ?_⟩
    rw [h.image hs, hp]
    rfl
  · obtain ⟨hne, -, htake⟩ := h.frameReady ok hw (hd hw)
    exact ⟨hne, htake⟩

/-- A device of two by two RGB24 pixels that has two buffers. -/
def smallDevice : Probe where
  timings := some (2, 2)
  start :=
    { sFmt := fun f => some ⟨2, 2, f, 6, false⟩
      reqbufs := some 2
      buffersOk := true
      mem := fun _ _ => 0
      qbuf := fun _ => true
      streamon := true }

/-- Two frames, each in a buffer of its own. -/
def twoFrames : List KvmEvent :=
  [.probe smallDevice, .write 0 fun _ => 1, .frameReady (.buffer ⟨0, false, 12⟩) true,
    .write 1 fun i => if i < 3 then 9 else 1]

lemma twoFrames_driver : Along Driver KvmState.step (boot .default .rgb24 .source .scale true)
    twoFrames := by
  refine ⟨trivial, ?_, fun _ => ?_, ?_, trivial⟩
  · change _ = true
    decide +kernel
  · decide +kernel
  · change _ = true
    decide +kernel

/-- The second frame differs in one pixel, and the master is the whole of it. -/
theorem master_is_last_frame_second :
    let st := run KvmState.step (boot .default .rgb24 .source .scale true) twoFrames
    (st.step (.frameReady (.buffer ⟨1, false, 12⟩) true)).master =
      some (st.fmt.kvmConvertFull (st.buf 1)) := by
  intro st
  obtain ⟨-, hframe, -⟩ := master_is_last_frame _ _ _ _ _ _ twoFrames_driver
  have hd : st.frameWatch = true → st.driver 1 = true := fun _ => by decide +kernel
  obtain ⟨-, htake⟩ := hframe ⟨1, false, 12⟩ true (by decide +kernel) hd
  exact (htake (by decide +kernel) (by decide +kernel)).2

end KvmState

end Sremfb
