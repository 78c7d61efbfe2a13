import Sremfb.Lib.Run
import Sremfb.Lib.Trace
import Sremfb.View.Stream

/-!
# Waiting with nothing unpublished (`view/net.c`)

Rectangles are published in batches, and whether a batch goes out is decided from how many bytes the
socket has, once against a header and once against a payload.  What should hold is about the whole
stream and every way its bytes can arrive: a read that has to wait never does so with a rectangle
unpublished, and no control message is acted upon before the rectangles ahead of it are out.

`ViewStream.streamActs` lists what a round of `stream_loop` does to be seen from there, in order:
the reads it starts, with what the socket has at that time, the pictures that go into the shared
framebuffer, the publishing, and the control messages.  It follows `streamMsg` branch by branch; that
it tells of every publishing and every change of the picture is `tells_streamMsg`.  `FIONREAD` says
what is readable, or fails.
-/

namespace Sremfb

open Lib

/-- What the loop does. -/
inductive ViewAct
  /-- `readn` starts, with so many bytes readable. -/
  | read (need readable : ℕ)
  /-- Pixels go into the shared framebuffer. -/
  | decode
  | publish
  /-- A control message is acted upon. -/
  | control (encoding : UInt8)
  deriving DecidableEq

namespace ViewAct

def isDecode (a : ViewAct) : Bool := a == decode

def isPublish (a : ViewAct) : Bool := a == publish

/-- **In order**: nothing decoded is unpublished at a read that waits, nor at a control message. -/
def InOrder (past : List ViewAct) : ViewAct → Prop
  | read need readable => readable < need → Since isDecode isPublish past = false
  | control _ => Since isDecode isPublish past = false
  | decode | publish => True

/-- Whether something is unpublished, one act at a time. -/
def pend (b : Bool) (a : ViewAct) : Bool := a.isDecode || b && !a.isPublish

def Ok (b : Bool) : ViewAct → Prop
  | read need readable => readable < need → b = false
  | control _ => b = false
  | decode | publish => True

lemma always_inOrder_iff (log : List ViewAct) :
    Always InOrder log ↔ Along Ok pend false log := by
  rw [← always_iff_along]
  refine forall₄_congr fun past a future _ => ?_
  cases a <;> rfl

/-- Some acts that are in order, and what they leave unpublished. -/
structure Tidy (b : Bool) (acts : List ViewAct) (b' : Bool) : Prop where
  ok : Along Ok pend b acts
  leaves : run pend b acts = b'

variable {b b' b'' : Bool} {acts acts' : List ViewAct}

lemma tidy_nil (b : Bool) : Tidy b [] b := ⟨trivial, rfl⟩

lemma Tidy.append (h : Tidy b acts b') (h' : Tidy b' acts' b'') : Tidy b (acts ++ acts') b'' where
  ok := along_append.mpr ⟨h.ok, h.leaves.symm ▸ h'.ok⟩
  leaves := by rw [run_append, h.leaves, h'.leaves]

lemma Tidy.read (h : Tidy b acts b') {need readable : ℕ} (hread : readable < need → b = false) :
    Tidy b (.read need readable :: acts) b' where
  ok := ⟨hread, by cases b <;> exact h.ok⟩
  leaves := by cases b <;> exact h.leaves

lemma Tidy.control (h : Tidy false acts b') (encoding : UInt8) :
    Tidy false (.control encoding :: acts) b' := ⟨⟨rfl, h.ok⟩, h.leaves⟩

lemma tidy_publish (b : Bool) : Tidy b [.publish] false :=
  ⟨⟨trivial, trivial⟩, by cases b <;> rfl⟩

lemma tidy_decode (b : Bool) : Tidy b [.decode] true :=
  ⟨⟨trivial, trivial⟩, by cases b <;> rfl⟩

end ViewAct

/-- The bytes that have come in from the server, in all, at the moments of a round that matter: when
`FIONREAD` is asked before the header, when the header is read, and the same for the payload. -/
structure ViewArrivals where
  hdrAsk : ℕ
  hdrRead : ℕ
  bodyAsk : ℕ
  bodyRead : ℕ
  hdr_le : hdrAsk ≤ hdrRead
  body_le : bodyAsk ≤ bodyRead
  /-- `FIONREAD` fails. -/
  hdrFails : Bool := false
  bodyFails : Bool := false

/-- The answers of `FIONREAD` when `taken` bytes have been read before the round. -/
def ViewWorld.asked (o : ViewWorld) (a : ViewArrivals) (taken : ℕ) : ViewWorld :=
  { o with
    availHdr := if a.hdrFails then -1 else ((a.hdrAsk - taken : ℕ) : ℤ)
    availBody := if a.bodyFails then -1 else ((a.bodyAsk - (taken + frameHdrSize) : ℕ) : ℤ) }

namespace ViewState

/-- What `batch_flush_unless` does. -/
def flushActs (avail : ℤ) (now need : ℕ) (n : ViewState) : List ViewAct :=
  if n.batchT0 = 0 then []
  else if avail < 0 ∨ avail.toNat < need ∨ (now + 2 ^ 64 - n.batchT0) % 2 ^ 64 ≥ batchMaxNs then
    [.publish]
  else []

end ViewState

namespace ViewStream

variable (v : ViewStream)

/-- What a rectangle does. -/
def rectActs (z : Lz4) (o : ViewWorld) (readable : ℕ) (hd : FrameHdr) (n : ViewState)
    (inp : List UInt8) : List ViewAct :=
  let (x, y, w, h) := (hd.x.toNat, hd.y.toNat, hd.w.toNat, hd.h.toNat)
  let len := hd.payloadLen.toNat
  if w = 0 ∨ h = 0 ∨ x + w > v.w ∨ y + h > v.h then []
  else
    n.flushActs o.availBody o.nowBody len ++
      (if hd.encoding = Encoding.raw.code then
        if len ≠ w * h * v.bytespp then [] else [.read (w * h * v.bytespp) readable]
      else if v.noLz4 = true ∨ len = 0 ∨ len > v.compCap then [] else [.read len readable]) ++
      if (v.streamPixels z hd inp).isSome then [.decode] else []

/-- What a PING does. -/
def pingActs (readable : ℕ) (hd : FrameHdr) (inp : List UInt8) : List ViewAct :=
  if hd.payloadLen ≠ 8 then []
  else .read 8 readable :: if (readn 8 inp).isSome then [.control hd.encoding] else []

/-- Pictures of the decoder are published one by one. -/
def pullActs (o : ViewWorld) : List ViewAct := o.pictures.flatMap fun _ => [.decode, .publish]

/-- What an access unit does. -/
def h264AuActs (o : ViewWorld) (readable : ℕ) (hd : FrameHdr) (n : ViewState) (inp : List UInt8) :
    List ViewAct :=
  let len := hd.payloadLen.toNat
  if hd.x ≠ 0 ∨ hd.y ≠ 0 ∨ hd.w.toNat ≠ v.w ∨ hd.h.toNat ≠ v.h then []
  else if len = 0 ∨ len > auCap then []
  else .read len readable ::
    if (readn len inp).isSome then
      .control hd.encoding ::
        if (n.dec = false ∧ o.decOpens = false) ∨ o.decSends = false then [] else pullActs o
    else []

/-- What an `H264_EOS` does. -/
def h264EosActs (o : ViewWorld) (hd : FrameHdr) (n : ViewState) : List ViewAct :=
  .control hd.encoding :: if n.dec = true ∧ o.decSends = true then pullActs o else []

/-- What a message does once its header is read. -/
def bodyActs (z : Lz4) (o : ViewWorld) (readable : ℕ) (hd : FrameHdr) (n : ViewState)
    (inp : List UInt8) : List ViewAct :=
  if hd.magic ≠ magic then []
  else
    let isRect := hd.encoding = Encoding.raw.code ∨ hd.encoding = Encoding.lz4.code
    let first : List ViewAct := if ¬isRect ∧ n.batchT0 ≠ 0 then [.publish] else []
    let n := if ¬isRect ∧ n.batchT0 ≠ 0 then { n.publish with batchT0 := 0 } else n
    first ++
      if hd.encoding = Encoding.blank.code ∨ hd.encoding = Encoding.unblank.code then
        if hd.payloadLen ≠ 0 then [] else [.control hd.encoding]
      else if hd.encoding = Encoding.ping.code then pingActs readable hd inp
      else if v.h264Offered = true ∧ hd.encoding = Encoding.h264.code then
        v.h264AuActs o readable hd n inp
      else if v.h264Offered = true ∧ hd.encoding = Encoding.h264Eos.code then
        if hd.payloadLen ≠ 0 then [] else h264EosActs o hd n
      else if ¬isRect then []
      else v.rectActs z o readable hd n inp

/-- What a round does, with `hdrRead` and `bodyRead` bytes readable at its two reads. -/
def streamActs (z : Lz4) (o : ViewWorld) (hdrRead bodyRead : ℕ) (n : ViewState)
    (inp : List UInt8) : List ViewAct :=
  let flushed := n.batchFlushUnless o.availHdr o.nowHdr frameHdrSize
  n.flushActs o.availHdr o.nowHdr frameHdrSize ++ .read frameHdrSize hdrRead ::
    match readn frameHdrSize inp with
    | none => []
    | some (b, inp) => v.bodyActs z o bodyRead (.ofBytes b) flushed inp

end ViewStream

/-- A connection of the viewer: the state, what the server sends that has not been read, how much
has, what the loop has done, and whether it goes on. -/
structure ViewConn where
  n : ViewState := {}
  inp : List UInt8
  taken : ℕ := 0
  log : List ViewAct := []
  live : Bool := true

namespace ViewConn

/-- One round of `stream_loop`. -/
def step (v : ViewStream) (z : Lz4) (c : ViewConn) (e : ViewWorld × ViewArrivals) : ViewConn :=
  if c.live = false then c
  else
    let o := e.1.asked e.2 c.taken
    let log := c.log ++ v.streamActs z o (e.2.hdrRead - c.taken)
      (e.2.bodyRead - (c.taken + frameHdrSize)) c.n c.inp
    match v.streamMsg z o c.n c.inp with
    | .error n => { c with n := n, log := log, live := false }
    | .ok (n, inp) =>
        { c with n := n, inp := inp, log := log, taken := c.taken + (c.inp.length - inp.length) }

end ViewConn

/-! ## One round -/

section rounds

open ViewAct

variable {v : ViewStream} {z : Lz4} {o : ViewWorld} {hd : FrameHdr} {n n' : ViewState} {b : Bool}
  {inp inp' : List UInt8} {avail : ℤ} {now need readable : ℕ}

/-- A batch that has to go out does. -/
lemma tidy_flush (hb : b = true → n.batchT0 ≠ 0) (avail : ℤ) (now need : ℕ) :
    ∃ b', Tidy b (n.flushActs avail now need) b' ∧
      (b' = true → (n.batchFlushUnless avail now need).batchT0 ≠ 0) ∧
      (avail < 0 ∨ avail.toNat < need → b' = false) := by
  unfold ViewState.flushActs ViewState.batchFlushUnless
  by_cases hzero : n.batchT0 = 0
  · have hfalse : b = false := by
      by_contra hne
      exact hb ((Bool.not_eq_false _).mp hne) hzero
    rw [if_pos hzero, if_pos hzero]
    exact ⟨b, tidy_nil b, hb, fun _ => hfalse⟩
  rw [if_neg hzero, if_neg hzero]
  split <;> rename_i hflush
  · exact ⟨false, tidy_publish b, nofun, fun _ => rfl⟩
  · refine ⟨b, tidy_nil b, hb, fun hshort => absurd ?_ hflush⟩
    exact hshort.imp_right .inl

lemma tidy_pull (o : ViewWorld) : Tidy false (ViewStream.pullActs o) false := by
  unfold ViewStream.pullActs
  induction o.pictures with
  | nil => exact tidy_nil false
  | cons p ps ih =>
      rw [List.flatMap_cons]
      exact ((tidy_decode false).append (tidy_publish true)).append ih

lemma tidy_ping (readable : ℕ) (hd : FrameHdr) (inp : List UInt8) :
    Tidy false (ViewStream.pingActs readable hd inp) false := by
  unfold ViewStream.pingActs
  split
  · exact tidy_nil false
  refine Tidy.read ?_ fun _ => rfl
  split
  · exact (tidy_nil false).control _
  · exact tidy_nil false

lemma tidy_h264Au (o : ViewWorld) (readable : ℕ) (hd : FrameHdr) (n : ViewState)
    (inp : List UInt8) : Tidy false (v.h264AuActs o readable hd n inp) false := by
  unfold ViewStream.h264AuActs
  dsimp only
  split
  · exact tidy_nil false
  split
  · exact tidy_nil false
  refine Tidy.read ?_ fun _ => rfl
  split
  · refine Tidy.control ?_ _
    split
    · exact tidy_nil false
    · exact tidy_pull o
  · exact tidy_nil false

lemma tidy_h264Eos (o : ViewWorld) (hd : FrameHdr) (n : ViewState) :
    Tidy false (ViewStream.h264EosActs o hd n) false := by
  refine Tidy.control ?_ _
  split
  · exact tidy_pull o
  · exact tidy_nil false

/-- **A rectangle** leaves a batch open if it is decoded. -/
lemma tidy_rect (v : ViewStream) (z : Lz4) (hd : FrameHdr) (inp : List UInt8)
    (hb : b = true → n.batchT0 ≠ 0) (hclock : o.nowBatch ≠ 0)
    (hask : o.availBody < 0 ∨ o.availBody.toNat ≤ readable) :
    ∃ b', Tidy b (v.rectActs z o readable hd n inp) b' ∧
      ∀ n' inp', v.streamRect z o hd n inp = .ok (n', inp') → n'.batchT0 ≠ 0 := by
  unfold ViewStream.rectActs ViewStream.streamRect
  dsimp only
  split
  · exact ⟨b, tidy_nil b, fun n' inp' h => nomatch h⟩
  obtain ⟨b₁, hflush, hb₁, hshort⟩ := tidy_flush hb o.availBody o.nowBody hd.payloadLen.toNat
  have hread {need : ℕ} (hneed : need = hd.payloadLen.toNat) (hlt : readable < need) :
      b₁ = false := hshort (hask.imp_right fun hle => hneed ▸ hle.trans_lt hlt)
  have hreads : Tidy b₁
      (if hd.encoding = Encoding.raw.code then
        if hd.payloadLen.toNat ≠ hd.w.toNat * hd.h.toNat * v.bytespp then []
        else [.read (hd.w.toNat * hd.h.toNat * v.bytespp) readable]
      else if v.noLz4 = true ∨ hd.payloadLen.toNat = 0 ∨ hd.payloadLen.toNat > v.compCap then []
      else [.read hd.payloadLen.toNat readable]) b₁ := by
    split
    · split <;> rename_i hlen
      · exact tidy_nil b₁
      · exact (tidy_nil b₁).read (hread (not_not.mp hlen).symm)
    · split
      · exact tidy_nil b₁
      · exact (tidy_nil b₁).read (hread rfl)
  set n₁ := n.batchFlushUnless o.availBody o.nowBody hd.payloadLen.toNat
  have hopen : (if n₁.batchT0 = 0 then { n₁ with batchT0 := o.nowBatch } else n₁).batchT0 ≠ 0 := by
    split
    · exact hclock
    · assumption
  cases hpix : v.streamPixels z hd inp with
  | none => exact ⟨b₁, (hflush.append hreads).append (tidy_nil b₁), fun n' inp' h => nomatch h⟩
  | some q =>
      refine ⟨true, (hflush.append hreads).append (tidy_decode b₁), fun n' inp' h => ?_⟩
      obtain ⟨rfl, -⟩ := Prod.mk.inj (Except.ok.inj h)
      exact hopen

/-- **A message** after its header.  A batch that it leaves open is marked. -/
lemma tidy_body (v : ViewStream) (z : Lz4) (hd : FrameHdr) (inp : List UInt8)
    (hb : b = true → n.batchT0 ≠ 0) (hclock : o.nowBatch ≠ 0)
    (hask : o.availBody < 0 ∨ o.availBody.toNat ≤ readable) :
    ∃ b', Tidy b (v.bodyActs z o readable hd n inp) b' ∧ ∀ n' inp',
      v.streamBody z o hd n inp = .ok (n', inp') → b' = true → n'.batchT0 ≠ 0 := by
  unfold ViewStream.bodyActs ViewStream.streamBody
  by_cases hmagic : hd.magic ≠ magic
  · rw [if_pos hmagic, if_pos hmagic]
    exact ⟨b, tidy_nil b, fun n' inp' h => nomatch h⟩
  rw [if_neg hmagic, if_neg hmagic]
  dsimp only
  by_cases hrect : hd.encoding = Encoding.raw.code ∨ hd.encoding = Encoding.lz4.code
  · have hctl : ¬(hd.encoding = Encoding.blank.code ∨ hd.encoding = Encoding.unblank.code) := by
      rcases hrect with h | h <;> rw [h] <;> decide
    have hping : hd.encoding ≠ Encoding.ping.code := by
      rcases hrect with h | h <;> rw [h] <;> decide
    have hau : ¬(v.h264Offered = true ∧ hd.encoding = Encoding.h264.code) := by
      rintro ⟨-, hau⟩
      rcases hrect with h | h <;> rw [h] at hau <;> exact absurd hau (by decide)
    have heos : ¬(v.h264Offered = true ∧ hd.encoding = Encoding.h264Eos.code) := by
      rintro ⟨-, heos⟩
      rcases hrect with h | h <;> rw [h] at heos <;> exact absurd heos (by decide)
    have hfirst : ¬(¬(hd.encoding = Encoding.raw.code ∨ hd.encoding = Encoding.lz4.code) ∧
        n.batchT0 ≠ 0) := fun h => h.1 hrect
    rw [if_neg hfirst, if_neg hfirst, if_neg hctl, if_neg hctl, if_neg hping, if_neg hping,
      if_neg hau, if_neg hau, if_neg heos, if_neg heos, if_neg (not_not.mpr hrect),
      if_neg (not_not.mpr hrect), List.nil_append]
    obtain ⟨b', htidy, hopen⟩ := tidy_rect v z hd inp hb hclock hask
    exact ⟨b', htidy, fun n' inp' h _ => hopen n' inp' h⟩
  · -- a control message: whatever is open goes out first
    have hfirst : Tidy b (if ¬(hd.encoding = Encoding.raw.code ∨
        hd.encoding = Encoding.lz4.code) ∧ n.batchT0 ≠ 0 then [.publish] else []) false := by
      split <;> rename_i hopen
      · exact tidy_publish b
      · have hfalse : b = false := by
          by_contra hne
          exact hopen ⟨hrect, hb ((Bool.not_eq_false _).mp hne)⟩
        rw [hfalse]
        exact tidy_nil false
    refine ⟨false, hfirst.append ?_, fun _ _ _ h => nomatch h⟩
    split
    · split
      · exact tidy_nil false
      · exact (tidy_nil false).control _
    split
    · exact tidy_ping readable hd inp
    split
    · exact tidy_h264Au o readable hd _ inp
    split
    · split
      · exact tidy_nil false
      · exact tidy_h264Eos o hd _
    exact tidy_nil false

/-- **One round.** -/
lemma tidy_stream (v : ViewStream) (z : Lz4) (inp : List UInt8) (hb : b = true → n.batchT0 ≠ 0)
    (hclock : o.nowBatch ≠ 0) {hdrRead bodyRead : ℕ}
    (hhdr : o.availHdr < 0 ∨ o.availHdr.toNat ≤ hdrRead)
    (hbody : o.availBody < 0 ∨ o.availBody.toNat ≤ bodyRead) :
    ∃ b', Tidy b (v.streamActs z o hdrRead bodyRead n inp) b' ∧ ∀ n' inp',
      v.streamMsg z o n inp = .ok (n', inp') → b' = true → n'.batchT0 ≠ 0 := by
  unfold ViewStream.streamActs ViewStream.streamMsg
  dsimp only
  obtain ⟨b₁, hflush, hb₁, hshort⟩ := tidy_flush hb o.availHdr o.nowHdr frameHdrSize
  have hread (hlt : hdrRead < frameHdrSize) : b₁ = false :=
    hshort (hhdr.imp_right fun hle => hle.trans_lt hlt)
  cases hr : readn frameHdrSize inp with
  | none => exact ⟨b₁, hflush.append ((tidy_nil b₁).read hread), fun n' inp' h => nomatch h⟩
  | some q =>
      obtain ⟨b', htidy, hopen⟩ := tidy_body v z (.ofBytes q.1) q.2 hb₁ hclock hbody
      exact ⟨b', hflush.append (htidy.read hread), hopen⟩

end rounds

/-! ## What the acts tell -/

/-- The state in which a round leaves the viewer. -/
def ViewRound.state : ViewRound → ViewState
  | .error n => n
  | .ok q => q.1

/-- The acts tell of every publishing, and of every change of the picture. -/
structure ViewFb.Tells (fb : ViewFb) (acts : List ViewAct) (fb' : ViewFb) : Prop where
  batches : fb'.batches = fb.batches + acts.count .publish
  pixels : .decode ∉ acts → fb'.pixels = fb.pixels

namespace ViewFb

variable {fb fb' fb'' : ViewFb} {acts acts' : List ViewAct}

lemma Tells.refl (fb : ViewFb) : fb.Tells [] fb := ⟨rfl, fun _ => rfl⟩

lemma Tells.append (h : fb.Tells acts fb') (h' : fb'.Tells acts' fb'') :
    fb.Tells (acts ++ acts') fb'' where
  batches := by rw [h'.batches, h.batches, List.count_append, Nat.add_assoc]
  pixels hno := by
    rw [List.mem_append, not_or] at hno
    rw [h'.pixels hno.2, h.pixels hno.1]

/-- A read or a control message. -/
lemma Tells.cons (h : fb.Tells acts fb') {a : ViewAct} (ha : a ≠ .publish) :
    fb.Tells (a :: acts) fb' where
  batches := by rw [h.batches, List.count_cons_of_ne ha]
  pixels hno := h.pixels fun hmem => hno (List.mem_cons_of_mem a hmem)

lemma Tells.read (h : fb.Tells acts fb') (need readable : ℕ) :
    fb.Tells (.read need readable :: acts) fb' := h.cons nofun

lemma Tells.control (h : fb.Tells acts fb') (encoding : UInt8) :
    fb.Tells (.control encoding :: acts) fb' := h.cons nofun

end ViewFb

section tells

variable {v : ViewStream} {z : Lz4} {o : ViewWorld} {hd : FrameHdr} {n : ViewState}
  {inp : List UInt8}

lemma tells_publish (n : ViewState) : n.fb.Tells [.publish] n.publish.fb := ⟨rfl, fun _ => rfl⟩

lemma tells_flush (n : ViewState) (avail : ℤ) (now need : ℕ) :
    n.fb.Tells (n.flushActs avail now need) (n.batchFlushUnless avail now need).fb := by
  unfold ViewState.flushActs ViewState.batchFlushUnless
  split
  · exact .refl n.fb
  split
  · exact tells_publish n
  · exact .refl n.fb

lemma tells_pull (v : ViewStream) (o : ViewWorld) (n : ViewState) :
    n.fb.Tells (ViewStream.pullActs o) (v.h264Pull o n).1.fb := by
  have hshow (p : Picture) (n : ViewState) :
      n.fb.Tells [.decode, .publish] (v.h264Show o.nowProbe p n).fb := by
    refine ⟨?_, fun hno => absurd List.mem_cons_self hno⟩
    simp only [ViewStream.h264Show, ViewState.publish, apply_ite ViewFb.batches, ite_self]
    rfl
  unfold ViewStream.pullActs ViewStream.h264Pull
  dsimp only
  induction o.pictures generalizing n with
  | nil => exact .refl n.fb
  | cons p ps ih =>
      rw [List.flatMap_cons, List.foldl_cons]
      exact (hshow p n).append (ih _)

lemma tells_ping (o : ViewWorld) (readable : ℕ) (hd : FrameHdr) (n : ViewState)
    (inp : List UInt8) : n.fb.Tells (ViewStream.pingActs readable hd inp)
      (ViewStream.streamPing o hd n inp).state.fb := by
  unfold ViewStream.pingActs ViewStream.streamPing
  split
  · exact .refl n.fb
  cases readn 8 inp with
  | none => exact (ViewFb.Tells.refl n.fb).read _ _
  | some q =>
      dsimp only
      rw [if_pos Option.isSome_some]
      split <;> exact ((ViewFb.Tells.refl n.fb).control _).read _ _

lemma tells_h264Au (v : ViewStream) (o : ViewWorld) (readable : ℕ) (hd : FrameHdr) (n : ViewState)
    (inp : List UInt8) :
    n.fb.Tells (v.h264AuActs o readable hd n inp) (v.h264Au o hd n inp).state.fb := by
  unfold ViewStream.h264AuActs ViewStream.h264Au
  dsimp only
  split
  · exact .refl n.fb
  split
  · exact .refl n.fb
  cases readn hd.payloadLen.toNat inp with
  | none => exact (ViewFb.Tells.refl n.fb).read _ _
  | some q =>
      dsimp only
      rw [if_pos Option.isSome_some]
      refine (ViewFb.Tells.control ?_ _).read _ _
      by_cases hopens : n.dec = false ∧ o.decOpens = false
      · rw [if_pos hopens, if_pos (.inl hopens)]
        exact .refl n.fb
      rw [if_neg hopens]
      by_cases hsends : o.decSends = false
      · rw [if_pos hsends, if_pos (.inr hsends)]
        exact .refl n.fb
      rw [if_neg hsends, if_neg (not_or.mpr ⟨hopens, hsends⟩)]
      have hpull := tells_pull v o { n with
        dec := true
        silent := if n.h264Active then n.silent else 0
        h264Active := true }
      split <;> rename_i hr
      · rw [hr] at hpull
        exact hpull
      · rw [hr] at hpull
        split <;> split <;> exact hpull

lemma tells_h264Eos (v : ViewStream) (o : ViewWorld) (hd : FrameHdr) (n : ViewState)
    (inp : List UInt8) :
    n.fb.Tells (ViewStream.h264EosActs o hd n) (v.h264Eos o n inp).state.fb := by
  unfold ViewStream.h264EosActs ViewStream.h264Eos
  refine ViewFb.Tells.control ?_ _
  by_cases hdec : n.dec = true
  · rw [if_pos hdec]
    by_cases hsends : o.decSends = false
    · rw [if_pos hsends, if_neg (by simp [hsends])]
      exact .refl n.fb
    · have hpull := tells_pull v o n
      rw [if_neg hsends, if_pos ⟨hdec, by simpa using hsends⟩]
      split <;> rename_i hr <;> (rw [hr] at hpull; exact hpull)
  · rw [if_neg hdec, if_neg fun h => hdec h.1]
    exact .refl n.fb

lemma batches_fbPutRect (now : ℕ) (hd : FrameHdr) (src : List UInt8) (fb : ViewFb) :
    (v.fbPutRect now hd src fb).batches = fb.batches := by
  have hdamage (fb : ViewFb) (x y w h : ℕ) : (fb.damageAdd x y w h).batches = fb.batches := by
    unfold ViewFb.damageAdd
    dsimp only
    split
    · rfl
    split <;> rfl
  simp only [ViewStream.fbPutRect, apply_ite ViewFb.batches, hdamage, ite_self]

lemma tells_rect (v : ViewStream) (z : Lz4) (o : ViewWorld) (readable : ℕ) (hd : FrameHdr)
    (n : ViewState) (inp : List UInt8) :
    n.fb.Tells (v.rectActs z o readable hd n inp) (v.streamRect z o hd n inp).state.fb := by
  unfold ViewStream.rectActs ViewStream.streamRect
  dsimp only
  split
  · exact .refl n.fb
  have hflush := tells_flush n o.availBody o.nowBody hd.payloadLen.toNat
  set n₁ := n.batchFlushUnless o.availBody o.nowBody hd.payloadLen.toNat
  have hreads : n₁.fb.Tells
      (if hd.encoding = Encoding.raw.code then
        if hd.payloadLen.toNat ≠ hd.w.toNat * hd.h.toNat * v.bytespp then []
        else [.read (hd.w.toNat * hd.h.toNat * v.bytespp) readable]
      else if v.noLz4 = true ∨ hd.payloadLen.toNat = 0 ∨ hd.payloadLen.toNat > v.compCap then []
      else [.read hd.payloadLen.toNat readable]) n₁.fb := by
    split <;> split <;> first
      | exact .refl n₁.fb
      | exact (ViewFb.Tells.refl n₁.fb).read _ _
  have hmark : (if n₁.batchT0 = 0 then { n₁ with batchT0 := o.nowBatch } else n₁).fb = n₁.fb := by
    split <;> rfl
  cases hpix : v.streamPixels z hd inp with
  | none =>
      refine (hflush.append hreads).append ?_
      exact hmark.symm ▸ .refl n₁.fb
  | some q =>
      refine (hflush.append hreads).append ⟨?_, fun hno => absurd List.mem_cons_self hno⟩
      change (v.fbPutRect o.nowProbe hd q.1 _).batches = _
      rw [batches_fbPutRect, hmark]
      rfl

lemma tells_body (v : ViewStream) (z : Lz4) (o : ViewWorld) (readable : ℕ) (hd : FrameHdr)
    (n : ViewState) (inp : List UInt8) :
    n.fb.Tells (v.bodyActs z o readable hd n inp) (v.streamBody z o hd n inp).state.fb := by
  unfold ViewStream.bodyActs ViewStream.streamBody
  by_cases hmagic : hd.magic ≠ magic
  · rw [if_pos hmagic, if_pos hmagic]
    exact .refl n.fb
  rw [if_neg hmagic, if_neg hmagic]
  dsimp only
  set first := ¬(hd.encoding = Encoding.raw.code ∨ hd.encoding = Encoding.lz4.code) ∧ n.batchT0 ≠ 0
  have hfirst : n.fb.Tells (if first then [.publish] else [])
      (if first then { n.publish with batchT0 := 0 } else n).fb := by
    split
    · exact tells_publish n
    · exact .refl n.fb
  refine hfirst.append ?_
  set n₁ := if first then { n.publish with batchT0 := 0 } else n
  by_cases hblank : hd.encoding = Encoding.blank.code ∨ hd.encoding = Encoding.unblank.code
  · rw [if_pos hblank, if_pos hblank]
    split
    · exact .refl n₁.fb
    · have hsame : n₁.fb.Tells [] { n₁.fb with blanked := hd.encoding == Encoding.blank.code } :=
        ⟨rfl, fun _ => rfl⟩
      exact hsame.control _
  rw [if_neg hblank, if_neg hblank]
  by_cases hping : hd.encoding = Encoding.ping.code
  · rw [if_pos hping, if_pos hping]
    exact tells_ping o readable hd n₁ inp
  rw [if_neg hping, if_neg hping]
  by_cases hau : v.h264Offered = true ∧ hd.encoding = Encoding.h264.code
  · rw [if_pos hau, if_pos hau]
    exact tells_h264Au v o readable hd n₁ inp
  rw [if_neg hau, if_neg hau]
  by_cases heos : v.h264Offered = true ∧ hd.encoding = Encoding.h264Eos.code
  · rw [if_pos heos, if_pos heos]
    split
    · exact .refl n₁.fb
    · exact tells_h264Eos v o hd n₁ inp
  rw [if_neg heos, if_neg heos]
  split
  · exact .refl n₁.fb
  · exact tells_rect v z o readable hd n₁ inp

/-- **The acts of a round tell** of its publishing and of its changes of the picture. -/
theorem tells_streamMsg (v : ViewStream) (z : Lz4) (o : ViewWorld) (hdrRead bodyRead : ℕ)
    (n : ViewState) (inp : List UInt8) :
    n.fb.Tells (v.streamActs z o hdrRead bodyRead n inp) (v.streamMsg z o n inp).state.fb := by
  unfold ViewStream.streamActs ViewStream.streamMsg
  dsimp only
  refine (tells_flush n o.availHdr o.nowHdr frameHdrSize).append (ViewFb.Tells.read ?_ _ _)
  set n₁ := n.batchFlushUnless o.availHdr o.nowHdr frameHdrSize
  cases readn frameHdrSize inp with
  | none => exact .refl n₁.fb
  | some q => exact tells_body v z o bodyRead (.ofBytes q.1) n₁ q.2

end tells

/-! ## Runs -/

namespace ViewConn

variable {v : ViewStream} {z : Lz4}

/-- What a connection keeps: the log is in order, and what is unpublished is marked. -/
def Tidied (c : ViewConn) : Prop :=
  ∃ b, ViewAct.Tidy false c.log b ∧ (b = true → c.live = true → c.n.batchT0 ≠ 0)

lemma Tidied.step {c : ViewConn} (h : c.Tidied) {e : ViewWorld × ViewArrivals}
    (hclock : e.1.nowBatch ≠ 0) : (step v z c e).Tidied := by
  unfold ViewConn.step
  split
  · exact h
  rename_i hlive
  obtain ⟨b, hlog, hb⟩ := h
  have hasked {n m : ℕ} {fails : Bool} (hle : n ≤ m) : (if fails then -1 else (n : ℤ)) < 0 ∨
      (if fails then -1 else (n : ℤ)).toNat ≤ m := by
    cases fails with
    | true => exact .inl (show (-1 : ℤ) < 0 by decide)
    | false => exact .inr hle
  obtain ⟨b', htidy, hopen⟩ := tidy_stream (o := e.1.asked e.2 c.taken) v z c.inp
    (fun hpend => hb hpend (by simpa using hlive)) hclock
    (hasked (Nat.sub_le_sub_right e.2.hdr_le c.taken))
    (hasked (Nat.sub_le_sub_right e.2.body_le (c.taken + frameHdrSize)))
  dsimp only
  cases hmsg : v.streamMsg z (e.1.asked e.2 c.taken) c.n c.inp with
  | error n => exact ⟨b', hlog.append htidy, fun _ hdead => nomatch hdead⟩
  | ok q => exact ⟨b', hlog.append htidy, fun hpend _ => hopen q.1 q.2 hmsg hpend⟩

/-- **The viewer never waits with unpublished pixels**: on every stream and however its bytes come
in, nothing is unpublished at a read that has to wait, nor when a control message is acted upon. -/
theorem never_waits_unpublished (v : ViewStream) (z : Lz4) (broken : Bool) (inp : List UInt8)
    (rounds : List (ViewWorld × ViewArrivals)) (hclock : ∀ e ∈ rounds, e.1.nowBatch ≠ 0) :
    Always ViewAct.InOrder
      (run (step v z) { n := { h264Broken := broken }, inp := inp } rounds).log := by
  have hstart : Tidied { n := { h264Broken := broken }, inp := inp } :=
    ⟨false, ViewAct.tidy_nil false, nofun⟩
  have hrounds : Along (fun _ (e : ViewWorld × ViewArrivals) => e.1.nowBatch ≠ 0) (step v z)
      { n := { h264Broken := broken }, inp := inp } rounds := along_of_forall hclock
  obtain ⟨b, htidy, -⟩ := run_invariant (P := Tidied)
    (fun c e he hc => Tidied.step hc he) hstart hrounds
  exact (ViewAct.always_inOrder_iff _).mpr htidy.ok

/-- Two rectangles of one pixel: the payload of the second is not all there when it is asked for. -/
theorem never_waits_unpublished_split :
    let v : ViewStream :=
      { pixfmt := .rgb565, reqW := 1, reqH := 1, noLz4 := true, noInput := true, noAudio := true
        noH264 := true, withH264 := false, h264Offered := false, w := 1, h := 1 }
    let hdr : FrameHdr := { encoding := Encoding.raw.code, w := 1, h := 1, payloadLen := 2 }
    let c := run (step v Lz4.literal)
      { n := { h264Broken := false }, inp := hdr.bytes ++ [1, 2] ++ hdr.bytes ++ [3, 4] }
      [({}, ⟨10, 20, 42, 42, by decide, by decide, false, false⟩),
        ({}, ⟨42, 42, 43, 44, by decide, by decide, false, false⟩)]
    Always ViewAct.InOrder c.log ∧
      c.log = [.read 20 20, .read 2 22, .decode, .read 20 20, .publish, .read 2 2, .decode] := by
  intro v hdr c
  exact ⟨never_waits_unpublished v Lz4.literal false _ _ (by decide), by decide +kernel⟩

end ViewConn

end Sremfb
