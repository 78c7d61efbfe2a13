import Mathlib.Data.Int.Notation
import Sremfb.Lib.AnnexB
import Sremfb.Lib.Raster
import Sremfb.Lib.Run

/-!
# The hardware encoder (`kvm/encoder_v4l2.c`)

`sremfb_enc_encode` copies a frame into an OUTPUT buffer of the driver, queues it, and collects the
access unit from the CAPTURE buffers that become ready before a deadline.  The buffer that it hands
to its caller is `held` until the next call.

What the driver and the clock answer are parameters of a call (`EncWorld`); that the driver hands
out CAPTURE buffers that it has is built into the loop.  A call whose rounds run out has not returned
yet.  Timestamps are kept in microseconds, which is what `tv_sec` and `tv_usec` are put together to;
the memory of `agg` grows as needed.  The controls but the bitrate, and messages, are left out.
-/

namespace Sremfb

open Lib

/-! ## Opening -/

/-- `ENC_CAP_MAX` and `ENC_OUT_NBUF`. -/
def encCapMax : ℕ := 32
@[inherit_doc encCapMax] def encOutNbuf : ℕ := 2

/-- `clamp_kbps`. -/
def clampKbps (kbps : ℤ) : ℤ := if kbps > 25000 then 25000 else if kbps < 25 then 25 else kbps

/-- The layout of an OUTPUT buffer, as far as `sremfb_enc_open` has checked it. -/
structure EncGeometry where
  w : ℕ
  h : ℕ
  bpl : ℕ
  planeH : ℕ
  outSize : ℕ
  w_even : w % 2 = 0
  h_even : h % 2 = 0
  h_le : h ≤ planeH
  planeH_even : planeH % 2 = 0
  w_le : w ≤ bpl
  bpl_even : bpl % 2 = 0
  bpl_lt : bpl < 2 ^ 32
  planeH_lt : planeH < 2 ^ 32
  /-- In the arithmetic of `size_t`. -/
  fits : bpl * planeH * 3 % 2 ^ 64 / 2 ≤ outSize

/-- `struct SremfbEncoder`. -/
structure Encoder where
  geo : EncGeometry
  kbps : ℤ
  nOut : ℕ
  outQueued : ℕ → Bool := fun _ => false
  /-- What the OUTPUT buffers hold. -/
  outMem : ℕ → ℕ → UInt8 := fun _ _ => 0
  nCap : ℕ
  capLen : ℕ → ℕ
  capQueued : ℕ → Bool
  held : Option ℕ := none
  agg : List UInt8 := []
  frames : ℕ := 0
  seq : ℕ := 0
  /-- Ghost: the CAPTURE buffers whose `QBUF` has failed. -/
  lost : ℕ → Bool := fun _ => false

/-- What the driver answers while it is set up. -/
structure EncSetup where
  /-- The device opens, is an M2M device that streams, has both formats and takes `S_FMT`. -/
  ready : Bool := true
  /-- `S_FMT` of CAPTURE. -/
  capIsH264 : Bool := true
  capW : ℕ
  capH : ℕ
  /-- `S_FMT` of OUTPUT. -/
  outIsYuv420 : Bool := true
  numPlanes : ℕ := 1
  outW : ℕ
  bpl : UInt32
  planeH : UInt32
  outSize : UInt32
  /-- `REQBUFS`, negative when it fails. -/
  nCap : ℤ
  nOut : ℤ
  maps : Bool := true
  capLen : ℕ → ℕ
  outLen : ℕ → ℕ
  qbufs : ℕ → Bool := fun _ => true
  streams : Bool := true

/-- `sremfb_enc_open`. -/
def encOpen (width height kbps : ℤ) (d : EncSetup) : Option Encoder :=
  if hsize : width ≤ 0 ∨ height ≤ 0 ∨ width % 2 ≠ 0 ∨ height % 2 ≠ 0 then none
  else if d.ready = false then none
  else if d.capIsH264 = false ∨ d.capW ≠ width.toNat ∨ d.capH ≠ height.toNat then none
  else if hgeo : d.outIsYuv420 = true ∧ d.numPlanes = 1 ∧ d.outW = width.toNat ∧
      height.toNat ≤ d.planeH.toNat ∧ d.planeH.toNat % 2 = 0 ∧ width.toNat ≤ d.bpl.toNat ∧
      d.bpl.toNat % 2 = 0 ∧ d.bpl.toNat * d.planeH.toNat * 3 % 2 ^ 64 / 2 ≤ d.outSize.toNat then
    if d.nCap < 1 ∨ d.nCap > encCapMax then none
    else if d.nOut < 1 then none
    else if d.maps = false ∨ ¬∀ i < min d.nOut.toNat encOutNbuf, d.outSize.toNat ≤ d.outLen i then
      none
    else if ¬∀ i < d.nCap.toNat, d.qbufs i = true then none
    else if d.streams = false then none
    else some {
      geo := {
        w := width.toNat
        h := height.toNat
        bpl := d.bpl.toNat
        planeH := d.planeH.toNat
        outSize := d.outSize.toNat
        w_even := by omega
        h_even := by omega
        h_le := hgeo.2.2.2.1
        planeH_even := hgeo.2.2.2.2.1
        w_le := hgeo.2.2.2.2.2.1
        bpl_even := hgeo.2.2.2.2.2.2.1
        bpl_lt := d.bpl.toNat_lt
        planeH_lt := d.planeH.toNat_lt
        fits := hgeo.2.2.2.2.2.2.2 }
      kbps := clampKbps kbps
      nOut := min d.nOut.toNat encOutNbuf
      nCap := d.nCap.toNat
      capLen := d.capLen
      capQueued := fun i => decide (i < d.nCap.toNat) }
  else none

namespace Encoder

/-- `sremfb_enc_set_bitrate`; `taken` is what the driver says to the control. -/
def setBitrate (kbps : ℤ) (taken : Bool) (e : Encoder) : Encoder :=
  let kbps := clampKbps kbps
  if kbps = e.kbps then e else if taken then { e with kbps := kbps } else e

/-- `qbuf_cap`, which returns `ok`. -/
def qbufCap (ok : Bool) (i : ℕ) (e : Encoder) : Encoder :=
  if ok then { e with capQueued := Function.update e.capQueued i true }
  else { e with lost := Function.update e.lost i true }

/-- `reclaim_out`, which dequeues these. -/
def reclaimOut (is : List ℕ) (e : Encoder) : Encoder :=
  is.foldl (fun e i =>
    if i < e.nOut then { e with outQueued := Function.update e.outQueued i false } else e) e

end Encoder

/-! ## The frame -/

/-- The planes of a frame, packed. -/
structure EncFrame where
  y : ℕ → UInt8
  u : ℕ → UInt8
  v : ℕ → UInt8

/-- `n` bytes at `off`. -/
def bytesAt (src : ℕ → UInt8) (off n : ℕ) : List UInt8 := (List.range n).map fun i => src (off + i)

/-- `copy_plane`, to the offset `off` of `dst`. -/
def copyPlane (dst : ℕ → UInt8) (off stride : ℕ) (src : ℕ → UInt8) (w h : ℕ) : ℕ → UInt8 :=
  if stride = w then blit dst off (bytesAt src 0 (w * h))
  else (List.range h).foldl (fun dst row =>
    blit dst (off + row * stride) (bytesAt src (row * w) w)) dst

namespace EncGeometry

variable (g : EncGeometry)

/-- `uoff` and `voff`. -/
def uoff : ℕ := g.bpl * g.planeH
@[inherit_doc uoff] def voff : ℕ := g.uoff + g.bpl / 2 * (g.planeH / 2)

/-- The three copies of `sremfb_enc_encode`. -/
def fill (f : EncFrame) (dst : ℕ → UInt8) : ℕ → UInt8 :=
  let dst := copyPlane dst 0 g.bpl f.y g.w g.h
  let dst := copyPlane dst g.uoff (g.bpl / 2) f.u (g.w / 2) (g.h / 2)
  copyPlane dst g.voff (g.bpl / 2) f.v (g.w / 2) (g.h / 2)

end EncGeometry

/-! ## What is in a buffer -/

/-- `nal_unit_type`. -/
def nalType (header : UInt8) : UInt8 := header &&& 0x1F

/-- A slice has a type from 1 to 5, of which 5 is IDR. -/
def isSlice (header : UInt8) : Bool := decide (1 ≤ nalType header) && decide (nalType header ≤ 5)

/-- The loop of `scan_nals`: `vcl` and `idr`, up to the first slice. -/
def scanNals : List UInt8 → Bool × Bool
  | a :: b :: c :: d :: rest =>
      if a ≠ 0 ∨ b ≠ 0 ∨ c ≠ 1 then scanNals (b :: c :: d :: rest)
      else if isSlice d then (true, nalType d == 5)
      else scanNals rest
  | _ => (false, false)

/-- The loop of `only_param_sets`, with `seen`. -/
def onlyParamSetsFrom : Bool → List UInt8 → Bool
  | seen, a :: b :: c :: d :: rest =>
      if a ≠ 0 ∨ b ≠ 0 ∨ c ≠ 1 then onlyParamSetsFrom seen (b :: c :: d :: rest)
      else if nalType d < 6 ∨ nalType d > 9 then false
      else onlyParamSetsFrom true rest
  | seen, _ => seen

/-- `only_param_sets`. -/
def onlyParamSets (p : List UInt8) : Bool :=
  if p.length < 4 ∨ p.getD 0 0 ≠ 0 ∨ p.getD 1 0 ≠ 0 then false else onlyParamSetsFrom false p

/-! ## The access unit -/

/-- A CAPTURE buffer that `DQBUF` hands out. -/
structure EncDq where
  index : ℕ
  ts : ℕ
  keyframe : Bool := false
  error : Bool := false
  last : Bool := false
  dataOffset : ℕ := 0
  /-- Its first `bytesused` bytes. -/
  mem : List UInt8
  /-- What `QBUF` says if the buffer is given back at once. -/
  requeues : Bool := true

/-- `p`, with `len` bytes. -/
def EncDq.payload (b : EncDq) : List UInt8 := b.mem.drop b.dataOffset

/-- How `poll` and `DQBUF` end. -/
inductive EncPoll
  /-- Interrupted, nothing yet, or `EAGAIN`. -/
  | again
  | fails
  | buffer (b : EncDq)

/-- A round of the loop: the clock at its head, and when a full buffer shortens the deadline. -/
structure EncRound where
  now : ℤ
  poll : EncPoll
  nowFull : ℤ := now

/-- The variables of the loop. -/
structure EncLoop where
  enc : Encoder
  deadline : ℤ
  gotIdr : Bool := false
  gotVcl : Bool := false
  done : Bool := false
  /-- `last`, with the bytes at `last_p`. -/
  last : Option (ℕ × List UInt8) := none
  pieces : ℕ := 0
  /-- Ghost: what was dequeued without an error, oldest first. -/
  seen : List EncDq := []
  /-- Ghost: what of it was taken into the access unit. -/
  kept : List EncDq := []

/-- How a round ends: the loop goes on, is left, or `goto err`. -/
inductive EncTurn
  | more (l : EncLoop)
  | over (l : EncLoop)
  | err (e : Encoder)

namespace EncLoop

/-- The buffer `b` is not of this frame, or empty. -/
def Foreign (l : EncLoop) (b : EncDq) : Prop :=
  b.payload = [] ∨ b.ts ≠ l.enc.seq ∧ (l.gotVcl = true ∨ onlyParamSets b.payload = false)

instance (l : EncLoop) (b : EncDq) : Decidable (l.Foreign b) :=
  inferInstanceAs (Decidable (_ ∨ _ ∧ _))

/-- A buffer is given back to the driver, and the loop goes on if that worked. -/
def giveBack (l : EncLoop) (b : EncDq) : EncTurn :=
  let l := { l with enc := l.enc.qbufCap b.requeues b.index }
  if b.requeues then .more l else .err l.enc

/-- A buffer of the access unit. -/
def keep (nowFull : ℤ) (b : EncDq) (l : EncLoop) : EncTurn :=
  let p := b.payload
  let gotVcl := l.gotVcl || (scanNals p).1
  let done := gotVcl && decide (p.length < l.enc.capLen b.index)
  let l' : EncLoop := { l with
    gotIdr := l.gotIdr || b.keyframe || (scanNals p).2
    gotVcl := gotVcl
    done := done
    pieces := l.pieces + 1
    deadline := if done = false ∧ gotVcl = true then min l.deadline (nowFull + 50000) else l.deadline
    kept := l.kept ++ [b] }
  -- in one buffer: no copy
  if done = true ∧ l.pieces = 0 then .more { l' with last := some (b.index, p) }
  else giveBack { l' with enc := { l.enc with agg := l.enc.agg ++ p } } b

/-- What follows `DQBUF`. -/
def take (nowFull : ℤ) (b : EncDq) (l : EncLoop) : EncTurn :=
  if l.enc.nCap ≤ b.index then .err l.enc
  -- the driver hands out what it has
  else if l.enc.capQueued b.index = false then .more l
  else
    let e := { l.enc with capQueued := Function.update l.enc.capQueued b.index false }
    if b.error || b.last then .err (e.qbufCap b.requeues b.index)
    else
      let l := { l with enc := e, seen := l.seen ++ [b] }
      if l.Foreign b then l.giveBack b else l.keep nowFull b

/-- One round. -/
def turn (r : EncRound) (l : EncLoop) : EncTurn :=
  if (l.deadline - r.now).tdiv 1000 ≤ 0 then if l.gotVcl then .over l else .err l.enc
  else
    match r.poll with
    | .again => .more l
    | .fails => .err l.enc
    | .buffer b => l.take r.nowFull b

/-- The loop; `none` as long as it is in it. -/
def loop : List EncRound → EncLoop → Option (Except Encoder EncLoop)
  | [], l => if l.done then some (.ok l) else none
  | r :: rs, l =>
      if l.done then some (.ok l)
      else
        match l.turn r with
        | .more l => loop rs l
        | .over l => some (.ok l)
        | .err e => some (.error e)

/-- The bytes that the caller gets. -/
def bytes (l : EncLoop) : List UInt8 :=
  match l.last with
  | some (_, p) => p
  | none => l.enc.agg

end EncLoop

/-- What the driver and the clock answer during one call. -/
structure EncWorld where
  /-- `QBUF` of the buffer that was held. -/
  requeues : Bool := true
  reclaimed : List ℕ := []
  /-- `FORCE_KEY_FRAME`. -/
  forces : Bool := true
  /-- `QBUF` of OUTPUT. -/
  queues : Bool := true
  /-- The clock when the deadline is set. -/
  start : ℤ := 0
  rounds : List EncRound
  reclaimedAfter : List ℕ := []

/-- An access unit: what the caller gets, and of which buffers it is made. -/
structure EncAu where
  bytes : List UInt8
  isIdr : Bool
  seen : List EncDq
  kept : List EncDq

namespace Encoder

/-- The buffer that was held goes back to the driver. -/
def returnHeld (ok : Bool) (e : Encoder) : Encoder :=
  match e.held with
  | none => e
  | some h => { e with held := none }.qbufCap ok h

/-- The frame goes into a free OUTPUT buffer, and that to the driver. -/
def queueFrame (f : EncFrame) (forceIdr : Bool) (o : EncWorld) (e : Encoder) :
    Except Encoder Encoder :=
  match (List.range e.nOut).find? fun i => !e.outQueued i with
  | none => .error e
  | some bi =>
      let e := { e with outMem := Function.update e.outMem bi (e.geo.fill f (e.outMem bi)) }
      if forceIdr && !o.forces then .error e
      else
        let e := { e with seq := e.seq + 1000000 / 60 }
        if o.queues then
          .ok { e with outQueued := Function.update e.outQueued bi true, agg := [] }
        else .error e

/-- `sremfb_enc_encode` up to the loop. -/
def prepare (f : EncFrame) (forceIdr : Bool) (o : EncWorld) (e : Encoder) :
    Except Encoder Encoder :=
  if e.held.isSome && !o.requeues then .error (e.returnHeld o.requeues)
  else ((e.returnHeld o.requeues).reclaimOut o.reclaimed).queueFrame f forceIdr o

/-- The timeout of a call, in milliseconds. -/
def timeoutMs (e : Encoder) : ℤ := if e.frames ≠ 0 then 200 else 1000

/-- `sremfb_enc_encode`: `none` while it has not returned, and a frame or an error after that. -/
def encode (f : EncFrame) (forceIdr : Bool) (o : EncWorld) (e : Encoder) :
    Option (Encoder × Option EncAu) :=
  match e.prepare f forceIdr o with
  | .error e' => some (e', none)
  | .ok e' =>
      match EncLoop.loop o.rounds { enc := e', deadline := o.start + e.timeoutMs * 1000 } with
      | none => none
      | some (.error e') => some (e'.reclaimOut o.reclaimedAfter, none)
      | some (.ok l) =>
          let e' := { l.enc.reclaimOut o.reclaimedAfter with
            frames := e.frames + 1
            held := l.last.map Prod.fst }
          if forceIdr && !l.gotIdr then some (e', none)
          else some (e', some ⟨l.bytes, l.gotIdr, l.seen, l.kept⟩)

end Encoder

/-! ## The planes -/

lemma length_bytesAt (src : ℕ → UInt8) (off n : ℕ) : (bytesAt src off n).length = n := by
  simp [bytesAt]

lemma get_bytesAt (src : ℕ → UInt8) {off n i : ℕ} (hi : i < (bytesAt src off n).length) :
    (bytesAt src off n).get ⟨i, hi⟩ = src (off + i) := by
  simp [bytesAt]

/-- A copied plane has every sample in its place, and is all that is written. -/
lemma copyPlane_spec {w stride : ℕ} (hw : w ≤ stride) (dst : ℕ → UInt8) (off : ℕ)
    (src : ℕ → UInt8) (h : ℕ) :
    (∀ y < h, ∀ x < w, copyPlane dst off stride src w h (off + y * stride + x) = src (y * w + x)) ∧
      ∀ a, a < off ∨ off + h * stride ≤ a → copyPlane dst off stride src w h a = dst a := by
  have hrows : copyPlane dst off stride src w h = (List.range h).foldl (fun dst row =>
      blit dst (off + row * stride) (bytesAt src (row * w) w)) dst := by
    unfold copyPlane
    split <;> rename_i hpacked
    · subst hpacked
      rw [blit_rows dst off (n := stride) (h := h) (by rw [length_bytesAt, Nat.mul_comm])]
      refine List.foldl_ext _ _ _ fun b j hj => congrArg (blit b _) ?_
      have hj := List.mem_range.mp hj
      have hroom : (j + 1) * stride ≤ h * stride := Nat.mul_le_mul_right stride hj
      rw [Nat.succ_mul] at hroom
      refine List.ext_getElem ?_ fun i hi hi' => ?_
      · rw [length_bytesAt, length_piece (h := h) (by rw [length_bytesAt, Nat.mul_comm]) hj]
      · simp [piece, bytesAt]
    · rfl
  obtain ⟨hin, hout⟩ := foldl_blit_rows hw dst off h (fun row => bytesAt src (row * w) w)
    fun j _ => length_bytesAt ..
  rw [hrows]
  refine ⟨fun y hy x hx => ?_, hout⟩
  have hlt : x < (bytesAt src (y * w) w).length := by rwa [length_bytesAt]
  exact (hin y hy x hlt).trans (get_bytesAt src hlt)

/-! ## The OUTPUT buffers -/

namespace Encoder

variable {e : Encoder}

/-- `reclaim_out` is about OUTPUT. -/
lemma reclaimOut_same (is : List ℕ) (e : Encoder) :
    ∃ q, e.reclaimOut is = { e with outQueued := q } := by
  unfold reclaimOut
  induction is generalizing e with
  | nil => exact ⟨e.outQueued, rfl⟩
  | cons i is ih =>
      rw [List.foldl_cons]
      split
      · obtain ⟨q, hq⟩ := ih { e with outQueued := Function.update e.outQueued i false }
        exact ⟨q, hq⟩
      · exact ih e

/-- A buffer that is free was free, or is one of those. -/
lemma free_of_reclaimOut {is : List ℕ} {i : ℕ} (h : (e.reclaimOut is).outQueued i = false) :
    e.outQueued i = false ∨ i ∈ is := by
  induction is generalizing e with
  | nil => exact .inl h
  | cons j is ih =>
      unfold reclaimOut at h
      rw [List.foldl_cons] at h
      obtain hq | hmem := ih h
      · split at hq
        · by_cases hij : i = j
          · exact .inr (hij ▸ List.mem_cons_self)
          · exact .inl ((Function.update_of_ne hij ..).symm.trans hq)
        · exact .inl hq
      · exact .inr (List.mem_cons_of_mem j hmem)

/-- What a frame on its way to the driver changes. -/
lemma queueFrame_same (f : EncFrame) (forceIdr : Bool) (o : EncWorld) (e e' : Encoder)
    (h : e.queueFrame f forceIdr o = .ok e' ∨ e.queueFrame f forceIdr o = .error e') :
    ∃ m q s a, e' = { e with outMem := m, outQueued := q, seq := s, agg := a } := by
  unfold queueFrame at h
  dsimp only at h
  split at h
  · obtain h | h := h
    · cases h
    · exact ⟨e.outMem, e.outQueued, e.seq, e.agg, (Except.error.inj h).symm⟩
  split at h
  · obtain h | h := h
    · cases h
    · exact ⟨_, e.outQueued, e.seq, e.agg, (Except.error.inj h).symm⟩
  split at h
  · obtain h | h := h
    · exact ⟨_, _, _, _, (Except.ok.inj h).symm⟩
    · cases h
  · obtain h | h := h
    · cases h
    · exact ⟨_, e.outQueued, _, e.agg, (Except.error.inj h).symm⟩

/-- A frame that is queued went into a buffer that was free. -/
lemma queueFrame_ok {f : EncFrame} {forceIdr : Bool} {o : EncWorld} {e' : Encoder}
    (h : e.queueFrame f forceIdr o = .ok e') : ∃ bi < e.nOut, e.outQueued bi = false ∧
      e' = { e with
        outMem := Function.update e.outMem bi (e.geo.fill f (e.outMem bi))
        seq := e.seq + 1000000 / 60
        outQueued := Function.update e.outQueued bi true
        agg := [] } := by
  unfold queueFrame at h
  dsimp only at h
  split at h <;> rename_i hfind
  · cases h
  split at h
  · cases h
  split at h
  · obtain rfl := Except.ok.inj h
    have hfree := List.find?_some hfind
    exact ⟨_, List.mem_range.mp (List.mem_of_find?_eq_some hfind), by simpa using hfree, rfl⟩
  · cases h

lemma returnHeld_same (e : Encoder) (ok : Bool) :
    ∃ h q l, e.returnHeld ok = { e with held := h, capQueued := q, lost := l } := by
  unfold returnHeld
  split
  · exact ⟨e.held, e.capQueued, e.lost, rfl⟩
  · cases ok <;> exact ⟨none, _, _, rfl⟩

end Encoder

end Sremfb
