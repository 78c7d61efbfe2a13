import Sremfb.Kvm.Encoder
import Sremfb.Lib.Trace

/-!
# Access units of the hardware encoder (`kvm/encoder_v4l2.c`)

What `sremfb_enc_encode` returns is the payload of the CAPTURE buffers of one frame, glued together
in order.  The loop decides buffer by buffer, from the timestamp and from what `scan_nals` and
`only_param_sets` see in the bytes; `EncLoop.Gathered` is what it keeps.

Each CAPTURE buffer is with the driver, or held for the caller, or lost to a `QBUF` that failed, and
only one of these (`Encoder.Owned`).
-/

namespace Sremfb

open Lib

/-! ## What the scans see -/

lemma scanNals_eq (p : List UInt8) :
    scanNals p = match (headers p).find? isSlice with
      | none => (false, false)
      | some h => (true, nalType h == 5) := by
  induction p using headers.induct with
  | case1 a b c d rest hcode ih =>
      rw [scanNals, headers, if_neg (by tauto), if_pos hcode, List.find?_cons]
      split <;> rename_i hd
      · rw [hd]
      · rw [(Bool.not_eq_true _).mp hd]
        exact ih
  | case2 a b c d rest hno ih =>
      rw [scanNals, headers, if_pos (by tauto), if_neg hno]
      exact ih
  | case3 p hshort =>
      obtain _ | ⟨a, _ | ⟨b, _ | ⟨c, _ | ⟨d, rest⟩⟩⟩⟩ := p
      · rfl
      · rfl
      · rfl
      · rfl
      · exact absurd rfl (hshort a b c d rest)

/-- A header of SEI, SPS, PPS or AUD. -/
def isParam (header : UInt8) : Bool :=
  decide (6 ≤ nalType header) && decide (nalType header ≤ 9)

lemma onlyParamSetsFrom_eq (seen : Bool) (p : List UInt8) :
    onlyParamSetsFrom seen p = ((headers p).all isParam && (seen || !(headers p).isEmpty)) := by
  induction p using headers.induct generalizing seen with
  | case1 a b c d rest hcode ih =>
      rw [onlyParamSetsFrom, headers, if_neg (by tauto), if_pos hcode, List.all_cons]
      split <;> rename_i hd
      · have hno : isParam d = false := by
          unfold isParam
          obtain hlow | hhigh := hd
          · rw [decide_eq_false (UInt8.not_le.mpr hlow), Bool.false_and]
          · rw [decide_eq_false (UInt8.not_le.mpr hhigh), Bool.and_false]
        rw [hno, Bool.false_and, Bool.false_and]
      · obtain ⟨hlow, hhigh⟩ := not_or.mp hd
        have hyes : isParam d = true := by
          unfold isParam
          rw [decide_eq_true (UInt8.not_lt.mp hlow), decide_eq_true (UInt8.not_lt.mp hhigh),
            Bool.true_and]
        rw [ih, hyes]
        simp
  | case2 a b c d rest hno ih =>
      rw [onlyParamSetsFrom, headers, if_pos (by tauto), if_neg hno]
      exact ih seen
  | case3 p hshort =>
      obtain _ | ⟨a, _ | ⟨b, _ | ⟨c, _ | ⟨d, rest⟩⟩⟩⟩ := p
      · cases seen <;> rfl
      · cases seen <;> rfl
      · cases seen <;> rfl
      · cases seen <;> rfl
      · exact absurd rfl (hshort a b c d rest)

/-- No header is both. -/
lemma not_isSlice_of_isParam {h : UInt8} (hp : isParam h = true) : isSlice h = false := by
  unfold isParam at hp
  unfold isSlice
  rw [Bool.and_eq_true, decide_eq_true_eq, decide_eq_true_eq] at hp
  have hhigh : ¬nalType h ≤ 5 := fun hle =>
    absurd (UInt8.le_trans hp.1 hle) (by decide)
  rw [decide_eq_false hhigh, Bool.and_false]

/-- Bytes that pass as parameter sets have no slice, whatever they are. -/
lemma scanNals_of_onlyParamSets {p : List UInt8} (h : onlyParamSets p = true) :
    scanNals p = (false, false) := by
  unfold onlyParamSets at h
  split at h
  · cases h
  rw [onlyParamSetsFrom_eq, Bool.and_eq_true, List.all_eq_true] at h
  have hnone : (headers p).find? isSlice = none := by
    rw [List.find?_eq_none]
    intro d hd
    rw [not_isSlice_of_isParam (h.1 d hd)]
    exact Bool.false_ne_true
  rw [scanNals_eq, hnone]

/-- **The scans read the stream.**  On NAL units with start codes of any length, `scan_nals` tells
whether there is a slice, and whether the first one is IDR; `only_param_sets` tells whether there are
units and all of them are parameter sets, SEI or delimiters. -/
theorem scan_stream (us : List (ℕ × Nal)) (trailing : ℕ) :
    let p := Nal.stream us ++ List.replicate trailing 0
    let hs := us.map fun u => u.2.header
    ((scanNals p).1 = true ↔ ∃ h ∈ hs, isSlice h = true) ∧
      ((scanNals p).2 = true ↔ ∃ h, hs.find? isSlice = some h ∧ nalType h = 5) ∧
      (onlyParamSets p = true ↔ hs ≠ [] ∧ ∀ h ∈ hs, isParam h = true) := by
  intro p hs
  have hheaders : headers p = hs := headers_stream us trailing
  refine ⟨?_, ?_, ?_⟩
  · rw [scanNals_eq, hheaders]
    cases hfind : hs.find? isSlice with
    | none => simpa using hfind
    | some h => simpa using ⟨h, List.mem_of_find?_eq_some hfind, List.find?_some hfind⟩
  · rw [scanNals_eq, hheaders]
    cases hfind : hs.find? isSlice with
    | none => simp
    | some h => simp
  · unfold onlyParamSets
    split <;> rename_i hshort
    · -- without a start code in front there is no unit
      have hnil : hs = [] := by
        cases us with
        | nil => rfl
        | cons u us =>
            exfalso
            have hp : p = Nal.bytes u.1 u.2 ++ (Nal.stream us ++ List.replicate trailing 0) :=
              List.append_assoc ..
            rw [hp, Nal.bytes, List.replicate_succ, List.replicate_succ] at hshort
            obtain hlen | hzero | hzero := hshort
            · simp at hlen
              omega
            · exact hzero rfl
            · exact hzero rfl
      simp [hnil]
    · rw [onlyParamSetsFrom_eq, hheaders, Bool.and_eq_true, List.all_eq_true, Bool.false_or]
      simp [and_comm]

/-! ## Who has the buffers -/

namespace Encoder

/-- Each CAPTURE buffer is queued, or lost, or the one that `o` names. -/
structure Owned (e : Encoder) (o : Option ℕ) : Prop where
  one : ∀ i < e.nCap,
    (e.capQueued i).toNat + (e.lost i).toNat + (if o = some i then 1 else 0) = 1
  held_lt : ∀ i ∈ o, i < e.nCap

variable {e : Encoder} {o : Option ℕ} {i : ℕ}

/-- A buffer is dequeued. -/
lemma Owned.dequeue (h : e.Owned none) (hi : i < e.nCap) (hq : e.capQueued i = true) :
    Owned { e with capQueued := Function.update e.capQueued i false } (some i) where
  one j hj := by
    have hone := h.one j hj
    dsimp only
    by_cases hji : j = i
    · subst hji
      rw [hq, if_neg (by simp), Bool.toNat_true] at hone
      rw [Function.update_self, Bool.toNat_false, if_pos rfl]
      omega
    · rw [if_neg (by simp)] at hone
      rw [Function.update_of_ne hji, if_neg (by simp [Ne.symm hji])]
      exact hone
  held_lt j hj := by
    obtain rfl := Option.some.inj hj
    exact hi

/-- `QBUF`, whether it works or not, takes the buffer out of our hands. -/
lemma Owned.qbufCap (h : e.Owned (some i)) (ok : Bool) : (e.qbufCap ok i).Owned none where
  one j hj := by
    have hlt : j < e.nCap := by cases ok <;> exact hj
    have hone := h.one j hlt
    by_cases hji : j = i
    · subst hji
      -- it was neither queued nor lost, and becomes one of the two
      rw [if_pos rfl] at hone
      obtain ⟨hq, hl⟩ : (e.capQueued j).toNat = 0 ∧ (e.lost j).toNat = 0 := by omega
      cases ok with
      | true =>
          simp only [Encoder.qbufCap, if_true, Function.update_self, hl]
          rfl
      | false =>
          simp only [Encoder.qbufCap, Bool.false_eq_true, if_false, Function.update_self, hq]
          rfl
    · rw [if_neg (by simp [Ne.symm hji])] at hone
      rw [if_neg (by simp)]
      cases ok with
      | true => simpa only [Encoder.qbufCap, if_true, Function.update_of_ne hji] using hone
      | false =>
          simpa only [Encoder.qbufCap, Bool.false_eq_true, if_false, Function.update_of_ne hji]
            using hone
  held_lt _ hj := by cases hj

/-- What changes neither the queue nor the losses keeps who has what. -/
lemma Owned.congr (h : e.Owned o) {e' : Encoder} (hcap : e'.nCap = e.nCap)
    (hq : e'.capQueued = e.capQueued) (hl : e'.lost = e.lost) : e'.Owned o where
  one j hj := by
    rw [hq, hl]
    exact h.one j (hcap ▸ hj)
  held_lt j hj := hcap ▸ h.held_lt j hj

end Encoder

/-! ## The loop -/

/-- What a round leads to: `P` where the loop goes on, `R` where it is left, `Q` at an error. -/
def EncTurn.Ends (P R : EncLoop → Prop) (Q : Encoder → Prop) : EncTurn → Prop
  | .more l => P l
  | .over l => R l
  | .err e => Q e

namespace EncLoop

variable {P R : EncLoop → Prop} {Q : Encoder → Prop} {l : EncLoop} {b : EncDq}

/-- What the loop leads to, if it ends. -/
def Outcome (R : EncLoop → Prop) (Q : Encoder → Prop) : Option (Except Encoder EncLoop) → Prop
  | none => True
  | some (.ok l) => R l
  | some (.error e) => Q e

/-- **The rule of the loop.** -/
lemma loop_outcome (ok : EncRound → Prop)
    (hturn : ∀ l r, ok r → P l → l.done = false → (l.turn r).Ends P R Q)
    (hdone : ∀ l, P l → l.done = true → R l) {rs : List EncRound} (hrs : ∀ r ∈ rs, ok r) (hl : P l) :
    Outcome R Q (loop rs l) := by
  induction rs generalizing l with
  | nil =>
      rw [loop]
      split <;> rename_i hd
      · exact hdone l hl hd
      · trivial
  | cons r rs ih =>
      rw [loop]
      split <;> rename_i hd
      · exact hdone l hl hd
      obtain ⟨hr, hrs⟩ := List.forall_mem_cons.mp hrs
      have hends := hturn l r hr hl (by simpa using hd)
      split <;> rename_i hr
      · rw [hr] at hends
        exact ih hrs hends
      · rw [hr] at hends
        exact hends
      · rw [hr] at hends
        exact hends

/-- What one round can do. -/
lemma turn_ends (r : EncRound) (hstay : P l) (hover : l.gotVcl = true → R l) (herr : Q l.enc)
    (htake : ∀ b, r.poll = .buffer b → b.index < l.enc.nCap → l.enc.capQueued b.index = true →
      let e := { l.enc with capQueued := Function.update l.enc.capQueued b.index false }
      let l' := { l with enc := e, seen := l.seen ++ [b] }
      Q (e.qbufCap b.requeues b.index) ∧ (l'.Foreign b → (l'.giveBack b).Ends P R Q) ∧
        (¬l'.Foreign b → (l'.keep r.nowFull b).Ends P R Q)) : (l.turn r).Ends P R Q := by
  unfold turn
  split
  · split <;> rename_i hvcl
    · exact hover hvcl
    · exact herr
  split
  · exact hstay
  · exact herr
  rename_i b hpoll
  unfold take
  split <;> rename_i hidx
  · exact herr
  split <;> rename_i hq
  · exact hstay
  obtain ⟨hbad, hforeign, hkeep⟩ := htake b hpoll (not_le.mp hidx) (by simpa using hq)
  dsimp only
  split
  · exact hbad
  split <;> rename_i hmine
  · exact hforeign hmine
  · exact hkeep hmine

/-! ### Who has the buffers meanwhile -/

/-- In the loop, only the buffer of a finished access unit is ours. -/
structure Mine (l : EncLoop) : Prop where
  owned : l.enc.Owned (l.last.map Prod.fst)
  held : l.enc.held = none
  last : l.last ≠ none → l.done = true

/-- After an error nothing is ours. -/
def Nobody (e : Encoder) : Prop := e.held = none ∧ e.Owned none

lemma mine_giveBack (howned : l.enc.Owned (some b.index)) (hheld : l.enc.held = none)
    (hlast : l.last = none) : (l.giveBack b).Ends Mine Mine Nobody := by
  have hback := howned.qbufCap b.requeues
  have hnone : (l.enc.qbufCap b.requeues b.index).held = none := by
    cases b.requeues <;> exact hheld
  unfold giveBack
  dsimp only
  split
  · refine ⟨?_, hnone, fun hne => absurd hlast hne⟩
    rw [hlast]
    exact hback
  · exact ⟨hnone, hback⟩

lemma Mine.turn (h : l.Mine) (hdone : l.done = false) (r : EncRound) :
    (l.turn r).Ends Mine Mine Nobody := by
  obtain ⟨howned, hheld, hlast⟩ := h
  have hnone : l.last = none := by
    by_contra hne
    rw [hlast hne] at hdone
    cases hdone
  have howned' : l.enc.Owned none := by
    rw [hnone] at howned
    exact howned
  refine turn_ends r ⟨howned, hheld, hlast⟩ (fun _ => ⟨howned, hheld, hlast⟩) ⟨hheld, howned'⟩
    fun b _ hi hq => ?_
  have hours := howned'.dequeue hi hq
  refine ⟨⟨by cases b.requeues <;> exact hheld, hours.qbufCap b.requeues⟩,
    fun _ => mine_giveBack hours hheld hnone, fun _ => ?_⟩
  unfold keep
  dsimp only
  split <;> rename_i hone
  · exact ⟨hours, hheld, fun _ => hone.1⟩
  · exact mine_giveBack (hours.congr rfl rfl rfl) hheld hnone

/-! ### What is gathered meanwhile -/

/-- The buffer holds a slice. -/
def slice (b : EncDq) : Bool := (scanNals b.payload).1

/-- **What the loop has gathered**, for the frame stamped `s`. -/
structure Gathered (s : ℕ) (l : EncLoop) : Prop where
  seq : l.enc.seq = s
  sub : l.kept.Sublist l.seen
  agg : l.last = none → l.enc.agg = l.kept.flatMap EncDq.payload
  single : ∀ q ∈ l.last, ∃ b, l.kept = [b] ∧ q = (b.index, b.payload)
  pieces : l.pieces = l.kept.length
  vcl : l.gotVcl = l.kept.any slice
  idr : l.gotIdr = l.kept.any fun b => b.keyframe || (scanNals b.payload).2
  /-- Every part is of this frame, or is parameter sets in front of the slices. -/
  mine : Always (fun past b => b.payload ≠ [] ∧
    (b.ts = s ∨ past.any slice = false ∧ onlyParamSets b.payload = true)) l.kept
  /-- Nothing of this frame is left out. -/
  all : ∀ b ∈ l.seen, b.ts = s → b.payload ≠ [] → b ∈ l.kept
  last : l.last ≠ none → l.done = true
  done : l.done = true → l.gotVcl = true

variable {s : ℕ}

/-- What the driver does with the buffers changes nothing of it. -/
lemma gathered_giveBack (h : l.Gathered s) : (l.giveBack b).Ends (Gathered s)
    (fun l => l.Gathered s ∧ l.gotVcl = true) (fun _ => True) := by
  unfold giveBack
  dsimp only
  split <;> rename_i hok
  · refine ⟨?_, h.sub, fun hnone => ?_, h.single, h.pieces, h.vcl, h.idr, h.mine, h.all, h.last,
      h.done⟩
    · rw [hok]
      exact h.seq
    · rw [hok]
      exact h.agg hnone
  · trivial

lemma Gathered.turn (h : l.Gathered s) (hdone : l.done = false) (r : EncRound) :
    (l.turn r).Ends (Gathered s) (fun l => l.Gathered s ∧ l.gotVcl = true) (fun _ => True) := by
  have hnone : l.last = none := by
    by_contra hne
    rw [h.last hne] at hdone
    cases hdone
  refine turn_ends r h (fun hvcl => ⟨h, hvcl⟩) trivial fun b _ _ _ => ⟨trivial, fun hf => ?_,
    fun hf => ?_⟩
  · -- dropped: nothing of this frame is
    refine gathered_giveBack ⟨h.seq, h.sub.trans (List.sublist_append_left ..), h.agg, h.single,
      h.pieces, h.vcl, h.idr, h.mine, fun x hx hts hne => ?_, h.last, h.done⟩
    obtain hx | hx := List.mem_append.mp hx
    · exact h.all x hx hts hne
    · obtain rfl := List.mem_singleton.mp hx
      obtain hempty | ⟨hts', -⟩ := hf
      · exact absurd hempty hne
      · exact absurd (hts.trans h.seq.symm) hts'
  · obtain ⟨hne, hmine⟩ := not_or.mp hf
    have hpart : b.payload ≠ [] ∧
        (b.ts = s ∨ l.kept.any slice = false ∧ onlyParamSets b.payload = true) := by
      refine ⟨hne, ?_⟩
      by_cases hts : b.ts = s
      · exact .inl hts
      · have hts' : b.ts ≠ l.enc.seq := fun heq => hts (heq.trans h.seq)
        obtain ⟨hvcl, hparam⟩ := not_or.mp fun h' => hmine ⟨hts', h'⟩
        rw [← h.vcl]
        exact .inr ⟨(Bool.not_eq_true _).mp hvcl, (Bool.not_eq_false _).mp hparam⟩
    have hall : ∀ x ∈ l.seen ++ [b], x.ts = s → x.payload ≠ [] → x ∈ l.kept ++ [b] := by
      intro x hx hts hne
      obtain hx | hx := List.mem_append.mp hx
      · exact List.mem_append_left _ (h.all x hx hts hne)
      · exact List.mem_append_right _ hx
    have hvcl : (l.gotVcl || (scanNals b.payload).1) = (l.kept ++ [b]).any slice := by
      rw [List.any_append, List.any_cons, List.any_nil, Bool.or_false, ← h.vcl, slice]
    have hidr : (l.gotIdr || b.keyframe || (scanNals b.payload).2) =
        (l.kept ++ [b]).any fun b => b.keyframe || (scanNals b.payload).2 := by
      rw [List.any_append, List.any_cons, List.any_nil, Bool.or_false, ← h.idr, Bool.or_assoc]
    have hlen : l.pieces + 1 = (l.kept ++ [b]).length := by
      rw [List.length_append, h.pieces, List.length_singleton]
    have hdone' (len : ℕ) : ((l.gotVcl || (scanNals b.payload).1) &&
        decide (b.payload.length < len)) = true → (l.gotVcl || (scanNals b.payload).1) = true :=
      fun hd => (Bool.and_eq_true_iff.mp hd).1
    unfold keep
    dsimp only
    split <;> rename_i hone
    · have hfirst : l.kept = [] := List.length_eq_zero_iff.mp (h.pieces.symm.trans hone.2)
      refine ⟨h.seq, h.sub.append (List.Sublist.refl [b]), fun hno => ?_, fun q hq => ?_, hlen, hvcl,
        hidr, always_snoc.mpr ⟨h.mine, hpart⟩, hall, fun _ => hone.1, hdone' _⟩
      · cases hno
      · obtain rfl := Option.some.inj hq
        exact ⟨b, by rw [hfirst]; rfl, rfl⟩
    · refine gathered_giveBack ⟨h.seq, h.sub.append (List.Sublist.refl [b]), fun _ => ?_,
        fun q hq => ?_, hlen, hvcl, hidr, always_snoc.mpr ⟨h.mine, hpart⟩, hall,
        fun hno => absurd hnone hno, hdone' _⟩
      · rw [List.flatMap_append, ← h.agg hnone]
        simp
      · rw [hnone] at hq
        cases hq

/-- In time: past the deadline the loop is left. -/
lemma loop_returns {D : ℤ} (rs : List EncRound) (hl : l.deadline ≤ D)
    (hlate : ∃ r ∈ rs, D ≤ r.now) : (loop rs l).isSome = true := by
  induction rs generalizing l with
  | nil =>
      obtain ⟨r, hr, -⟩ := hlate
      cases hr
  | cons r rs ih =>
      rw [loop]
      split
      · rfl
      have hends : (l.turn r).Ends (fun l' => l'.deadline ≤ D ∧ ¬D ≤ r.now) (fun _ => True)
          (fun _ => True) := by
        by_cases hnow : D ≤ r.now
        · unfold turn
          rw [if_pos]
          · split <;> trivial
          · have hflip : l.deadline - r.now = -(r.now - l.deadline) := by omega
            rw [hflip, Int.neg_tdiv]
            have hpos : 0 ≤ (r.now - l.deadline).tdiv 1000 :=
              Int.tdiv_nonneg (by omega) (by decide)
            omega
        · have hback (l' : EncLoop) (b : EncDq) (hl' : l'.deadline ≤ D) :
              (l'.giveBack b).Ends (fun l' => l'.deadline ≤ D ∧ ¬D ≤ r.now) (fun _ => True)
                (fun _ => True) := by
            unfold giveBack
            dsimp only
            split
            · exact ⟨hl', hnow⟩
            · trivial
          refine turn_ends r ⟨hl, hnow⟩ (fun _ => trivial) trivial fun b _ _ _ =>
            ⟨trivial, fun _ => hback _ b hl, fun _ => ?_⟩
          have hmin (c : Prop) [Decidable c] (t : ℤ) :
              (if c then min l.deadline t else l.deadline) ≤ D := by
            split
            · exact (min_le_left ..).trans hl
            · exact hl
          unfold keep
          dsimp only
          split
          · exact ⟨hmin _ _, hnow⟩
          · exact hback _ b (hmin _ _)
      split <;> rename_i hr
      · rw [hr] at hends
        refine ih hends.1 ?_
        obtain ⟨r', hr', hlate'⟩ := hlate
        obtain rfl | hr' := List.mem_cons.mp hr'
        · exact absurd hlate' hends.2
        · exact ⟨r', hr', hlate'⟩
      · rfl
      · rfl

end EncLoop

/-! ## A call -/

namespace Encoder

open EncLoop

variable {e : Encoder}

lemma Owned.nobody (h : e.Owned e.held) (ok : Bool) (i : ℕ) (hi : e.held = some i) :
    Nobody ({ e with held := none }.qbufCap ok i) := by
  have hfree : Owned { e with held := none } (some i) := by
    rw [hi] at h
    exact h.congr rfl rfl rfl
  exact ⟨by cases ok <;> rfl, hfree.qbufCap ok⟩

lemma nobody_reclaimOut (h : Nobody e) (is : List ℕ) : Nobody (e.reclaimOut is) := by
  obtain ⟨q, hq⟩ := reclaimOut_same is e
  rw [hq]
  exact ⟨h.1, h.2.congr rfl rfl rfl⟩

/-- Before the loop the held buffer has gone back. -/
lemma prepare_nobody (h : e.Owned e.held) {f : EncFrame} {forceIdr : Bool} {o : EncWorld}
    {e' : Encoder} (hprep : e.prepare f forceIdr o = .ok e' ∨ e.prepare f forceIdr o = .error e') :
    Nobody e' := by
  have hback : Nobody (e.returnHeld o.requeues) := by
    unfold returnHeld
    split <;> rename_i hheld
    · rw [hheld] at h
      exact ⟨hheld, h⟩
    · exact h.nobody o.requeues _ hheld
  unfold prepare at hprep
  split at hprep
  · obtain hprep | hprep := hprep
    · cases hprep
    · exact Except.error.inj hprep ▸ hback
  obtain ⟨hheld, howned⟩ := nobody_reclaimOut hback o.reclaimed
  obtain ⟨m, q, s, a, rfl⟩ := queueFrame_same f forceIdr o _ e' hprep
  exact ⟨hheld, howned.congr rfl rfl rfl⟩

/-- Each frame that is queued has a stamp of its own. -/
lemma prepare_ok {f : EncFrame} {forceIdr : Bool} {o : EncWorld} {e' : Encoder}
    (h : e.prepare f forceIdr o = .ok e') : e'.agg = [] ∧ e'.seq = e.seq + 1000000 / 60 := by
  have hseq : (e.returnHeld o.requeues).seq = e.seq := by
    unfold returnHeld
    split
    · rfl
    · cases o.requeues <;> rfl
  unfold prepare at h
  split at h
  · cases h
  obtain ⟨q, hq⟩ := reclaimOut_same o.reclaimed (e.returnHeld o.requeues)
  rw [hq] at h
  obtain ⟨bi, -, -, rfl⟩ := queueFrame_ok h
  exact ⟨rfl, congrArg (· + 1000000 / 60) hseq⟩

end Encoder

/-- **An access unit of the frame stamped `s`.** -/
structure EncAu.Of (s : ℕ) (au : EncAu) : Prop where
  /-- It is what the kept buffers hold, in the order in which they came. -/
  bytes : au.bytes = au.kept.flatMap EncDq.payload
  sub : au.kept.Sublist au.seen
  /-- Every part is of this frame, or is parameter sets in front of the slices. -/
  mine : Always (fun past b => b.payload ≠ [] ∧
    (b.ts = s ∨ past.any EncLoop.slice = false ∧ onlyParamSets b.payload = true)) au.kept
  /-- Nothing of this frame is left out. -/
  all : ∀ b ∈ au.seen, b.ts = s → b.payload ≠ [] → b ∈ au.kept
  /-- There is a slice, and all of them are of this frame. -/
  slices : (∃ b ∈ au.kept, EncLoop.slice b = true) ∧
    ∀ b ∈ au.kept, EncLoop.slice b = true → b.ts = s
  idr : au.isIdr = au.kept.any fun b => b.keyframe || (scanNals b.payload).2

namespace Encoder

open EncLoop

variable {e : Encoder}

lemma gathered_start {s : ℕ} (deadline : ℤ) (hseq : e.seq = s) (hagg : e.agg = []) :
    Gathered s { enc := e, deadline := deadline } where
  seq := hseq
  sub := List.Sublist.refl []
  agg _ := hagg
  single _ hq := by cases hq
  pieces := rfl
  vcl := rfl
  idr := rfl
  mine := always_nil _
  all _ hb := by cases hb
  last h := absurd rfl h
  done h := by cases h

/-- What the loop leaves is an access unit. -/
lemma au_of_gathered {s : ℕ} {l : EncLoop} (h : l.Gathered s) (hvcl : l.gotVcl = true) :
    EncAu.Of s ⟨l.bytes, l.gotIdr, l.seen, l.kept⟩ := by
  refine ⟨?_, h.sub, h.mine, h.all, ⟨?_, fun b hb hslice => ?_⟩, h.idr⟩
  · unfold EncLoop.bytes
    cases hlast : l.last with
    | none => exact h.agg hlast
    | some q =>
        obtain ⟨b, hkept, rfl⟩ := h.single q hlast
        rw [hkept]
        exact (List.append_nil _).symm
  · rw [h.vcl, List.any_eq_true] at hvcl
    exact hvcl
  · obtain ⟨past, future, hkept⟩ := List.append_of_mem hb
    obtain ⟨-, hts | ⟨-, hparam⟩⟩ := h.mine past b future hkept
    · exact hts
    · rw [slice, scanNals_of_onlyParamSets hparam] at hslice
      cases hslice

/-- How a call ends: before the loop, in it, or with a frame. -/
lemma encode_cases {f : EncFrame} {forceIdr : Bool} {o : EncWorld} {e' : Encoder}
    {r : Option EncAu} (henc : e.encode f forceIdr o = some (e', r)) :
    (e.prepare f forceIdr o = .error e' ∧ r = none) ∨ ∃ e₁, e.prepare f forceIdr o = .ok e₁ ∧
      let res := loop o.rounds { enc := e₁, deadline := o.start + e.timeoutMs * 1000 }
      (∃ e₂, res = some (.error e₂) ∧ e' = e₂.reclaimOut o.reclaimedAfter ∧ r = none) ∨
        ∃ l, res = some (.ok l) ∧
          e' = { l.enc.reclaimOut o.reclaimedAfter with
            frames := e.frames + 1
            held := l.last.map Prod.fst } ∧
          (r = none ∨ r = some ⟨l.bytes, l.gotIdr, l.seen, l.kept⟩ ∧
            (forceIdr = true → l.gotIdr = true)) := by
  unfold encode at henc
  split at henc <;> rename_i e₁ hprep
  · obtain ⟨rfl, rfl⟩ := Prod.mk.inj (Option.some.inj henc)
    exact .inl ⟨hprep, rfl⟩
  refine .inr ⟨e₁, hprep, ?_⟩
  split at henc
  · cases henc
  · rename_i e₂ hloop
    obtain ⟨rfl, rfl⟩ := Prod.mk.inj (Option.some.inj henc)
    exact .inl ⟨e₂, hloop, rfl, rfl⟩
  · rename_i l hloop
    refine .inr ⟨l, hloop, ?_⟩
    dsimp only at henc
    split at henc <;> rename_i hforce <;> obtain ⟨rfl, rfl⟩ := Prod.mk.inj (Option.some.inj henc)
    · exact ⟨rfl, .inl rfl⟩
    · exact ⟨rfl, .inr ⟨rfl, fun hf => by simpa [hf] using hforce⟩⟩

/-- What the loop has gathered when it is left. -/
lemma loop_gathered {f : EncFrame} {forceIdr : Bool} {o : EncWorld} {e₁ : Encoder} {l : EncLoop}
    {deadline : ℤ} (hprep : e.prepare f forceIdr o = .ok e₁)
    (hloop : loop o.rounds { enc := e₁, deadline := deadline } = some (.ok l)) :
    l.Gathered e₁.seq ∧ l.gotVcl = true := by
  have hout := loop_outcome (fun _ => True)
    (R := fun l => l.Gathered e₁.seq ∧ l.gotVcl = true) (Q := fun _ => True)
    (fun l r _ hl hd => Gathered.turn hl hd r) (fun l hl hd => ⟨hl, hl.done hd⟩)
    (fun r (_ : r ∈ o.rounds) => trivial) (gathered_start deadline rfl (prepare_ok hprep).1)
  rw [hloop] at hout
  exact hout

/-- **One access unit, of this frame and whole.**  Whatever the driver does, a call returns once the
clock has passed its deadline; and the bytes it returns are those of the buffers stamped with this
frame, which no earlier frame has been, with a slice among them, and IDR if that was asked for. -/
theorem encode_spec (e : Encoder) (f : EncFrame) (forceIdr : Bool) (o : EncWorld) :
    ((∃ r ∈ o.rounds, o.start + e.timeoutMs * 1000 ≤ r.now) →
        (e.encode f forceIdr o).isSome = true) ∧
      ∀ e' au, e.encode f forceIdr o = some (e', some au) →
        au.Of e'.seq ∧ e.seq < e'.seq ∧ (forceIdr = true → au.isIdr = true) := by
  constructor
  · intro hlate
    unfold encode
    split
    · rfl
    rename_i e' hprep
    have hsome := loop_returns (l := { enc := e', deadline := o.start + e.timeoutMs * 1000 })
      o.rounds (le_refl _) hlate
    split <;> rename_i hloop
    · rw [hloop] at hsome
      cases hsome
    · rfl
    · dsimp only
      split <;> rfl
  · intro e' au henc
    obtain ⟨-, hnone⟩ | ⟨e₁, hprep, ⟨-, -, -, hnone⟩ | ⟨l, hloop, he, hnone | ⟨hau, hidr⟩⟩⟩ :=
      encode_cases henc
    · cases hnone
    · cases hnone
    · cases hnone
    obtain ⟨hgathered, hvcl⟩ := loop_gathered hprep hloop
    obtain rfl := Option.some.inj hau
    have hseq : e'.seq = e₁.seq := by
      obtain ⟨q, hq⟩ := reclaimOut_same o.reclaimedAfter l.enc
      rw [he, hq]
      exact hgathered.seq
    rw [hseq]
    have hstamp := (prepare_ok hprep).2
    exact ⟨au_of_gathered hgathered hvcl, by omega, hidr⟩

/-! ## Runs -/

variable {e' : Encoder} {r : Option EncAu} {f : EncFrame} {forceIdr : Bool} {o : EncWorld}

/-- A call keeps count of the CAPTURE buffers, however it ends. -/
lemma encode_owned (h : e.Owned e.held) (henc : e.encode f forceIdr o = some (e', r)) :
    e'.Owned e'.held := by
  have hnobody {e : Encoder} (hn : Nobody e) : e.Owned e.held := by
    rw [hn.1]
    exact hn.2
  obtain ⟨hprep, -⟩ | ⟨e₁, hprep, hres⟩ := encode_cases henc
  · exact hnobody (prepare_nobody h (.inr hprep))
  obtain ⟨hheld, howned⟩ := prepare_nobody h (.inl hprep)
  have hstart : Mine { enc := e₁, deadline := o.start + e.timeoutMs * 1000 } :=
    ⟨howned, hheld, fun hne => absurd rfl hne⟩
  have hout := loop_outcome (fun _ => True) (R := Mine) (Q := Nobody)
    (fun l r _ hl hd => Mine.turn hl hd r) (fun _ hl _ => hl)
    (fun r (_ : r ∈ o.rounds) => trivial) hstart
  obtain ⟨e₂, hloop, rfl, -⟩ | ⟨l, hloop, rfl, -⟩ := hres
  · rw [hloop] at hout
    exact hnobody (nobody_reclaimOut hout o.reclaimedAfter)
  · rw [hloop] at hout
    obtain ⟨q, hq⟩ := reclaimOut_same o.reclaimedAfter l.enc
    have hlast := hout.owned
    rw [hq]
    exact hlast.congr rfl rfl rfl

/-- A held buffer is the whole of the access unit. -/
lemma encode_held {au : EncAu} (henc : e.encode f forceIdr o = some (e', some au)) :
    ∀ i ∈ e'.held, ∃ b, au.kept = [b] ∧ b.index = i := by
  obtain ⟨-, hnone⟩ | ⟨e₁, hprep, ⟨-, -, -, hnone⟩ | ⟨l, hloop, he, hnone | ⟨hau, -⟩⟩⟩ :=
    encode_cases henc
  · cases hnone
  · cases hnone
  · cases hnone
  obtain rfl := Option.some.inj hau
  subst he
  intro i hi
  obtain ⟨q, hq, rfl⟩ := Option.map_eq_some_iff.mp hi
  obtain ⟨b, hkept, rfl⟩ := (loop_gathered hprep hloop).1.single q hq
  exact ⟨b, hkept, rfl⟩

/-- Something that the ways of a frame and of a buffer do not touch, a call does not. -/
lemma encode_keeps {α : Type*} {get : Encoder → α} (ok : EncDq → Prop)
    (hout : ∀ e m q s a, get { e with outMem := m, outQueued := q, seq := s, agg := a } = get e)
    (hhand : ∀ e n h, get { e with frames := n, held := h } = get e)
    (hcap : ∀ e q, get { e with capQueued := q } = get e)
    (hback : ∀ e, get (e.returnHeld o.requeues) = get e)
    (hqbuf : ∀ e b, ok b → get (e.qbufCap b.requeues b.index) = get e)
    (hok : ∀ r ∈ o.rounds, ∀ b, r.poll = .buffer b → ok b)
    (henc : e.encode f forceIdr o = some (e', r)) : get e' = get e := by
  have hreclaim (is : List ℕ) (e : Encoder) : get (e.reclaimOut is) = get e := by
    obtain ⟨q, hq⟩ := reclaimOut_same is e
    rw [hq]
    exact hout e e.outMem q e.seq e.agg
  have hprepare {e₁ : Encoder} (h : e.prepare f forceIdr o = .ok e₁ ∨
      e.prepare f forceIdr o = .error e₁) : get e₁ = get e := by
    unfold prepare at h
    split at h
    · obtain h | h := h
      · cases h
      · rw [← Except.error.inj h]
        exact hback e
    · obtain ⟨m, q, s, a, rfl⟩ := queueFrame_same f forceIdr o _ e₁ h
      rw [hout, hreclaim, hback]
  obtain ⟨hprep, -⟩ | ⟨e₁, hprep, hres⟩ := encode_cases henc
  · exact hprepare (.inr hprep)
  have hloop := loop_outcome (fun r => ∀ b, r.poll = .buffer b → ok b)
    (P := fun l => get l.enc = get e) (R := fun l => get l.enc = get e)
    (Q := fun e₂ => get e₂ = get e) (fun l r hr hl _ => ?_) (fun _ hl _ => hl) hok
    (l := { enc := e₁, deadline := o.start + e.timeoutMs * 1000 }) (hprepare (.inl hprep))
  · obtain ⟨e₂, hres, rfl, -⟩ | ⟨l, hres, rfl, -⟩ := hres
    · rw [hres] at hloop
      exact (hreclaim _ _).trans hloop
    · rw [hres] at hloop
      exact (hhand _ _ _).trans ((hreclaim _ _).trans hloop)
  · have hgive (l : EncLoop) (b : EncDq) (hb : ok b) (hl : get l.enc = get e) :
        (l.giveBack b).Ends (fun l => get l.enc = get e) (fun l => get l.enc = get e)
          (fun e₂ => get e₂ = get e) := by
      unfold giveBack
      dsimp only
      split <;> exact (hqbuf _ b hb).trans hl
    refine turn_ends r hl (fun _ => hl) hl fun b hpoll _ _ => ?_
    have hb := hr b hpoll
    have hdeq := (hcap l.enc (Function.update l.enc.capQueued b.index false)).trans hl
    refine ⟨(hqbuf _ b hb).trans hdeq, fun _ => hgive _ b hb hdeq, fun _ => ?_⟩
    unfold keep
    dsimp only
    split
    · exact hdeq
    · exact hgive _ b hb ((hout _ _ _ _ _).trans hdeq)

end Encoder

/-- What can happen to an encoder. -/
inductive EncEvent
  | encode (f : EncFrame) (forceIdr : Bool) (o : EncWorld)
  | setBitrate (kbps : ℤ) (taken : Bool)

/-- No `QBUF` of CAPTURE fails. -/
def EncEvent.Smooth : EncEvent → Prop
  | .encode _ _ o =>
      o.requeues = true ∧ ∀ r ∈ o.rounds, ∀ b, r.poll = .buffer b → b.requeues = true
  | .setBitrate _ _ => True

namespace Encoder

/-- One event; a call that does not return leaves nothing to see. -/
def step (e : Encoder) : EncEvent → Encoder
  | .encode f forceIdr o => ((e.encode f forceIdr o).map Prod.fst).getD e
  | .setBitrate kbps taken => e.setBitrate kbps taken

variable {e e' : Encoder}

lemma setBitrate_same (kbps : ℤ) (taken : Bool) (e : Encoder) :
    e.setBitrate kbps taken = e ∨
      e.setBitrate kbps taken = { e with kbps := clampKbps kbps } := by
  unfold setBitrate
  dsimp only
  split
  · exact .inl rfl
  split
  · exact .inr rfl
  · exact .inl rfl

/-- What a call brings about, an event does. -/
lemma step_of_encode {P : Encoder → Prop} {ev : EncEvent}
    (hcall : ∀ f forceIdr o e' r, ev = .encode f forceIdr o →
      e.encode f forceIdr o = some (e', r) → P e')
    (hrate : ∀ k, P { e with kbps := clampKbps k }) (he : P e) : P (e.step ev) := by
  cases ev with
  | encode f forceIdr o =>
      rw [step]
      cases henc : e.encode f forceIdr o with
      | none => exact he
      | some q => exact hcall f forceIdr o q.1 q.2 rfl henc
  | setBitrate kbps taken =>
      rw [step]
      obtain hsame | hset := e.setBitrate_same kbps taken
      · rw [hsame]
        exact he
      · rw [hset]
        exact hrate kbps

lemma clampKbps_mem (kbps : ℤ) : 25 ≤ clampKbps kbps ∧ clampKbps kbps ≤ 25000 := by
  unfold clampKbps
  split_ifs <;> omega

/-- What `sremfb_enc_open` leaves. -/
lemma encOpen_spec {width height kbps : ℤ} {d : EncSetup} (h : encOpen width height kbps d = some e) :
    e.Owned e.held ∧ (25 ≤ e.kbps ∧ e.kbps ≤ 25000) ∧ e.lost = fun _ => false := by
  unfold encOpen at h
  -- every refusal of the driver or of a check ends the function
  obtain ⟨hsize, h⟩ := Option.dite_none_left_eq_some.mp h
  obtain ⟨-, h⟩ := Option.ite_none_left_eq_some.mp h
  obtain ⟨-, h⟩ := Option.ite_none_left_eq_some.mp h
  obtain ⟨hgeo, h⟩ := Option.dite_none_right_eq_some.mp h
  obtain ⟨-, h⟩ := Option.ite_none_left_eq_some.mp h
  obtain ⟨-, h⟩ := Option.ite_none_left_eq_some.mp h
  obtain ⟨-, h⟩ := Option.ite_none_left_eq_some.mp h
  obtain ⟨-, h⟩ := Option.ite_none_left_eq_some.mp h
  obtain ⟨-, h⟩ := Option.ite_none_left_eq_some.mp h
  obtain rfl := Option.some.inj h
  refine ⟨⟨fun i hi => ?_, fun i hi => by cases hi⟩, clampKbps_mem kbps, rfl⟩
  dsimp only at hi ⊢
  rw [decide_eq_true hi]
  rfl

/-- **No CAPTURE buffer is lost.**  In every run of calls and changes of the bitrate, whatever the
driver answers: a CAPTURE buffer is with the driver, or held for the caller, or was refused by a
`QBUF`, and only one of these; nothing is lost as long as no `QBUF` fails; and what a call hands out
of a buffer stays out of the driver's hands until the next one. -/
theorem capture_buffers_kept {width height kbps : ℤ} {d : EncSetup} {e₀ : Encoder}
    (hopen : encOpen width height kbps d = some e₀) (evs : List EncEvent) :
    let e := run step e₀ evs
    (∀ i < e.nCap, (e.capQueued i).toNat + (e.lost i).toNat +
        (if e.held = some i then 1 else 0) = 1) ∧
      (25 ≤ e.kbps ∧ e.kbps ≤ 25000) ∧
      ((∀ ev ∈ evs, ev.Smooth) → ∀ i < e.nCap, e.capQueued i = true ∨ e.held = some i) ∧
      ∀ f forceIdr o e' au, e.encode f forceIdr o = some (e', some au) → ∀ i ∈ e'.held,
        e'.capQueued i = false ∧ ∃ b : EncDq, b.index = i ∧ au.bytes = b.payload := by
  intro e
  obtain ⟨howned₀, hrate₀, hlost₀⟩ := encOpen_spec hopen
  have howned : e.Owned e.held := run_keeps (P := fun e : Encoder => e.Owned e.held) (fun e ev h =>
    step_of_encode (P := fun e : Encoder => e.Owned e.held)
      (fun f forceIdr o e' r _ henc => encode_owned h henc) (fun _ => h.congr rfl rfl rfl) h)
      howned₀ evs
  have hrate : 25 ≤ e.kbps ∧ e.kbps ≤ 25000 := by
    refine run_keeps (P := fun e : Encoder => 25 ≤ e.kbps ∧ e.kbps ≤ 25000) (fun e ev h => ?_)
      hrate₀ evs
    refine step_of_encode (P := fun e : Encoder => 25 ≤ e.kbps ∧ e.kbps ≤ 25000)
      (fun f forceIdr o e' r _ henc => ?_) (fun k => clampKbps_mem k) h
    have hsame : e'.kbps = e.kbps := encode_keeps (fun _ => True) (fun _ _ _ _ _ => rfl)
      (fun _ _ _ => rfl) (fun _ _ => rfl) (fun e => by
        obtain ⟨_, _, _, hback⟩ := returnHeld_same e o.requeues
        rw [hback]) (fun _ b _ => by cases b.requeues <;> rfl) (fun _ _ _ _ => trivial) henc
    rwa [hsame]
  refine ⟨howned.one, hrate, fun hsmooth i hi => ?_, fun f forceIdr o e' au henc i hi => ?_⟩
  · have hlost : e.lost = fun _ => false := by
      have hsmooth' : Along (fun _ (ev : EncEvent) => ev.Smooth) step e₀ evs :=
        along_of_forall hsmooth
      refine run_invariant (P := fun e : Encoder => e.lost = fun _ => false)
        (fun e ev hev h => ?_) hlost₀ hsmooth'
      refine step_of_encode (P := fun e : Encoder => e.lost = fun _ => false)
        (fun f forceIdr o e' r hev' henc => ?_) (fun _ => h) h
      rw [hev'] at hev
      obtain ⟨hrequeues, hrounds⟩ := hev
      have hsame : e'.lost = e.lost := encode_keeps (fun b => b.requeues = true)
        (fun _ _ _ _ _ => rfl) (fun _ _ _ => rfl) (fun _ _ => rfl) (fun e => by
          rw [hrequeues]
          unfold returnHeld
          split <;> rfl) (fun _ b hb => by rw [hb]; rfl) hrounds henc
      rw [hsame]
      exact h
    have hone := howned.one i hi
    rw [hlost] at hone
    cases hq : e.capQueued i with
    | true => exact .inl rfl
    | false =>
        right
        by_contra hheld
        rw [hq, if_neg hheld] at hone
        cases hone
  · have howned' := encode_owned howned henc
    have hone := howned'.one i (howned'.held_lt i hi)
    rw [if_pos (Option.mem_def.mp hi)] at hone
    obtain ⟨b, hkept, hidx⟩ := encode_held henc i hi
    have hbytes := ((encode_spec e f forceIdr o).2 e' au henc).1.bytes
    refine ⟨?_, b, hidx, ?_⟩
    · cases hq : e'.capQueued i with
      | false => rfl
      | true =>
          rw [hq] at hone
          simp at hone
    · rw [hbytes, hkept]
      exact List.append_nil _

/-- A driver of two CAPTURE buffers of eight bytes, and one IDR frame: the access unit is in the
second buffer, behind one of an old frame. -/
theorem capture_buffers_kept_idr :
    let d : EncSetup := { capW := 2, capH := 2, outW := 2, bpl := 64, planeH := 16, outSize := 1536
                          nCap := 2, nOut := 2, capLen := fun _ => 8, outLen := fun _ => 4096 }
    let old : EncDq := { index := 0, ts := 0, mem := [0, 0, 1, 0x41] }
    let idr : EncDq := { index := 1, ts := 16666, mem := [0, 0, 1, 0x65, 0x88] }
    let o : EncWorld := { rounds := [⟨0, .buffer old, 0⟩, ⟨0, .buffer idr, 0⟩] }
    let f : EncFrame := ⟨fun _ => 0, fun _ => 0, fun _ => 0⟩
    ∃ e₀, encOpen 2 2 8000 d = some e₀ ∧
      let e := run step e₀ [.encode f true o, .setBitrate 40000 true]
      e.held = some 1 ∧ e.kbps = 25000 ∧ (e.capQueued 0 = true ∨ e.held = some 0) := by
  intro d old idr o f
  have hopen : encOpen 2 2 8000 d = some ((encOpen 2 2 8000 d).get (by decide +kernel)) :=
    (Option.some_get _).symm
  refine ⟨_, hopen, by decide +kernel, by decide +kernel, ?_⟩
  refine (capture_buffers_kept hopen [.encode f true o, .setBitrate 40000 true]).2.2.1
    (fun ev hev => ?_) 0 (by decide +kernel)
  obtain rfl | rfl : ev = .encode f true o ∨ ev = .setBitrate 40000 true := by simpa using hev
  · refine ⟨rfl, fun r hr b hb => ?_⟩
    obtain rfl | rfl : r = ⟨0, .buffer old, 0⟩ ∨ r = ⟨0, .buffer idr, 0⟩ := by simpa [o] using hr
    · obtain rfl := EncPoll.buffer.inj hb
      rfl
    · obtain rfl := EncPoll.buffer.inj hb
      rfl
  · trivial

end Encoder

end Sremfb
