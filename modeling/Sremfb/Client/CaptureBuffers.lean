import Mathlib.Data.List.Nodup
import Mathlib.Data.List.Range
import Sremfb.Lib.Run

/-!
# Capture buffers of the decoder (`v4l2dec.c`, `sremfb-client.c`)

The driver decodes into buffers that were queued.  `drain_capture` dequeues what is decoded and
keeps the newest frame, `v4l2dec_emit` puts it in a mailbox of one frame, and the blit thread takes
it from there to the panel and queues its buffer again.  Buffers are queued again on every way a
frame can be dropped, too.

A run is a list of steps of the driver and of the two threads, in any order; a step is an `ioctl`, a
section under `blit_mtx`, or `frame_to_fb`.  `QBUF` does not fail, and nothing stops the client.
`SbcDecoder.emitted` is a ghost: the frame that was last given to `v4l2dec_emit`.  Which picture a
buffer holds is a parameter of the model; `v4l2dec_drain` pumps until the last frame, and is a run
of pumps like any other.
-/

namespace Sremfb

open Lib

/-- A frame: its buffer, and what the buffer held when it was dequeued. -/
structure CapFrame (δ : Type*) where
  index : ℕ
  data : δ

/-- Where `drain_capture` is, with the `v4l2dec_emit` it calls. -/
inductive CapDrain (δ : Type*)
  | idle
  /-- In the loop, with `have`. -/
  | loop (kept : Option (CapFrame δ))
  /-- An empty buffer is to be queued again. -/
  | empty (kept : Option (CapFrame δ)) (i : ℕ)
  /-- The older frame is to be queued again. -/
  | older (old new : CapFrame δ)
  /-- An index out of range: the frame is to be queued again, and that is all. -/
  | bad (f : CapFrame δ)
  /-- `v4l2dec_emit` is called. -/
  | emit (f : CapFrame δ)
  /-- It waits for `blit_mtx`. -/
  | post (f : CapFrame δ)
  /-- It is in `frame_to_fb`, without a thread. -/
  | inline (f : CapFrame δ)
  /-- It has returned `0`. -/
  | unclaimed (f : CapFrame δ)

/-- Where `blit_thread` is. -/
inductive CapBlit (δ : Type*)
  /-- There is none. -/
  | off
  | idle
  /-- In `frame_to_fb`. -/
  | blitting (f : CapFrame δ)
  /-- In `v4l2dec_release`. -/
  | shown (f : CapFrame δ)
  | released

/-- What `DQBUF` answers. -/
inductive CapDqbuf
  /-- `EAGAIN`, or `EPIPE` after the last frame. -/
  | none
  | buffer (i : ℕ) (empty : Bool)

/-- The decoder's buffers and who has them. -/
structure SbcDecoder (δ : Type*) where
  /-- `cap_nbufs`. -/
  capNbufs : ℕ
  /-- What the buffers hold. -/
  mem : ℕ → δ
  /-- The buffers that the driver has. -/
  queued : List ℕ
  drain : CapDrain δ := .idle
  /-- `blit_next`, if `blit_have`. -/
  blitNext : Option (CapFrame δ) := none
  blitBusy : Bool := false
  /-- `blit_up`, `none` as long as it is `-1`. -/
  blitUp : Option Bool := none
  blit : CapBlit δ := .off
  /-- What the panel got last. -/
  shown : Option (CapFrame δ) := none
  /-- Ghost: what was given to `v4l2dec_emit` last. -/
  emitted : Option (CapFrame δ) := none

namespace SbcDecoder

variable {δ : Type*}

/-- The end of `setup_capture`: the driver has every buffer. -/
def setupCapture (capNbufs : ℕ) (mem : ℕ → δ) : SbcDecoder δ where
  capNbufs := capNbufs
  mem := mem
  queued := List.range capNbufs

/-- `cap_qbuf`. -/
def capQbuf (i : ℕ) (s : SbcDecoder δ) : SbcDecoder δ := { s with queued := s.queued ++ [i] }

/-- `v4l2dec_release`. -/
def v4l2decRelease (i : ℕ) (s : SbcDecoder δ) : SbcDecoder δ :=
  if s.capNbufs ≤ i then s else s.capQbuf i

/-- `frame_to_fb`: the panel gets what the buffer holds. -/
def frameToFb (f : CapFrame δ) (s : SbcDecoder δ) : SbcDecoder δ :=
  { s with shown := some ⟨f.index, s.mem f.index⟩ }

/-- One round of the loop of `drain_capture`, up to the first `QBUF`, and what follows the loop, up
to the call of `v4l2dec_emit`. -/
def dqbuf (r : CapDqbuf) (kept : Option (CapFrame δ)) (s : SbcDecoder δ) : SbcDecoder δ :=
  match r, kept with
  | .none, none => { s with drain := .idle }
  | .none, some f => { s with drain := .emit f, emitted := some f }
  | .buffer i empty, kept =>
      if s.capNbufs ≤ i then { s with drain := kept.elim .idle .bad }
      -- the driver hands out what it has
      else if i ∉ s.queued then s
      else
        let s := { s with queued := s.queued.erase i }
        if empty then { s with drain := .empty kept i }
        else
          let f : CapFrame δ := ⟨i, s.mem i⟩
          match kept with
          | none => { s with drain := .loop (some f) }
          | some old => { s with drain := .older old f }

/-- The next step of the main thread outside the loop; `created` is what `pthread_create` says. -/
def mainStep (created : Bool) (s : SbcDecoder δ) : SbcDecoder δ :=
  match s.drain with
  | .idle | .loop _ => s
  | .empty kept i => { s.capQbuf i with drain := .loop kept }
  | .older old new => { s.capQbuf old.index with drain := .loop (some new) }
  | .bad f | .unclaimed f => { s.capQbuf f.index with drain := .idle }
  | .emit f =>
      match s.blitUp with
      | none =>
          if created then { s with blitUp := some true, blit := .idle, drain := .post f }
          else { s with blitUp := some false, drain := .inline f }
      | some up => { s with drain := if up then .post f else .inline f }
  | .post f =>
      let s := match s.blitNext with
        | some g => s.v4l2decRelease g.index
        | none => s
      { s with blitNext := some f, drain := .idle }
  | .inline f => { s.frameToFb f with drain := .unclaimed f }

/-- The next step of `blit_thread`. -/
def blitStep (s : SbcDecoder δ) : SbcDecoder δ :=
  match s.blit with
  | .off => s
  | .idle =>
      match s.blitNext with
      | none => s
      | some f => { s with blitNext := none, blitBusy := true, blit := .blitting f }
  | .blitting f => { s.frameToFb f with blit := .shown f }
  | .shown f => { s.v4l2decRelease f.index with blit := .released }
  | .released => { s with blitBusy := false, blit := .idle }

/-- The steps. -/
inductive Event (δ : Type*)
  /-- The driver decodes into a buffer it has. -/
  | write (i : ℕ) (d : δ)
  /-- `v4l2dec_pump` comes to `drain_capture`. -/
  | pump
  | dqbuf (r : CapDqbuf)
  | main (created : Bool)
  | blit

def step (s : SbcDecoder δ) : Event δ → SbcDecoder δ
  | .write i d => if i ∈ s.queued then { s with mem := Function.update s.mem i d } else s
  | .pump =>
      match s.drain with
      | .idle => { s with drain := .loop none }
      | _ => s
  | .dqbuf r =>
      match s.drain with
      | .loop kept => s.dqbuf r kept
      | _ => s
  | .main created => s.mainStep created
  | .blit => s.blitStep

end SbcDecoder

/-! ## Who has which buffer -/

namespace CapDrain

variable {δ : Type*}

/-- The frames that `drain_capture` holds. -/
def frames : CapDrain δ → List (CapFrame δ)
  | .idle => []
  | .loop kept | .empty kept _ => kept.toList
  | .older old new => [old, new]
  | .bad f | .emit f | .post f | .inline f | .unclaimed f => [f]

/-- The buffers that `drain_capture` holds. -/
def held : CapDrain δ → List ℕ
  | .empty kept i => kept.toList.map CapFrame.index ++ [i]
  | d => d.frames.map CapFrame.index

/-- A frame has been given to `v4l2dec_emit` and is neither in the mailbox nor on the panel. -/
def Emitting : CapDrain δ → Prop
  | .emit _ | .post _ | .inline _ => True
  | .idle | .loop _ | .empty _ _ | .older _ _ | .bad _ | .unclaimed _ => False

end CapDrain

/-- The frames that `blit_thread` holds. -/
def CapBlit.frames {δ : Type*} : CapBlit δ → List (CapFrame δ)
  | .blitting f | .shown f => [f]
  | .off | .idle | .released => []

namespace SbcDecoder

variable {δ : Type*}

/-- Every place where a buffer can be: queued in the driver, held by `drain_capture`, waiting in the
mailbox, being blitted. -/
def places (s : SbcDecoder δ) : List ℕ :=
  s.queued ++ (s.drain.held ++ (s.blitNext.toList.map CapFrame.index ++
    s.blit.frames.map CapFrame.index))

/-- Frames that somebody holds. -/
def frames (s : SbcDecoder δ) : List (CapFrame δ) :=
  s.drain.frames ++ (s.blitNext.toList ++ s.blit.frames)

/-- `frame_to_fb` reads the buffer of the frame. -/
def Reads (s : SbcDecoder δ) (f : CapFrame δ) : Prop :=
  s.blit = .blitting f ∨ s.drain = .inline f

/-- `blit_sync`, called by the main thread, can return. -/
def SyncReturns (s : SbcDecoder δ) : Prop :=
  s.drain = .idle ∧ (s.blitUp ≠ some true ∨ (s.blitNext = none ∧ s.blitBusy = false))

/-- The newest frame that was emitted, if nothing is lost. -/
def newest (s : SbcDecoder δ) : Option (CapFrame δ) :=
  match s.blitNext, s.blit with
  | some f, _ => some f
  | none, .blitting f => some f
  | none, _ => s.shown

/-- Every buffer is in one place, once. -/
def Once (s : SbcDecoder δ) : Prop := s.places.Perm (List.range s.capNbufs)

/-- A buffer that somebody holds is not written. -/
def Fresh (s : SbcDecoder δ) : Prop := ∀ f ∈ s.frames, s.mem f.index = f.data

/-- The newest frame gets to the panel. -/
structure Delivers (s : SbcDecoder δ) : Prop where
  newest : ¬ s.drain.Emitting → s.newest = s.emitted
  emitting : ∀ f, s.drain = .emit f ∨ s.drain = .post f ∨ s.drain = .inline f → s.emitted = some f
  busy : s.blitBusy = false → s.blit = .off ∨ s.blit = .idle
  /-- Without a thread there is nothing in the mailbox. -/
  off : s.blitUp ≠ some true → s.blitNext = none ∧ s.blit = .off
  /-- The mailbox is for a thread, and the inline path for none. -/
  post : ∀ f, s.drain = .post f → s.blitUp = some true
  inline : ∀ f, s.drain = .inline f → s.blitUp ≠ some true

/-! ## Buffers -/

section Once

variable {s : SbcDecoder δ}

@[simp] lemma capQbuf_capNbufs (i : ℕ) (s : SbcDecoder δ) : (s.capQbuf i).capNbufs = s.capNbufs :=
  rfl

lemma Once.lt (h : s.Once) {i : ℕ} (hi : i ∈ s.places) : i < s.capNbufs :=
  List.mem_range.mp (h.subset hi)

lemma Once.nodup (h : s.Once) : s.places.Nodup := h.nodup_iff.mpr List.nodup_range

/-- A buffer that is held elsewhere is not queued. -/
lemma Once.not_queued (h : s.Once) {i : ℕ} (hi : i ∈ s.drain.held ∨
    i ∈ s.blitNext.toList.map CapFrame.index ∨ i ∈ s.blit.frames.map CapFrame.index) :
    i ∉ s.queued := by
  intro hq
  exact List.disjoint_of_nodup_append h.nodup hq (by simpa only [List.mem_append] using hi)

/-- A frame in the mailbox or on the panel has a buffer that can be queued. -/
lemma Once.release (h : s.Once) {f : CapFrame δ} (hf : f ∈ s.blitNext.toList ∨ f ∈ s.blit.frames) :
    s.v4l2decRelease f.index = s.capQbuf f.index := by
  refine if_neg (not_le.mpr (h.lt ?_))
  simp only [places, List.mem_append]
  exact .inr (.inr (hf.imp (List.mem_map_of_mem ·) (List.mem_map_of_mem ·)))

/-- A buffer moves: the lists of places have the same elements as often. -/
lemma Once.of_count {s' : SbcDecoder δ} (h : s.Once) (hn : s'.capNbufs = s.capNbufs)
    (hcount : ∀ i, s'.places.count i = s.places.count i) : s'.Once := by
  unfold Once
  rw [hn]
  exact (List.perm_iff_count.mpr hcount).trans h

lemma Once.dqbuf (h : s.Once) {kept : Option (CapFrame δ)} (hd : s.drain = .loop kept)
    (r : CapDqbuf) : (s.dqbuf r kept).Once := by
  unfold SbcDecoder.dqbuf
  split
  · exact h.of_count rfl fun i => by simp [places, hd, CapDrain.held, CapDrain.frames]
  · exact h.of_count rfl fun i => by simp [places, hd, CapDrain.held, CapDrain.frames]
  split
  · refine h.of_count rfl fun i => ?_
    cases kept <;> simp [places, hd, CapDrain.held, CapDrain.frames]
  split <;> rename_i i _ _ hi
  · exact h
  rw [not_not] at hi
  have herase : ∀ a, s.queued.count a = [i].count a + (s.queued.erase i).count a := fun a => by
    rw [← List.count_append]
    exact (List.perm_cons_erase hi).count_eq a
  dsimp only
  split
  · refine h.of_count rfl fun a => ?_
    simp only [places, hd, CapDrain.held, CapDrain.frames, List.count_append, herase]
    omega
  split
  · refine h.of_count rfl fun a => ?_
    simp only [places, hd, CapDrain.held, CapDrain.frames, List.count_append, herase,
      Option.toList, List.map, List.count_nil]
    omega
  · refine h.of_count rfl fun a => ?_
    simp only [places, hd, CapDrain.held, CapDrain.frames, List.count_append, herase,
      Option.toList, List.map]
    rw [← List.singleton_append, List.count_append]
    omega

lemma Once.mainStep (h : s.Once) (created : Bool) (hoff : s.blitUp = none → s.blit = .off) :
    (s.mainStep created).Once := by
  unfold SbcDecoder.mainStep
  split <;> rename_i hd
  · exact h
  · exact h
  · refine h.of_count rfl fun a => ?_
    simp only [places, hd, CapDrain.held, CapDrain.frames, capQbuf, List.count_append]
    omega
  · rename_i old new
    refine h.of_count rfl fun a => ?_
    have htwo : [old.index, new.index] = [old.index] ++ [new.index] := rfl
    simp only [places, hd, CapDrain.held, CapDrain.frames, capQbuf, List.count_append,
      Option.toList, List.map, htwo]
    omega
  · refine h.of_count rfl fun a => ?_
    simp only [places, hd, CapDrain.held, CapDrain.frames, capQbuf, List.count_append, List.map,
      List.count_nil]
    omega
  · refine h.of_count rfl fun a => ?_
    simp only [places, hd, CapDrain.held, CapDrain.frames, capQbuf, List.count_append, List.map,
      List.count_nil]
    omega
  · split <;> rename_i hup
    · split
      · refine h.of_count rfl fun a => ?_
        simp only [places, hd, CapDrain.held, CapDrain.frames, hoff hup, CapBlit.frames]
      · exact h.of_count rfl fun a => by simp only [places, hd, CapDrain.held, CapDrain.frames]
    · refine h.of_count rfl fun a => ?_
      rename_i up
      cases up <;> simp [places, hd, CapDrain.held, CapDrain.frames]
  · rename_i f
    cases hnext : s.blitNext with
    | none =>
        refine h.of_count rfl fun a => ?_
        simp only [places, hd, hnext, CapDrain.held, CapDrain.frames, List.count_append,
          Option.toList, List.map, List.count_nil]
        omega
    | some g =>
        dsimp only
        rw [h.release (.inl (by rw [hnext]; exact List.mem_singleton_self g))]
        refine h.of_count rfl fun a => ?_
        simp only [places, hd, hnext, CapDrain.held, CapDrain.frames, capQbuf, List.count_append,
          Option.toList, List.map, List.count_nil]
        omega
  · exact h.of_count rfl fun a => by
      simp only [places, hd, CapDrain.held, CapDrain.frames, frameToFb]

lemma Once.blitStep (h : s.Once) : s.blitStep.Once := by
  unfold SbcDecoder.blitStep
  split <;> rename_i hb
  · exact h
  · split <;> rename_i hnext
    · exact h
    · refine h.of_count rfl fun a => ?_
      simp only [places, hb, hnext, CapBlit.frames, List.count_append, Option.toList, List.map,
        List.count_nil]
      omega
  · exact h.of_count rfl fun a => by simp only [places, hb, CapBlit.frames, frameToFb]
  · rename_i f
    rw [h.release (.inr (by rw [hb]; exact List.mem_singleton_self f))]
    refine h.of_count rfl fun a => ?_
    simp only [places, hb, CapBlit.frames, capQbuf, List.count_append, List.map, List.count_nil]
    omega
  · exact h.of_count rfl fun a => by simp only [places, hb, CapBlit.frames]

end Once

/-! ## Pictures -/

section Fresh

variable {s : SbcDecoder δ}

lemma mem_held {d : CapDrain δ} {f : CapFrame δ} (h : f ∈ d.frames) : f.index ∈ d.held := by
  cases d with
  | empty kept i => exact List.mem_append_left _ (List.mem_map_of_mem h)
  | idle | loop | older | bad | emit | post | inline | unclaimed => exact List.mem_map_of_mem h

lemma Once.frame_not_queued (h : s.Once) {f : CapFrame δ} (hf : f ∈ s.frames) :
    f.index ∉ s.queued := by
  simp only [frames, List.mem_append] at hf
  exact h.not_queued
    (hf.imp mem_held (Or.imp (List.mem_map_of_mem ·) (List.mem_map_of_mem ·)))

lemma Fresh.of_subset {s' : SbcDecoder δ} (h : s.Fresh) (hmem : s'.mem = s.mem)
    (hsub : ∀ f ∈ s'.frames, f ∈ s.frames) : s'.Fresh := fun f hf => by
  rw [hmem]
  exact h f (hsub f hf)

/-- The driver writes only into buffers it has. -/
lemma Fresh.write (h : s.Fresh) (ho : s.Once) (i : ℕ) (d : δ) : (s.step (.write i d)).Fresh := by
  simp only [step]
  split <;> rename_i hi
  · intro f hf
    have hne : f.index ≠ i := fun he => ho.frame_not_queued hf (he ▸ hi)
    exact (Function.update_of_ne hne ..).trans (h f hf)
  · exact h

lemma Fresh.dqbuf (h : s.Fresh) {kept : Option (CapFrame δ)} (hd : s.drain = .loop kept)
    (r : CapDqbuf) : (s.dqbuf r kept).Fresh := by
  unfold SbcDecoder.dqbuf
  split
  · exact h.of_subset rfl fun f hf => by simpa [frames, hd, CapDrain.frames] using hf
  · exact h.of_subset rfl fun f hf => by simpa [frames, hd, CapDrain.frames] using hf
  split
  · refine h.of_subset rfl fun f hf => ?_
    cases kept <;> simpa [frames, hd, CapDrain.frames] using hf
  split
  · exact h
  dsimp only
  split
  · exact h.of_subset rfl fun f hf => by simpa [frames, hd, CapDrain.frames] using hf
  rename_i i _ _ _ _
  have hold : ∀ f ∈ s.frames, s.mem f.index = f.data := h
  simp only [frames, hd, CapDrain.frames, List.mem_append] at hold
  split <;> intro f hf
  · simp only [frames, CapDrain.frames, List.mem_append, Option.toList, List.mem_singleton] at hf
    rcases hf with rfl | hf
    · rfl
    · exact hold f (.inr hf)
  · simp only [frames, CapDrain.frames, List.mem_append, List.mem_cons, List.not_mem_nil,
      or_false] at hf
    rcases hf with (rfl | rfl) | hf
    · exact hold f (.inl (List.mem_singleton_self f))
    · rfl
    · exact hold f (.inr hf)

lemma v4l2decRelease_eq (i : ℕ) (s : SbcDecoder δ) :
    s.v4l2decRelease i = { s with queued := (s.v4l2decRelease i).queued } := by
  unfold v4l2decRelease
  split <;> rfl

lemma Fresh.mainStep (h : s.Fresh) (created : Bool) (hoff : s.blitUp = none → s.blit = .off) :
    (s.mainStep created).Fresh := by
  unfold SbcDecoder.mainStep
  split <;> rename_i hd
  · exact h
  · exact h
  · exact h.of_subset rfl fun f hf => by simpa [frames, hd, CapDrain.frames, capQbuf] using hf
  · refine h.of_subset rfl fun f hf => ?_
    simp only [frames, hd, CapDrain.frames, capQbuf, List.mem_append, List.mem_cons,
      Option.toList, List.not_mem_nil, or_false] at hf ⊢
    exact hf.imp .inr id
  · refine h.of_subset rfl fun f hf => ?_
    simp only [frames, CapDrain.frames, capQbuf, List.nil_append] at hf
    exact List.mem_append_right _ hf
  · refine h.of_subset rfl fun f hf => ?_
    simp only [frames, CapDrain.frames, capQbuf, List.nil_append] at hf
    exact List.mem_append_right _ hf
  · split <;> rename_i hup
    · split
      · refine h.of_subset rfl fun f hf => ?_
        simpa [frames, hd, CapDrain.frames, hoff hup, CapBlit.frames] using hf
      · exact h.of_subset rfl fun f hf => by simpa [frames, hd, CapDrain.frames] using hf
    · rename_i up
      refine h.of_subset rfl fun f hf => ?_
      cases up <;> simpa [frames, hd, CapDrain.frames] using hf
  · rename_i f
    have hall : ∀ q : List ℕ, Fresh { s with queued := q, blitNext := some f, drain := .idle } := by
      intro q
      refine h.of_subset rfl fun f' hf => ?_
      simp only [frames, hd, CapDrain.frames, List.mem_append, List.not_mem_nil, false_or,
        Option.toList, List.mem_singleton] at hf ⊢
      exact hf.imp id .inr
    cases s.blitNext with
    | none => exact hall s.queued
    | some g =>
        dsimp only
        rw [v4l2decRelease_eq]
        exact hall _
  · exact h.of_subset rfl fun f hf => by simpa [frames, hd, CapDrain.frames, frameToFb] using hf

lemma Fresh.blitStep (h : s.Fresh) : s.blitStep.Fresh := by
  unfold SbcDecoder.blitStep
  split <;> rename_i hb
  · exact h
  · split <;> rename_i hnext
    · exact h
    · refine h.of_subset rfl fun f hf => ?_
      simpa [frames, hb, hnext, CapBlit.frames] using hf
  · exact h.of_subset rfl fun f hf => by simpa [frames, hb, CapBlit.frames, frameToFb] using hf
  · rw [v4l2decRelease_eq]
    refine h.of_subset rfl fun f hf => ?_
    simp only [frames, CapBlit.frames, List.append_nil] at hf
    rw [frames, ← List.append_assoc]
    exact List.mem_append_left _ hf
  · exact h.of_subset rfl fun f hf => by simpa [frames, hb, CapBlit.frames] using hf

/-- `frame_to_fb` shows the frame as it was dequeued. -/
lemma Fresh.shows (h : s.Fresh) {f : CapFrame δ} (hf : f ∈ s.frames) :
    (s.frameToFb f).shown = some f := by
  simp only [frameToFb, h f hf]

end Fresh

/-! ## The newest frame -/

section Delivers

variable {s : SbcDecoder δ}

/-- The blit thread brings the newest frame forward and loses none. -/
lemma newest_blitStep (hfresh : s.Fresh) : s.blitStep.newest = s.newest := by
  unfold SbcDecoder.blitStep
  split <;> rename_i hb
  · rfl
  · split <;> rename_i hnext
    · rfl
    · simp only [newest, hnext]
  · rename_i f
    have hshown := hfresh.shows (f := f) (by simp [frames, hb, CapBlit.frames])
    simp only [frameToFb] at hshown
    simp only [newest, hb, frameToFb]
    cases s.blitNext with
    | none => exact hshown
    | some g => rfl
  · rw [v4l2decRelease_eq]
    simp only [newest, hb]
    cases s.blitNext <;> rfl
  · simp only [newest, hb]
    cases s.blitNext <;> rfl

lemma Delivers.blitStep (h : s.Delivers) (hfresh : s.Fresh) : s.blitStep.Delivers := by
  have hkeep : s.blitStep.drain = s.drain ∧ s.blitStep.emitted = s.emitted ∧
      s.blitStep.blitUp = s.blitUp := by
    unfold SbcDecoder.blitStep
    split
    · exact ⟨rfl, rfl, rfl⟩
    · split <;> exact ⟨rfl, rfl, rfl⟩
    · exact ⟨rfl, rfl, rfl⟩
    · rw [v4l2decRelease_eq]
      exact ⟨rfl, rfl, rfl⟩
    · exact ⟨rfl, rfl, rfl⟩
  obtain ⟨hdrain, hemitted, hup⟩ := hkeep
  refine ⟨?_, ?_, ?_, ?_, ?_, ?_⟩
  · rw [newest_blitStep hfresh, hdrain, hemitted]
    exact h.newest
  · rw [hdrain, hemitted]
    exact h.emitting
  · unfold SbcDecoder.blitStep
    split <;> rename_i hb
    · exact h.busy
    · split
      · exact h.busy
      · exact nofun
    · intro hbusy
      rcases h.busy hbusy with hoff | hidle
      · rw [hoff] at hb
        cases hb
      · rw [hidle] at hb
        cases hb
    · rw [v4l2decRelease_eq]
      intro hbusy
      rcases h.busy hbusy with hoff | hidle
      · rw [hoff] at hb
        cases hb
      · rw [hidle] at hb
        cases hb
    · exact fun _ => .inr rfl
  · rw [hup]
    intro hnot
    have hidle : s.blitStep = s := by
      unfold SbcDecoder.blitStep
      rw [(h.off hnot).2]
    rw [hidle]
    exact h.off hnot
  · rw [hdrain, hup]
    exact h.post
  · rw [hdrain, hup]
    exact h.inline

/-- While nothing is being emitted, only the queue and `drain` change. -/
lemma Delivers.quiet (h : s.Delivers) (hnow : ¬ s.drain.Emitting) (q : List ℕ) {d : CapDrain δ}
    (hd : ¬ d.Emitting) : Delivers { s with queued := q, drain := d } := by
  refine ⟨fun _ => h.newest hnow, fun f hf => ?_, h.busy, h.off, fun f hf => ?_, fun f hf => ?_⟩
  · rcases hf with rfl | rfl | rfl <;> exact absurd trivial hd
  · obtain rfl : d = _ := hf
    exact absurd trivial hd
  · obtain rfl : d = _ := hf
    exact absurd trivial hd

lemma Delivers.dqbuf (h : s.Delivers) {kept : Option (CapFrame δ)} (hd : s.drain = .loop kept)
    (r : CapDqbuf) : (s.dqbuf r kept).Delivers := by
  have hnow : ¬ s.drain.Emitting := by
    rw [hd]
    exact id
  unfold SbcDecoder.dqbuf
  split
  · exact h.quiet hnow s.queued id
  · refine ⟨fun hnot => absurd trivial hnot, fun f hf => ?_, h.busy, h.off, nofun, nofun⟩
    rcases hf with hf | hf | hf
    · cases hf
      rfl
    · cases hf
    · cases hf
  split
  · cases kept with
    | none => exact h.quiet hnow s.queued id
    | some f => exact h.quiet hnow s.queued id
  split
  · exact h
  dsimp only
  split
  · exact h.quiet hnow _ id
  split
  · exact h.quiet hnow _ id
  · exact h.quiet hnow _ id

lemma Delivers.mainStep (h : s.Delivers) (hfresh : s.Fresh) (created : Bool) :
    (s.mainStep created).Delivers := by
  unfold SbcDecoder.mainStep
  split <;> rename_i hd
  · exact h
  · exact h
  · exact h.quiet (by rw [hd]; exact id) _ id
  · exact h.quiet (by rw [hd]; exact id) _ id
  · exact h.quiet (by rw [hd]; exact id) _ id
  · exact h.quiet (by rw [hd]; exact id) _ id
  · rename_i f
    have hemitted : s.emitted = some f := h.emitting f (.inl hd)
    split <;> rename_i hup
    · have hnone : s.blitNext = none := (h.off (by rw [hup]; decide)).1
      split
      · refine ⟨fun hnot => absurd trivial hnot, fun f' hf => ?_, fun _ => .inr rfl,
          fun hnot => absurd rfl hnot, fun _ _ => rfl, nofun⟩
        rcases hf with hf | hf | hf
        · cases hf
        · cases hf
          exact hemitted
        · cases hf
      · refine ⟨fun hnot => absurd trivial hnot, fun f' hf => ?_, h.busy,
          fun _ => h.off (by rw [hup]; decide), nofun, fun _ _ => nofun⟩
        rcases hf with hf | hf | hf
        · cases hf
        · cases hf
        · cases hf
          exact hemitted
    · rename_i up
      cases up with
      | true =>
          simp only [if_true]
          refine ⟨fun hnot => absurd trivial hnot, fun f' hf => ?_, h.busy, h.off, fun _ _ => hup,
            nofun⟩
          rcases hf with hf | hf | hf
          · cases hf
          · cases hf
            exact hemitted
          · cases hf
      | false =>
          simp only [Bool.false_eq_true, if_false]
          refine ⟨fun hnot => absurd trivial hnot, fun f' hf => ?_, h.busy, h.off, nofun,
            fun _ _ => by rw [hup]; decide⟩
          rcases hf with hf | hf | hf
          · cases hf
          · cases hf
          · cases hf
            exact hemitted
  · rename_i f
    have hemitted : s.emitted = some f := h.emitting f (.inr (.inl hd))
    have hup : s.blitUp = some true := h.post f hd
    have hall : ∀ q : List ℕ, Delivers { s with queued := q, blitNext := some f, drain := .idle } := by
      intro q
      refine ⟨fun _ => hemitted.symm, fun f' hf => ?_, h.busy, fun hnot => absurd hup hnot,
        nofun, nofun⟩
      rcases hf with hf | hf | hf <;> cases hf
    cases s.blitNext with
    | none => exact hall s.queued
    | some g =>
        dsimp only
        rw [v4l2decRelease_eq]
        exact hall _
  · rename_i f
    have hshown := hfresh.shows (f := f) (by simp [frames, hd, CapDrain.frames])
    obtain ⟨hnone, hoff⟩ := h.off (h.inline f hd)
    refine ⟨fun _ => ?_, fun f' hf => ?_, h.busy, h.off, nofun, nofun⟩
    · have hemitted : s.emitted = some f := h.emitting f (.inr (.inr hd))
      simp only [frameToFb] at hshown
      simp only [frameToFb, hnone, hoff, hshown, hemitted]
      rfl
    · rcases hf with hf | hf | hf <;> cases hf

end Delivers

/-! ## Runs -/

/-- What a run keeps. -/
structure Sound (s : SbcDecoder δ) : Prop where
  once : s.Once
  fresh : s.Fresh
  delivers : s.Delivers

section Sound

variable {s : SbcDecoder δ}

lemma Sound.step (h : s.Sound) (ev : Event δ) : (s.step ev).Sound := by
  cases ev with
  | write i d =>
      refine ⟨?_, h.fresh.write h.once i d, ?_⟩
      · simp only [SbcDecoder.step]
        split <;> exact h.once
      · simp only [SbcDecoder.step]
        split
        · exact ⟨h.delivers.newest, h.delivers.emitting, h.delivers.busy, h.delivers.off,
            h.delivers.post, h.delivers.inline⟩
        · exact h.delivers
  | pump =>
      simp only [SbcDecoder.step]
      split <;> rename_i hd
      · refine ⟨h.once.of_count rfl fun i => ?_, h.fresh.of_subset rfl fun f hf => ?_,
          h.delivers.quiet (by rw [hd]; exact id) s.queued id⟩
        · simp [places, hd, CapDrain.held, CapDrain.frames]
        · simpa [frames, hd, CapDrain.frames] using hf
      · exact h
  | dqbuf r =>
      simp only [SbcDecoder.step]
      split <;> rename_i hd
      · exact ⟨h.once.dqbuf hd r, h.fresh.dqbuf hd r, h.delivers.dqbuf hd r⟩
      · exact h
  | main created =>
      have hoff : s.blitUp = none → s.blit = .off := fun hnone =>
        (h.delivers.off (by rw [hnone]; decide)).2
      exact ⟨h.once.mainStep created hoff, h.fresh.mainStep created hoff,
        h.delivers.mainStep h.fresh created⟩
  | blit => exact ⟨h.once.blitStep, h.fresh.blitStep, h.delivers.blitStep h.fresh⟩

lemma sound_setupCapture (capNbufs : ℕ) (mem : ℕ → δ) : (setupCapture capNbufs mem).Sound where
  once := by simp [Once, places, setupCapture, CapDrain.held, CapDrain.frames, CapBlit.frames]
  fresh f hf := by simp [frames, setupCapture, CapDrain.frames, CapBlit.frames] at hf
  delivers := by
    refine ⟨fun _ => rfl, fun f hf => ?_, fun _ => .inl rfl, fun _ => ⟨rfl, rfl⟩, nofun, nofun⟩
    rcases hf with hf | hf | hf <;> cases hf

lemma step_capNbufs (s : SbcDecoder δ) (ev : Event δ) : (s.step ev).capNbufs = s.capNbufs := by
  cases ev with
  | write i d =>
      simp only [SbcDecoder.step]
      split <;> rfl
  | pump =>
      simp only [SbcDecoder.step]
      split <;> rfl
  | dqbuf r =>
      simp only [SbcDecoder.step]
      split
      · unfold SbcDecoder.dqbuf
        split
        · rfl
        · rfl
        split
        · rfl
        split
        · rfl
        dsimp only
        split
        · rfl
        split <;> rfl
      · rfl
  | main created =>
      simp only [SbcDecoder.step]
      unfold mainStep
      split <;> try rfl
      · split
        · split <;> rfl
        · rfl
      · cases s.blitNext with
        | none => rfl
        | some g =>
            dsimp only
            rw [v4l2decRelease_eq]
  | blit =>
      simp only [SbcDecoder.step]
      unfold blitStep
      split <;> try rfl
      · split <;> rfl
      · rw [v4l2decRelease_eq]

/-- **No buffer is lost.**  After every run each buffer is in exactly one place, a buffer that
`frame_to_fb` reads is not queued, and when `blit_sync` returns the panel has the frame that was
emitted last. -/
theorem capture_buffers_conserved (capNbufs : ℕ) (mem : ℕ → δ) (es : List (Event δ)) :
    let s := run step (setupCapture capNbufs mem) es
    s.places.Perm (List.range capNbufs) ∧ (∀ f, s.Reads f → f.index ∉ s.queued) ∧
      (s.SyncReturns → s.shown = s.emitted) := by
  intro s
  have hs : s.Sound :=
    run_keeps (P := Sound) (fun _ ev h => h.step ev) (sound_setupCapture capNbufs mem) es
  have hn : s.capNbufs = capNbufs :=
    run_keeps (P := fun t => t.capNbufs = capNbufs) (fun t ev => (step_capNbufs t ev).trans) rfl es
  refine ⟨hn ▸ hs.once, fun f hf => ?_, fun hsync => ?_⟩
  · refine hs.once.frame_not_queued ?_
    rcases hf with hf | hf
    · simp [frames, hf, CapBlit.frames]
    · simp [frames, hf, CapDrain.frames]
  · obtain ⟨hidle, hquiet⟩ := hsync
    have hnewest : s.newest = s.emitted := hs.delivers.newest (by rw [hidle]; exact id)
    obtain ⟨hnone, hblit⟩ : s.blitNext = none ∧ (s.blit = .off ∨ s.blit = .idle) := by
      rcases hquiet with hup | ⟨hnone, hbusy⟩
      · exact ⟨(hs.delivers.off hup).1, .inl (hs.delivers.off hup).2⟩
      · exact ⟨hnone, hs.delivers.busy hbusy⟩
    rw [← hnewest]
    rcases hblit with hblit | hblit <;> simp only [newest, hnone, hblit]

end Sound

end SbcDecoder

end Sremfb
