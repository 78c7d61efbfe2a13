import Mathlib.Data.List.Basic
import Mathlib.Data.List.Flatten
import Mathlib.Data.List.Infix

/-!
# An outbox with one message in flight and a queue behind it

A sender shares one byte stream between two kinds of messages: at most one message `cur` in
flight, of which `off` bytes are out, and a queue whose head may be partly out as well
(`qoff`).  A transport accepts any number of bytes at a time, so a pass may stop at any byte
of either.  Messages are of any type `β`; `enc` writes one as bytes.

`Framed enc msgs o` is the invariant: the bytes accepted so far are some whole messages `done`
followed by a piece of the next one, and the messages handed over, in the order they were
handed over, are `done`, then the one in flight, then the queue.  It follows that the wire is
a prefix of the concatenation of `msgs` (`Framed.wire_prefix`), whatever the split.

The operations are the six things a sender does — queue a message, start one, send a piece of
either, retire either — and one it must be careful with: `discard` forgets what is not out
yet.  Discarding keeps the stream well formed exactly when no message is half out
(`Framed.discard`); the price is that the messages on the wire are then only a prefix of the
ones handed over.
-/

namespace Lib

/-- The sender's side of one byte stream. -/
structure Outbox (α β : Type*) where
  /-- Accepted by the transport, oldest first. -/
  wire : List α
  /-- The message in flight. -/
  cur : Option β
  /-- How much of it is out. -/
  off : ℕ
  /-- Messages waiting, oldest first. -/
  queue : List β
  /-- How much of the queue's head is out. -/
  qoff : ℕ

namespace Outbox

variable {α β : Type*} {enc : β → List α} {o : Outbox α β} {msgs : List β}

/-- The piece of an unfinished message that is already out. -/
def started (enc : β → List α) (o : Outbox α β) : List α :=
  match o.cur, o.queue with
  | some f, _ => (enc f).take o.off
  | none, b :: _ => (enc b).take o.qoff
  | none, [] => []

/-- The bytes out are whole messages of `msgs` and a piece of the next one. -/
structure Framed (enc : β → List α) (msgs : List β) (o : Outbox α β) : Prop where
  split : ∃ done, msgs = done ++ (o.cur.toList ++ o.queue) ∧
    o.wire = done.flatMap enc ++ o.started enc
  /-- While a message is in flight the queue's head has not been started. -/
  head_waits : o.cur ≠ none → o.qoff = 0
  no_head : o.queue = [] → o.qoff = 0

/-- **Framing.**  Whatever the transport accepted is a prefix of the messages, in order. -/
lemma Framed.wire_prefix (h : Framed enc msgs o) : o.wire <+: msgs.flatMap enc := by
  obtain ⟨done, rfl, hw⟩ := h.split
  rw [hw, List.flatMap_append]
  refine List.prefix_append_right_inj _ |>.mpr ?_
  unfold started
  rcases hc : o.cur with _ | f
  · rcases hq : o.queue with _ | ⟨b, q⟩
    · simp
    · simpa using (List.take_prefix o.qoff (enc b)).trans (List.prefix_append _ _)
  · simpa using (List.take_prefix o.off (enc f)).trans (List.prefix_append _ _)

/-! ## Handing messages over -/

/-- Queues a message. -/
def push (o : Outbox α β) (m : β) : Outbox α β := { o with queue := o.queue ++ [m] }

lemma Framed.push (h : Framed enc msgs o) (m : β) : Framed enc (msgs ++ [m]) (o.push m) := by
  obtain ⟨done, hm, hw⟩ := h.split
  refine ⟨⟨done, ?_, ?_⟩, h.head_waits, fun hq => by simp [Outbox.push] at hq⟩
  · simp [Outbox.push, hm]
  · rw [show (o.push m).wire = o.wire from rfl, hw]
    unfold started Outbox.push
    rcases hc : o.cur with _ | f
    · rcases hq : o.queue with _ | ⟨b, q⟩
      · simp [h.no_head hq]
      · simp
    · simp

/-- Starts a message; only with nothing in flight and nothing waiting. -/
def start (o : Outbox α β) (f : β) : Outbox α β := { o with cur := some f, off := 0 }

lemma Framed.start (h : Framed enc msgs o) (hc : o.cur = none) (hq : o.queue = []) (f : β) :
    Framed enc (msgs ++ [f]) (o.start f) := by
  obtain ⟨done, hm, hw⟩ := h.split
  refine ⟨⟨done, ?_, ?_⟩, fun _ => h.no_head hq, fun _ => h.no_head hq⟩
  · simp [Outbox.start, hm, hc, hq]
  · rw [show (o.start f).wire = o.wire from rfl, hw]
    simp [started, Outbox.start, hc, hq]

/-! ## Progress -/

/-- The transport takes `n` more bytes of the message in flight. -/
def sendCur (enc : β → List α) (o : Outbox α β) (n : ℕ) : Outbox α β :=
  { o with
    wire := o.wire ++ ((o.cur.elim [] enc).drop o.off).take n
    off := o.off + n }

lemma Framed.sendCur {f : β} (h : Framed enc msgs o) (hc : o.cur = some f) (n : ℕ) :
    Framed enc msgs (o.sendCur enc n) := by
  obtain ⟨done, hm, hw⟩ := h.split
  refine ⟨⟨done, hm, ?_⟩, h.head_waits, h.no_head⟩
  have hs : o.started enc = (enc f).take o.off := by simp [started, hc]
  have hs' : (o.sendCur enc n).started enc = (enc f).take (o.off + n) := by
    simp [started, Outbox.sendCur, hc]
  rw [hs', List.take_add, ← List.append_assoc, ← hs, ← hw]
  simp [Outbox.sendCur, hc]

/-- The message in flight is out. -/
def finish (o : Outbox α β) : Outbox α β := { o with cur := none, off := 0 }

lemma Framed.finish {f : β} (h : Framed enc msgs o) (hc : o.cur = some f)
    (hf : (enc f).length ≤ o.off) : Framed enc msgs o.finish := by
  obtain ⟨done, hm, hw⟩ := h.split
  have hq0 : o.qoff = 0 := h.head_waits (by simp [hc])
  refine ⟨⟨done ++ [f], ?_, ?_⟩, fun hn => absurd rfl hn, h.no_head⟩
  · simp [Outbox.finish, hm, hc]
  · have hs : o.started enc = enc f := by simp [started, hc, List.take_of_length_le hf]
    rw [show o.finish.wire = o.wire from rfl, hw, hs]
    unfold started Outbox.finish
    rcases hq : o.queue with _ | ⟨b, q⟩ <;> simp [hq0]

/-- The transport takes `n` more bytes of the queue's head. -/
def sendHead (enc : β → List α) (o : Outbox α β) (n : ℕ) : Outbox α β :=
  { o with
    wire := o.wire ++ ((o.queue.head?.elim [] enc).drop o.qoff).take n
    qoff := o.qoff + n }

lemma Framed.sendHead {b : β} {q : List β} (h : Framed enc msgs o) (hc : o.cur = none)
    (hq : o.queue = b :: q) (n : ℕ) : Framed enc msgs (o.sendHead enc n) := by
  obtain ⟨done, hm, hw⟩ := h.split
  refine ⟨⟨done, hm, ?_⟩, fun hn => absurd hc hn, fun hn => by
    simp [Outbox.sendHead, hq] at hn⟩
  have hs : o.started enc = (enc b).take o.qoff := by simp [started, hc, hq]
  have hs' : (o.sendHead enc n).started enc = (enc b).take (o.qoff + n) := by
    simp [started, Outbox.sendHead, hc, hq]
  rw [hs', List.take_add, ← List.append_assoc, ← hs, ← hw]
  simp [Outbox.sendHead, hq]

/-- The queue's head is out. -/
def pop (o : Outbox α β) : Outbox α β := { o with queue := o.queue.tail, qoff := 0 }

lemma Framed.pop {b : β} {q : List β} (h : Framed enc msgs o) (hc : o.cur = none)
    (hq : o.queue = b :: q) (hb : (enc b).length ≤ o.qoff) : Framed enc msgs o.pop := by
  obtain ⟨done, hm, hw⟩ := h.split
  refine ⟨⟨done ++ [b], ?_, ?_⟩, fun _ => rfl, fun _ => rfl⟩
  · simp [Outbox.pop, hm, hc, hq]
  · have hs : o.started enc = enc b := by simp [started, hc, hq, List.take_of_length_le hb]
    rw [show o.pop.wire = o.wire from rfl, hw, hs]
    unfold started Outbox.pop
    rcases q with _ | ⟨b', q⟩ <;> simp [hc, hq]

/-! ## Forgetting what is not out -/

/-- Forgets everything not yet out. -/
def discard (o : Outbox α β) : Outbox α β :=
  { o with cur := none, off := 0, queue := [], qoff := 0 }

/-- With no message half out, forgetting the rest leaves whole messages on the wire. -/
lemma Framed.discard (h : Framed enc msgs o) (hoff : o.cur ≠ none → o.off = 0)
    (hqoff : o.qoff = 0) : ∃ done, msgs = done ++ (o.cur.toList ++ o.queue) ∧
      Framed enc done o.discard := by
  obtain ⟨done, hm, hw⟩ := h.split
  have hs : o.started enc = [] := by
    unfold started
    rcases hc : o.cur with _ | f
    · rcases hq : o.queue with _ | ⟨b, q⟩ <;> simp [hqoff]
    · simp [hoff (by simp [hc])]
  rw [hs, List.append_nil] at hw
  refine ⟨done, hm, ⟨⟨done, ?_, ?_⟩, fun _ => rfl, fun _ => rfl⟩⟩
  · simp [Outbox.discard]
  · simpa [started, Outbox.discard] using hw

end Outbox

end Lib
