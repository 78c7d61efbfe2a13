import Mathlib.Tactic.IntervalCases
import Sremfb.Server.Session
import Sremfb.Server.Input

/-!
# From the viewer's socket to the server's upcalls (`view/net.c`, `session.c`)

Two threads of the viewer write to the connection: the network thread answers a PING with a PONG,
and the main thread flushes its queue of INPUT messages.  Each holds the write lock for its whole
buffer, so any run is one list of uses of the socket; but a buffer may be cut, when the socket stays
full for too long.  A cut PONG ends the connection.  A cut flush does not: nobody looks at what
`in_flush` gets back.

While every cut falls between messages, the server hears exactly the messages that reached the
socket whole, in order and each as soon as its last byte is read (`upstream_intact`).  A cut inside
a message is repaired by the hunt for the magic, at a price (`upstream_torn`): cut inside its magic,
the message alone is lost; cut later, the server takes the beginning of it and the beginning of the
next for one message, and that one is neither.
-/

namespace Sremfb

open Lib

/-! ## The packed INPUT message -/

namespace InputMsg

/-- The values that the fields of `struct sremfb_input_msg` hold. -/
structure Fits (m : InputMsg) : Prop where
  dev : m.dev < 2 ^ 8
  evType : m.evType < 2 ^ 16
  evCode : m.evCode < 2 ^ 16
  evValue : -2 ^ 31 ≤ m.evValue ∧ m.evValue < 2 ^ 31

/-- The packed, little-endian layout, as `in_push` fills it. -/
def bytes (m : InputMsg) : List UInt8 :=
  leBytes 4 magic.toNat ++ [2, UInt8.ofNat m.dev, 0, 0] ++ leBytes 2 m.evType ++
    leBytes 2 m.evCode ++ leBytes 4 (m.evValue % 2 ^ 32).toNat

/-- The message `sremfb_input_msg` sees in sixteen bytes. -/
def ofBytes (b : List UInt8) : InputMsg where
  dev := (b.getD 5 0).toNat
  evType := ofLe ((b.drop 8).take 2)
  evCode := ofLe ((b.drop 10).take 2)
  evValue := intOfSize (ofLe ((b.drop 12).take 4))

/-- **The round trip of an INPUT message.** -/
theorem ofBytes_bytes {m : InputMsg} (h : m.Fits) : ofBytes m.bytes = m := by
  obtain ⟨hd, ht, hc, hv₁, hv₂⟩ := h
  have h1 : (m.bytes.drop 8).take 2 = leBytes 2 m.evType := rfl
  have h2 : (m.bytes.drop 10).take 2 = leBytes 2 m.evCode := rfl
  have h3 : (m.bytes.drop 12).take 4 = leBytes 4 (m.evValue % 2 ^ 32).toNat := rfl
  have h4 : m.bytes.getD 5 0 = UInt8.ofNat m.dev := rfl
  have hlt : (m.evValue % 2 ^ 32).toNat < 256 ^ 4 := by
    norm_num
    omega
  have hdev : (UInt8.ofNat m.dev).toNat = m.dev := by
    rw [UInt8.toNat_ofNat']
    exact Nat.mod_eq_of_lt hd
  simp only [ofBytes, h1, h2, h3, h4]
  rw [ofLe_leBytes_of_lt ht, ofLe_leBytes_of_lt hc, ofLe_leBytes_of_lt hlt,
    intOfSize_emod hv₁ hv₂, hdev]

end InputMsg

/-- A message of either thread. -/
inductive UpMsg
  | pong (tEcho : UInt64)
  | input (m : InputMsg)
  deriving DecidableEq

namespace UpMsg

/-- The message on the wire. -/
def bytes : UpMsg → List UInt8
  | .pong t => pongMsg (leBytes 8 t.toNat)
  | .input m => m.bytes

/-- An INPUT message is a struct of C. -/
def Fits : UpMsg → Prop
  | .pong _ => True
  | .input m => m.Fits

/-- What the server was promised on this connection. -/
def granted (feedback input : Bool) : UpMsg → Bool
  | .pong _ => feedback
  | .input _ => input

/-- What the dispatch makes of sixteen bytes. -/
def heard (feedback input : Bool) (b : List UInt8) : Option UpMsg :=
  match dispatch feedback input b with
  | none => none
  | some (.pong t) => some (.pong t)
  | some (.input b) => some (.input (.ofBytes b))

@[simp] lemma length_bytes (m : UpMsg) : m.bytes.length = clientMsgSize := by
  cases m <;> simp [bytes, pongMsg, InputMsg.bytes, clientMsgSize]

lemma take_bytes (m : UpMsg) (l : List UInt8) : (m.bytes ++ l).take 4 = magicBytes := by
  cases m <;> rfl

/-- **A granted message is heard as it was sent**, one that was not granted is not heard. -/
lemma heard_bytes {m : UpMsg} (h : m.Fits) (feedback input : Bool) :
    heard feedback input m.bytes = if m.granted feedback input then some m else none := by
  cases m with
  | pong t =>
      have htype : (UpMsg.pong t).bytes.getD 4 0 = 1 := rfl
      have hecho : ((UpMsg.pong t).bytes.drop 8).take 8 = leBytes 8 t.toNat := rfl
      have ht : UInt64.ofNat (ofLe (leBytes 8 t.toNat)) = t := by
        rw [ofLe_leBytes_of_lt (by have := t.toNat_lt; norm_num at *; omega), UInt64.ofNat_toNat]
      simp only [heard, dispatch, htype, hecho, ht, granted]
      cases feedback <;> rfl
  | input m =>
      have htype : (UpMsg.input m).bytes.getD 4 0 = 2 := rfl
      simp only [heard, dispatch, htype, granted]
      cases input
      · rfl
      · simp [bytes, InputMsg.ofBytes_bytes h]

end UpMsg

/-! ## The socket of the viewer -/

/-- What the loop of `writen_locked` gets from the kernel. -/
inductive SendCall
  /-- `send` took so many bytes. -/
  | took (r : ℕ)
  /-- `EINTR`. -/
  | intr
  /-- The socket is full; whether `wait_fd` then said that it is writable, within the time. -/
  | full (writable : Bool)
  | error
  deriving DecidableEq

/-- `writen_locked`: the bytes that reached the socket, and whether all did. -/
def writenLocked : List SendCall → List UInt8 → List UInt8 × Bool
  | _, [] => ([], true)
  | .took (r + 1) :: rs, p =>
      let w := writenLocked rs (p.drop (r + 1))
      (p.take (r + 1) ++ w.1, w.2)
  | .intr :: rs, p => writenLocked rs p
  | .full true :: rs, p => writenLocked rs p
  | _, _ => ([], false)

lemma writenLocked_begins (rs : List SendCall) (p : List UInt8) : (writenLocked rs p).1 <+: p := by
  induction rs, p using writenLocked.induct with
  | case1 rs => simp [writenLocked]
  | case2 r rs p hp ih =>
      rw [writenLocked]
      · have := (List.prefix_append_right_inj (p.take (r + 1))).mpr ih
        rwa [List.take_append_drop] at this
      · exact hp
  | case3 rs p hp ih => simpa [writenLocked] using ih
  | case4 rs p hp ih => simpa [writenLocked] using ih
  | case5 rs p hp h₁ h₂ h₃ =>
      rw [writenLocked] <;> first | assumption | exact List.nil_prefix

/-- A use of the socket: `on_ping` of the network thread, `in_flush` of the main thread. -/
inductive Upsend
  | onPing (tSrv : UInt64)
  | inFlush (q : List InputMsg)

namespace Upsend

/-- The messages in the buffer. -/
def msgs : Upsend → List UpMsg
  | .onPing t => [.pong t]
  | .inFlush q => q.map .input

def bytes (u : Upsend) : List UInt8 := u.msgs.flatMap UpMsg.bytes

end Upsend

/-- The sending side of `struct view_net`. -/
structure ViewNet where
  /-- `n->fd >= 0`. -/
  fd : Bool := true
  /-- What the socket took. -/
  wire : List UInt8 := []

namespace ViewNet

/-- `view_net_send` and what the caller makes of its result: a failed PONG ends the connection,
a failed flush is not noticed. -/
def send (n : ViewNet) (a : Upsend × List SendCall) : ViewNet :=
  if n.fd then
    let w := writenLocked a.2 a.1.bytes
    { wire := n.wire ++ w.1
      fd := match a.1 with
        | .onPing _ => w.2
        | .inFlush _ => true }
  else n

/-- How much of its buffer a use of the socket got rid of. -/
def taken (a : Upsend × List SendCall) : ℕ := (writenLocked a.2 a.1.bytes).1.length

/-- The messages that reached the socket whole. -/
def carried : ViewNet → List (Upsend × List SendCall) → List UpMsg
  | _, [] => []
  | n, a :: as =>
      (if n.fd then a.1.msgs.take (taken a / clientMsgSize) else []) ++ carried (n.send a) as

/-- The part of a message that reached the socket after the whole ones. -/
def torn (a : Upsend × List SendCall) : List UInt8 :=
  (a.1.bytes.take (taken a)).drop (clientMsgSize * (taken a / clientMsgSize))

end ViewNet

/-! ## The bytes of messages -/

lemma drop_flatMap_bytes (l : List UpMsg) (k : ℕ) :
    (l.flatMap UpMsg.bytes).drop (clientMsgSize * k) = (l.drop k).flatMap UpMsg.bytes := by
  induction l generalizing k with
  | nil => simp
  | cons m l ih =>
      cases k with
      | zero => simp
      | succ k =>
          rw [List.flatMap_cons, Nat.mul_succ, Nat.add_comm, ← List.drop_drop,
            List.drop_left' m.length_bytes, ih, List.drop_succ_cons]

lemma take_flatMap_bytes (l : List UpMsg) (k : ℕ) :
    (l.flatMap UpMsg.bytes).take (clientMsgSize * k) = (l.take k).flatMap UpMsg.bytes := by
  induction l generalizing k with
  | nil => simp
  | cons m l ih =>
      cases k with
      | zero => simp
      | succ k =>
          rw [List.flatMap_cons, Nat.mul_succ, Nat.add_comm, List.take_add,
            List.take_left' m.length_bytes, List.drop_left' m.length_bytes, ih,
            List.take_succ_cons, List.flatMap_cons]

/-- A prefix of the bytes: the whole messages, and a part of the next. -/
lemma take_split (l : List UpMsg) (n : ℕ) :
    (l.flatMap UpMsg.bytes).take n =
      (l.take (n / clientMsgSize)).flatMap UpMsg.bytes ++
        ((l.drop (n / clientMsgSize)).flatMap UpMsg.bytes).take (n % clientMsgSize) := by
  conv_lhs => rw [← Nat.div_add_mod n clientMsgSize]
  rw [List.take_add, take_flatMap_bytes, drop_flatMap_bytes]

/-- What is left of less than a message is the beginning of one. -/
lemma part_of_message (l : List UpMsg) {r : ℕ} (h : r < clientMsgSize) :
    (l.flatMap UpMsg.bytes).take r = [] ∨
      ∃ m : UpMsg, (l.flatMap UpMsg.bytes).take r = m.bytes.take r := by
  cases l with
  | nil => exact .inl (by simp)
  | cons m l =>
      refine .inr ⟨m, ?_⟩
      rw [List.flatMap_cons, List.take_append_of_le_length]
      rw [m.length_bytes]
      exact h.le

namespace ViewNet

/-- Every cut of the run falls between messages. -/
def Whole (log : List (Upsend × List SendCall)) : Prop := ∀ a ∈ log, clientMsgSize ∣ taken a

/-- What a use of the socket adds: whole messages, and the part of one. -/
lemma wire_send (n : ViewNet) (a : Upsend × List SendCall) :
    (n.send a).wire = n.wire ++ (carried n [a]).flatMap UpMsg.bytes ++
      (if n.fd then torn a else []) := by
  have hw : (writenLocked a.2 a.1.bytes).1 = a.1.bytes.take (taken a) :=
    List.prefix_iff_eq_take.mp (writenLocked_begins a.2 a.1.bytes)
  cases hfd : n.fd with
  | false => simp [send, carried, hfd]
  | true =>
      have hmsgs : (carried n [a]).flatMap UpMsg.bytes =
          a.1.bytes.take (clientMsgSize * (taken a / clientMsgSize)) := by
        rw [Upsend.bytes, take_flatMap_bytes]
        simp [carried, hfd]
      have hcut := List.take_append_drop (clientMsgSize * (taken a / clientMsgSize))
        (a.1.bytes.take (taken a))
      rw [List.take_take, Nat.min_eq_left (Nat.mul_div_le _ _)] at hcut
      simp only [send, hfd, if_true, hw]
      rw [hmsgs, List.append_assoc, torn, hcut]

lemma torn_of_dvd {a : Upsend × List SendCall} (h : clientMsgSize ∣ taken a) : torn a = [] := by
  unfold torn
  rw [Nat.mul_div_cancel' h]
  exact List.drop_eq_nil_of_le (by rw [List.length_take]; omega)

lemma carried_append (n : ViewNet) (l l' : List (Upsend × List SendCall)) :
    carried n (l ++ l') = carried n l ++ carried (l.foldl send n) l' := by
  induction l generalizing n with
  | nil => rfl
  | cons a l ih => simp only [List.cons_append, carried, ih, List.append_assoc, List.foldl_cons]

/-- **The wire of a run** whose cuts fall between messages. -/
lemma wire_run {log : List (Upsend × List SendCall)} (h : Whole log) (n : ViewNet) :
    (log.foldl send n).wire = n.wire ++ (carried n log).flatMap UpMsg.bytes := by
  induction log generalizing n with
  | nil => simp [carried]
  | cons a log ih =>
      have hwhole : Whole log := fun b hb => h b (List.mem_cons_of_mem _ hb)
      have happ : carried n (a :: log) = carried n [a] ++ carried (n.send a) log :=
        carried_append n [a] log
      rw [List.foldl_cons, ih hwhole, wire_send, torn_of_dvd (h a List.mem_cons_self), happ,
        List.flatMap_append]
      simp

end ViewNet

/-! ## What the server makes of the wire -/

lemma look_message (g : ℕ) (m : UpMsg) (rest : List UInt8) :
    upstreamScanner.look g (m.bytes ++ rest) = .take m.bytes.length 0 (some m.bytes) := by
  have hlen : clientMsgSize ≤ (m.bytes ++ rest).length := by
    rw [List.length_append, m.length_bytes]
    omega
  have hmagic : ¬(4 ≤ (m.bytes ++ rest).length ∧ (m.bytes ++ rest).take 4 ≠ magicBytes) :=
    fun h => h.2 (m.take_bytes rest)
  refine (if_neg hmagic).trans ((if_pos hlen).trans ?_)
  rw [List.take_left' m.length_bytes, m.length_bytes]

/-- Messages are taken one by one. -/
lemma scan_messages (l : List UpMsg) (rest : List UInt8) :
    upstreamScanner.scan 0 (l.flatMap UpMsg.bytes ++ rest) =
      (l.map UpMsg.bytes ++ (upstreamScanner.scan 0 rest).1, (upstreamScanner.scan 0 rest).2) :=
  upstreamScanner.scan_flatMap (look_message 0) l rest

/-- The beginning of a message is waited on. -/
lemma look_part (g : ℕ) (m : UpMsg) {r : ℕ} (h : r < clientMsgSize) :
    upstreamScanner.look g (m.bytes.take r) = .more := by
  have hlen : (m.bytes.take r).length = r := by
    rw [List.length_take, m.length_bytes, Nat.min_eq_left h.le]
  have hmagic : ¬(4 ≤ (m.bytes.take r).length ∧ (m.bytes.take r).take 4 ≠ magicBytes) := by
    rintro ⟨h4, hne⟩
    rw [hlen] at h4
    have := m.take_bytes []
    rw [List.take_take, Nat.min_eq_left h4] at hne
    rw [List.append_nil] at this
    exact hne this
  exact (if_neg hmagic).trans (if_neg (by rw [hlen]; omega))

/-- What was read of a stream of messages: those that are complete. -/
lemma scan_take_messages (l : List UpMsg) (n : ℕ) :
    ∃ rest, upstreamScanner.scan 0 ((l.flatMap UpMsg.bytes).take n) =
      ((l.take (n / clientMsgSize)).map UpMsg.bytes, some (0, rest)) := by
  have hr : n % clientMsgSize < clientMsgSize := Nat.mod_lt _ (by decide)
  rw [take_split, scan_messages]
  obtain hnil | ⟨m, hm⟩ := part_of_message (l.drop (n / clientMsgSize)) hr
  · rw [hnil, upstreamScanner.scan_more rfl, List.append_nil]
    exact ⟨_, rfl⟩
  · rw [hm, upstreamScanner.scan_more (look_part 0 m hr), List.append_nil]
    exact ⟨_, rfl⟩

lemma filterMap_heard {l : List UpMsg} (h : ∀ m ∈ l, m.Fits) (feedback input : Bool) :
    (l.map UpMsg.bytes).filterMap (UpMsg.heard feedback input) =
      l.filter (UpMsg.granted feedback input) := by
  induction l with
  | nil => rfl
  | cons m l ih =>
      rw [List.map_cons, List.filterMap_cons, UpMsg.heard_bytes (h m List.mem_cons_self),
        ih fun m' hm' => h m' (List.mem_cons_of_mem _ hm'), List.filter_cons]
      cases m.granted feedback input <;> rfl

/-- Reads of the first bytes of a wire. -/
lemma reading_of {wire : List UInt8} (n : ℕ) (reads : List ℕ) :
    let s := reads.foldl onClientIo { unread := wire.take n }
    upstreamScanner.scan 0 (wire.take ((wire.take n).length - s.unread.length)) =
      (s.msgs, s.parser.map Upstream.scanState) := by
  have hstart : ({ unread := wire.take n } : Reading).Scanned (wire.take n) := by
    refine ⟨⟨[], rfl, upstreamScanner.scan_more rfl⟩, fun u hu => ?_⟩
    obtain rfl := Option.some.inj hu
    decide
  obtain ⟨⟨p, hp, hs⟩, -⟩ : (reads.foldl onClientIo { unread := wire.take n }).Scanned _ :=
    run_keeps (fun _ n hs => hs.onClientIo n) hstart reads
  intro s
  have hlen : (wire.take n).length - s.unread.length = p.length := by
    rw [hp, List.length_append]
    exact Nat.add_sub_cancel _ _
  have hpre : p <+: wire := (hp ▸ List.prefix_append p _ : p <+: wire.take n).trans
    (List.take_prefix n wire)
  rw [hlen, ← List.prefix_iff_eq_take.mp hpre]
  exact hs

namespace ViewNet

lemma carried_mem {log : List (Upsend × List SendCall)} {n : ViewNet} {m : UpMsg}
    (h : m ∈ carried n log) : ∃ a ∈ log, m ∈ a.1.msgs := by
  induction log generalizing n with
  | nil => cases h
  | cons a log ih =>
      rw [carried, List.mem_append] at h
      obtain h | h := h
      · split at h
        · exact ⟨a, List.mem_cons_self, List.mem_of_mem_take h⟩
        · cases h
      · obtain ⟨b, hb, hm⟩ := ih h
        exact ⟨b, List.mem_cons_of_mem _ hb, hm⟩

/-- **Nothing is lost or made up upstream.**  In every run of the two threads whose cuts fall
between messages, whatever part of the wire has arrived and whatever the reads, the client is not
dropped, and what the server has heard are the granted ones of the messages that reached the socket
whole, in order, each as soon as its last byte was read. -/
theorem upstream_intact {log : List (Upsend × List SendCall)} (hwhole : Whole log)
    (hfits : ∀ a ∈ log, ∀ m ∈ a.1.msgs, m.Fits) (feedback input : Bool) (n : ℕ)
    (reads : List ℕ) :
    let net := log.foldl send {}
    let s := reads.foldl onClientIo { unread := net.wire.take n }
    let done := ((net.wire.take n).length - s.unread.length) / clientMsgSize
    s.parser ≠ none ∧
      s.msgs.filterMap (UpMsg.heard feedback input) =
        ((carried {} log).take done).filter (UpMsg.granted feedback input) := by
  intro net s done
  have hs : upstreamScanner.scan 0
      (net.wire.take ((net.wire.take n).length - s.unread.length)) =
        (s.msgs, s.parser.map Upstream.scanState) := reading_of n reads
  have hwire : net.wire = (carried {} log).flatMap UpMsg.bytes := wire_run hwhole {}
  obtain ⟨rest, hscan⟩ := scan_take_messages (carried {} log)
    ((net.wire.take n).length - s.unread.length)
  rw [← hwire, hs, Prod.mk.injEq] at hscan
  refine ⟨fun hnone => ?_, ?_⟩
  · rw [show s.parser = none from hnone] at hscan
    exact absurd hscan.2 (by simp)
  · rw [show s.msgs = _ from hscan.1]
    refine filterMap_heard (fun m hm => ?_) feedback input
    obtain ⟨a, ha, hma⟩ := carried_mem (List.mem_of_mem_take hm)
    exact hfits a ha m hma

/-- A PONG in two pieces, then a flush that is cut after the first of its two messages. -/
theorem upstream_intact_ping :
    let net := ([(.onPing 7, [.took 5, .intr, .took 11]),
      (.inFlush [⟨indevKeyboard, Evdev.key, 30, 1⟩, ⟨indevKeyboard, Evdev.syn, 0, 0⟩],
        [.took 16, .full false])] : List (Upsend × List SendCall)).foldl send {}
    let s := [20, 3, 9].foldl onClientIo { unread := net.wire.take 100 }
    let done := ((net.wire.take 100).length - s.unread.length) / clientMsgSize
    s.parser ≠ none ∧ s.msgs.filterMap (UpMsg.heard true true) =
      ([.pong 7, .input ⟨indevKeyboard, Evdev.key, 30, 1⟩].take done).filter
        (UpMsg.granted true true) := by
  refine upstream_intact (by unfold Whole; decide) (fun a ha m hm => ?_) true true 100 [20, 3, 9]
  obtain rfl | rfl : _ ∨ _ := by simpa using ha
  · obtain rfl : m = .pong 7 := by simpa [Upsend.msgs] using hm
    trivial
  · obtain rfl | rfl : _ ∨ _ := by simpa [Upsend.msgs] using hm
    all_goals exact ⟨by decide, by decide, by decide, by decide, by decide⟩

end ViewNet

/-! ## A message cut in the middle -/

/-- The magic does not occur once more inside the message. -/
def UpMsg.Plain (m : UpMsg) : Prop :=
  ∀ j, 1 ≤ j → j + 4 ≤ clientMsgSize → (m.bytes.drop j).take 4 ≠ magicBytes

/-- An event whose type and code exist is such a message, but for one value. -/
lemma InputMsg.plain {m : InputMsg} (ht : m.evType < 0x20) (hc : m.evCode < Evdev.keyCnt)
    (hv : (m.evValue % 2 ^ 32).toNat ≠ magic.toNat) : (UpMsg.input m).Plain := by
  intro j h1 h12 h
  have hget : ∀ k < 4, m.bytes.getD (j + k) 0 = magicBytes.getD k 0 := by
    intro k hk
    rw [← h, List.getD_eq_getElem?_getD, List.getD_eq_getElem?_getD, List.getElem?_take_of_lt hk,
      List.getElem?_drop]
    rfl
  have hword : ∀ {n : ℕ} {b : UInt8}, n < 256 → UInt8.ofNat n = b → n = b.toNat := by
    rintro n b hn rfl
    rw [UInt8.toNat_ofNat', Nat.mod_eq_of_lt hn]
  have h0 : m.bytes.getD j 0 = 0x72 := hget 0 (by decide)
  have hs : m.bytes.getD (j + 1) 0 = 0x46 := hget 1 (by decide)
  -- the magic would begin in its own magic, type, device or reserved bytes, in the type or code
  -- of the event, or be its value
  have hj : j ≤ 12 := by simpa [clientMsgSize] using h12
  interval_cases j
  · exact absurd (show (0x46 : UInt8) = 0x72 from h0) (by decide)
  · exact absurd (show (0x62 : UInt8) = 0x72 from h0) (by decide)
  · exact absurd (show (0x30 : UInt8) = 0x72 from h0) (by decide)
  · exact absurd (show (2 : UInt8) = 0x72 from h0) (by decide)
  · exact absurd (show (0 : UInt8) = 0x46 from hs) (by decide)
  · exact absurd (show (0 : UInt8) = 0x72 from h0) (by decide)
  · exact absurd (show (0 : UInt8) = 0x72 from h0) (by decide)
  · have := hword (Nat.mod_lt _ (by decide)) (h0 : UInt8.ofNat (m.evType % 256) = 0x72)
    rw [show (0x72 : UInt8).toNat = 0x72 from rfl] at this
    omega
  · have := hword (Nat.mod_lt _ (by decide)) (h0 : UInt8.ofNat (m.evType / 256 % 256) = 0x72)
    rw [show (0x72 : UInt8).toNat = 0x72 from rfl] at this
    omega
  · have := hword (Nat.mod_lt _ (by decide)) (hs : UInt8.ofNat (m.evCode / 256 % 256) = 0x46)
    rw [show (0x46 : UInt8).toNat = 0x46 from rfl] at this
    simp only [Evdev.keyCnt] at hc
    omega
  · have := hword (Nat.mod_lt _ (by decide)) (h0 : UInt8.ofNat (m.evCode / 256 % 256) = 0x72)
    rw [show (0x72 : UInt8).toNat = 0x72 from rfl] at this
    simp only [Evdev.keyCnt] at hc
    omega
  · refine hv ?_
    have hbytes : leBytes 4 (m.evValue % 2 ^ 32).toNat = leBytes 4 magic.toNat := h
    have hlt : (m.evValue % 2 ^ 32).toNat < 256 ^ 4 := by
      norm_num
      omega
    rw [← ofLe_leBytes_of_lt hlt, hbytes, ofLe_leBytes_of_lt (by decide)]

namespace ViewNet

end ViewNet

/-! ## What a splice does to the devices -/

namespace UpMsg

/-- A byte of the magic is neither small nor has its high bit set. -/
lemma magic_byte (m : UpMsg) {i : ℕ} (hi : i < 4) :
    0x30 ≤ (m.bytes.getD i 0).toNat ∧ (m.bytes.getD i 0).toNat ≤ 0x72 := by
  have hbytes : ∀ i < 4, 0x30 ≤ (magicBytes.getD i 0).toNat ∧
      (magicBytes.getD i 0).toNat ≤ 0x72 := by decide
  have hget : m.bytes.getD i 0 = magicBytes.getD i 0 := by
    rw [← m.take_bytes [], List.append_nil, List.getD_eq_getElem?_getD,
      List.getD_eq_getElem?_getD, List.getElem?_take_of_lt hi]
  rw [hget]
  exact hbytes i hi

end UpMsg

/-- A field of an INPUT message from its bytes. -/
lemma InputMsg.ofBytes_eq {b : List UInt8} (h : b.length = clientMsgSize) :
    InputMsg.ofBytes b =
      { dev := (b.getD 5 0).toNat
        evType := (b.getD 8 0).toNat + 256 * (b.getD 9 0).toNat
        evCode := (b.getD 10 0).toNat + 256 * (b.getD 11 0).toNat
        evValue := intOfSize ((b.getD 12 0).toNat + 256 * ((b.getD 13 0).toNat +
          256 * ((b.getD 14 0).toNat + 256 * (b.getD 15 0).toNat))) } := by
  have h2 : ∀ k, k + 1 < clientMsgSize → (b.drop k).take 2 = [b.getD k 0, b.getD (k + 1) 0] := by
    intro k hk
    have h₁ : k < b.length := by omega
    have h₂ : k + 1 < b.length := by omega
    rw [List.drop_eq_getElem_cons h₁, List.drop_eq_getElem_cons h₂, List.getD_eq_getElem?_getD,
      List.getD_eq_getElem?_getD, List.getElem?_eq_getElem h₁, List.getElem?_eq_getElem h₂]
    rfl
  have h4 : (b.drop 12).take 4 = (b.drop 12).take 2 ++ (b.drop 14).take 2 := by
    rw [← List.take_append_drop 2 ((b.drop 12).take 4), List.take_take, List.drop_take,
      List.drop_drop]
    rfl
  rw [InputMsg.ofBytes, h4, h2 8 (by decide), h2 10 (by decide), h2 12 (by decide),
    h2 14 (by decide)]
  simp [ofLe]

lemma getD_splice {a b : List UInt8} {r i : ℕ} (hr : r ≤ a.length) (hi : i < clientMsgSize) :
    (a.take r ++ b.take (clientMsgSize - r)).getD i 0 =
      if i < r then a.getD i 0 else b.getD (i - r) 0 := by
  have hlen : (a.take r).length = r := by
    rw [List.length_take, Nat.min_eq_left hr]
  rw [List.getD_eq_getElem?_getD]
  split
  · rename_i h
    rw [List.getElem?_append_left (by omega), List.getElem?_take_of_lt h,
      List.getD_eq_getElem?_getD]
  · rename_i h
    rw [List.getElem?_append_right (by omega), hlen, List.getElem?_take_of_lt (by omega),
      List.getD_eq_getElem?_getD]

/-- A message that is no key event the device could take leaves the keys alone. -/
lemma Input.msg_down (place : ℕ → ℤ → Option ℤ) (s : Input) {x : InputMsg}
    (hdev : x.dev ≠ indevAll)
    (hkey : x.evType = Evdev.key → Evdev.keyCnt ≤ x.evCode ∨ (x.evValue ≠ 0 ∧ x.evValue ≠ 1))
    (i : ℕ) : ((s.msg place x).dev i).down = (s.dev i).down := by
  have hemit : ∀ (t : Input) e, t.dev = s.dev →
      ((t.emit x.dev (s.dev x.dev) e).dev i).down = (s.dev i).down := by
    intro t e ht
    simp only [Input.emit, ht, Function.update_apply]
    split
    · rename_i hi
      rw [hi]
      rfl
    · rfl
  have hdrop : x.evType = Evdev.key → Evdev.keyCnt ≤ x.evCode ∨
      (s.dev x.dev).keys x.evCode = false ∨ (x.evValue ≠ 0 ∧ x.evValue ≠ 1) :=
    fun h => (hkey h).imp_right .inr
  let keeps : Input → Prop := fun t => (t.dev i).down = (s.dev i).down
  have hkeep : keeps s := rfl
  change keeps (s.msg place x)
  rw [Input.msg, if_neg hdev]
  refine iteInduction (fun _ => hkeep) fun _ => iteInduction (fun _ => hkeep) fun _ => ?_
  refine iteInduction (fun _ => iteInduction (fun _ => hkeep) fun _ => hemit _ _ rfl) fun _ => ?_
  refine iteInduction (fun h => ?_) fun _ => ?_
  · exact iteInduction (fun _ => hkeep) fun hlive => absurd (hdrop h) hlive
  refine iteInduction (fun _ => iteInduction (fun _ => hkeep) fun _ => hemit _ _ rfl) fun _ => ?_
  refine iteInduction (fun _ => iteInduction (fun _ => hkeep) fun _ => ?_) fun _ => hkeep
  refine iteInduction (fun _ => ?_) fun _ => hemit _ _ rfl
  cases place x.evCode x.evValue with
  | none => rfl
  | some v => exact hemit _ _ rfl

namespace InputMsg

variable {m : InputMsg} {r : ℕ}

/-- The fields of a splice whose device is the torn message's own.  What the magic falls into is
large. -/
lemma splice_fields (m' : UpMsg) (h : m.Fits) (h6 : 6 ≤ r) (h16 : r < clientMsgSize) :
    let x := ofBytes (m.bytes.take r ++ m'.bytes.take (clientMsgSize - r))
    x.dev = m.dev ∧ (256 ≤ x.evType ∨
      x.evType = m.evType ∧ (Evdev.keyCnt ≤ x.evCode ∨ x.evValue ≠ 0 ∧ x.evValue ≠ 1)) := by
  have hr : r ≤ m.bytes.length := ((UpMsg.input m).length_bytes ▸ h16.le : _)
  have hlen : (m.bytes.take r ++ m'.bytes.take (clientMsgSize - r)).length = clientMsgSize := by
    rw [List.length_append, List.length_take, List.length_take, m'.length_bytes]
    omega
  have hown : ∀ i < r, (m.bytes.take r ++ m'.bytes.take (clientMsgSize - r)).getD i 0 =
      m.bytes.getD i 0 := fun i hi => by rw [getD_splice hr (by omega), if_pos hi]
  have hlarge : ∀ i, r ≤ i → i < r + 4 → i < clientMsgSize →
      0x30 ≤ ((m.bytes.take r ++ m'.bytes.take (clientMsgSize - r)).getD i 0).toNat ∧
        ((m.bytes.take r ++ m'.bytes.take (clientMsgSize - r)).getD i 0).toNat ≤ 0x72 := by
    intro i h₁ h₂ h₃
    rw [getD_splice hr h₃, if_neg (by omega)]
    exact m'.magic_byte (by omega)
  have hfits : m.bytes.length = clientMsgSize := (UpMsg.input m).length_bytes
  have hm := ofBytes_bytes h
  rw [ofBytes_eq hfits] at hm
  intro x
  have hx : x = _ := ofBytes_eq hlen
  rw [hx]
  refine ⟨(congrArg UInt8.toNat (hown 5 (by omega))).trans (congrArg InputMsg.dev hm), ?_⟩
  dsimp only
  by_cases h10 : r < 10
  · have := hlarge 9 (by omega) (by omega) (by decide)
    exact .inl (by omega)
  · refine .inr ⟨?_, ?_⟩
    · rw [hown 8 (by omega), hown 9 (by omega)]
      exact congrArg InputMsg.evType hm
    · by_cases h12 : r < 12
      · have := hlarge 11 (by omega) (by omega) (by decide)
        exact .inl (by simp only [Evdev.keyCnt]; omega)
      · have h15 := hlarge 15 (Nat.le_of_lt_succ h16) (by omega) (by decide)
        have hb := fun i => (((m.bytes.take r ++ m'.bytes.take (clientMsgSize - r)).getD i
          0).toNat_lt)
        have h12 := hb 12
        have h13 := hb 13
        have h14 := hb 14
        refine .inr ?_
        rw [intOfSize_of_lt (by omega)]
        omega

/-- **A splice presses nothing and releases nothing.**  The beginning of a torn INPUT message, at
least its magic, with the beginning of whatever came next is never a PONG, and as an INPUT message
it leaves every key and button of every device as it was, unless the torn message was the one that
releases all: then the splice is that message. -/
theorem splice_keeps_keys (h : m.Fits) (h4 : 4 ≤ r) (h16 : r < clientMsgSize) (m' : UpMsg)
    (feedback input : Bool) (place : ℕ → ℤ → Option ℤ) (s : Input) :
    let heard := UpMsg.heard feedback input (m.bytes.take r ++ m'.bytes.take (clientMsgSize - r))
    heard = none ∨ ∃ x, heard = some (.input x) ∧
      ((∀ i, ((s.msg place x).dev i).down = (s.dev i).down) ∨
        m.dev = indevAll ∧ m.evType = 0 ∧ s.msg place x = s.msg place m) := by
  have hr : r ≤ m.bytes.length := ((UpMsg.input m).length_bytes ▸ h16.le : _)
  set b := m.bytes.take r ++ m'.bytes.take (clientMsgSize - r) with hb
  have htype : b.getD 4 0 = if 4 < r then 2 else m'.bytes.getD 0 0 := by
    rw [hb, getD_splice hr (by decide)]
    split
    · rfl
    · rw [Nat.sub_eq_zero_of_le h4]
  intro heard
  by_cases hgo : 4 < r ∧ input = true
  · obtain ⟨hr4, hin⟩ := hgo
    rw [if_pos hr4] at htype
    have hdispatch : dispatch feedback input b = some (.input b) := by
      rw [dispatch, htype, if_neg fun h => absurd h.1 (by decide), if_pos ⟨rfl, hin⟩]
    have hheard : heard = some (.input (ofBytes b)) := by
      simp only [heard, UpMsg.heard, hdispatch]
    refine .inr ⟨_, hheard, ?_⟩
    by_cases h5 : r = 5
    · -- the device is the first byte of the next magic
      have hdev : 0x30 ≤ (ofBytes b).dev := by
        have := (m'.magic_byte (i := 0) (by decide)).1
        subst h5
        rwa [ofBytes, hb, getD_splice hr (by decide), if_neg (by decide)]
      refine .inl fun i => ?_
      rw [Input.msg, if_neg (by simp only [indevAll]; omega),
        if_pos (by simp only [indevGamepad]; omega)]
    · obtain ⟨hdev, hrest⟩ := splice_fields m' h (by omega : 6 ≤ r) h16
      rw [← hb] at hdev hrest
      by_cases hall : (ofBytes b).dev = indevAll
      · by_cases hzero : (ofBytes b).evType = 0
        · have hsame : (ofBytes b).evType = m.evType := by
            obtain hbig | ⟨hsame, -⟩ := hrest
            · omega
            · exact hsame
          refine .inr ⟨hdev ▸ hall, hsame ▸ hzero, ?_⟩
          rw [Input.msg, Input.msg, if_pos hall, if_pos hzero, if_pos (hdev ▸ hall),
            if_pos (hsame ▸ hzero)]
        · refine .inl fun i => ?_
          rw [Input.msg, if_pos hall, if_neg hzero]
      · refine .inl (s.msg_down place hall fun hkey => ?_)
        obtain hbig | ⟨-, hdead⟩ := hrest
        · rw [hkey] at hbig
          exact absurd hbig (by decide)
        · exact hdead
  · refine .inl ?_
    have hnot : dispatch feedback input b = none := by
      by_cases hr4 : 4 < r
      · have hin : input = false := by simpa [hr4] using hgo
        rw [if_pos hr4] at htype
        rw [dispatch, htype, hin, if_neg fun h => absurd h.1 (by decide),
          if_neg fun h => Bool.noConfusion h.2]
      · have := m'.magic_byte (i := 0) (by decide)
        rw [if_neg hr4] at htype
        rw [← htype] at this
        have h1 : b.getD 4 0 ≠ 1 := fun h => by rw [h] at this; exact absurd this.1 (by decide)
        have h2 : b.getD 4 0 ≠ 2 := fun h => by rw [h] at this; exact absurd this.1 (by decide)
        rw [dispatch, if_neg fun h => h1 h.1, if_neg fun h => h2 h.1]
    simp only [heard, UpMsg.heard, hnot]

/-- A press that is cut inside its code, then a PONG. -/
theorem splice_keeps_keys_press :
    let m : InputMsg := ⟨indevKeyboard, Evdev.key, 30, 1⟩
    let s : Input := { dev := fun i => indevOf true i }
    let heard := UpMsg.heard true true
      (m.bytes.take 11 ++ (UpMsg.pong 7).bytes.take (clientMsgSize - 11))
    heard = none ∨ ∃ x, heard = some (.input x) ∧
      ((∀ i, ((s.msg (fun _ _ => none) x).dev i).down = (s.dev i).down) ∨
        m.dev = indevAll ∧ m.evType = 0 ∧
          s.msg (fun _ _ => none) x = s.msg (fun _ _ => none) m) :=
  splice_keeps_keys ⟨by decide, by decide, by decide, by decide, by decide⟩ (by decide)
    (by decide) _ true true _ _

end InputMsg

end Sremfb
