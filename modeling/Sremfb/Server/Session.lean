import Sremfb.Server.Client
import Sremfb.Lib.Run
import Sremfb.Lib.Scan

/-!
# Sessions: the client hello and the upstream parser (`session.c`)

A connection starts with a hello, which `hello_valid` checks and whose flags become the
negotiated features.  After that the client sends fixed 16-byte messages.  The parser hunts
byte-wise for the magic at the start of its buffer and gives up on a client after more than 256
bytes of garbage since the last message.

Bytes arrive in reads of any size, so the parser stops and resumes anywhere: inside a magic,
inside a message, in the middle of garbage.  `upstreamScanner` is the reference, a resumable
scanner in the sense of `Lib.Scanner`; `parse_eq_scan` says the source's two nested loops compute
it, and the law of chunking then gives `upstream_chunking`: whatever the reads, the messages and
the decision to drop are those of one scan over the bytes read.
-/

namespace Sremfb

open Lib

/-! ## The hello -/

/-- The fields of `struct sremfb_client_hello` the server decides on. -/
structure ClientHello where
  magic : UInt32
  protoVer : UInt16
  flags : UInt16
  xres : UInt16
  yres : UInt16
  bpp : UInt8
  pixfmt : UInt8
  deriving DecidableEq, Repr

/-- `hello_valid`. -/
def helloValid (h : ClientHello) : Bool :=
  if h.magic ≠ magic ∨ h.protoVer ≠ protoVer then false
  else if h.xres = 0 ∨ h.yres = 0 then false
  else if h.pixfmt = PixFmt.xrgb8888.code ∧ h.bpp = 32 then true
  else if h.pixfmt = PixFmt.rgb565.code ∧ h.bpp = 16 then true
  else false

/-- What `on_listen_ready` keeps of a hello. -/
def Negotiated.ofHello (h : ClientHello) : Negotiated where
  xres := h.xres
  yres := h.yres
  pixfmt := if h.pixfmt = PixFmt.rgb565.code then .rgb565 else .xrgb8888
  lz4 := h.flags &&& 1 ≠ 0
  feedback := h.flags &&& 2 ≠ 0
  h264Cap := h.flags &&& 4 ≠ 0

/-! ## The parser -/

/-- `sizeof(struct sremfb_client_msg)`. -/
def clientMsgSize : ℕ := 16

def magicBytes : List UInt8 := leBytes 4 magic.toNat

/-- The receive side of a client: the first `recvlen` bytes of `recvbuf`, and `recv_garbage`. -/
structure Upstream where
  recvbuf : List UInt8 := []
  recvGarbage : ℕ := 0
  deriving DecidableEq, Repr

/-- The loop that hunts for the magic; the flag says that it gave up. -/
def hunt (garbage : ℕ) : List UInt8 → List UInt8 × ℕ × Bool
  | [] => ([], garbage, false)
  | b :: rest =>
      if 4 ≤ (b :: rest).length ∧ (b :: rest).take 4 ≠ magicBytes then
        if garbage + 1 > 256 then (rest, garbage + 1, true) else hunt (garbage + 1) rest
      else (b :: rest, garbage, false)

lemma hunt_length (g : ℕ) (l : List UInt8) : (hunt g l).1.length ≤ l.length := by
  induction l generalizing g with
  | nil => simp [hunt]
  | cons b rest ih =>
      rw [hunt]
      split
      · split
        · simp
        · exact (ih _).trans (by simp)
      · exact le_rfl

/-- `client_parse_upstream`: the messages dispatched, and the state it leaves, or `none` when
it scheduled the client for loss. -/
def clientParseUpstream (u : Upstream) : List (List UInt8) × Option Upstream :=
  match _h : hunt u.recvGarbage u.recvbuf with
  | (_, _, true) => ([], none)
  | (buf, garbage, false) =>
      if buf.length < clientMsgSize then ([], some { recvbuf := buf, recvGarbage := garbage })
      else
        let r := clientParseUpstream { recvbuf := buf.drop clientMsgSize, recvGarbage := 0 }
        (buf.take clientMsgSize :: r.1, r.2)
termination_by u.recvbuf.length
decreasing_by
  have := hunt_length u.recvGarbage u.recvbuf
  rw [_h] at this
  simp only [clientMsgSize, List.length_drop] at *
  omega

/-- What becomes of a message. -/
inductive Upcall
  /-- `sremfb_ctl_on_pong`. -/
  | pong (tEcho : UInt64)
  /-- `sremfb_input_msg`. -/
  | input (msg : List UInt8)
  deriving DecidableEq

/-- The dispatch at the end of the loop; `input` says that input was negotiated.  Other types
are ignored. -/
def dispatch (feedback input : Bool) (msg : List UInt8) : Option Upcall :=
  if msg.getD 4 0 = 1 ∧ feedback = true then
    some (.pong (UInt64.ofNat (ofLe ((msg.drop 8).take 8))))
  else if msg.getD 4 0 = 2 ∧ input = true then some (.input msg)
  else none

/-! ## The reads -/

/-- `sizeof(recvbuf)`. -/
def recvbufSize : ℕ := 1024

/-- A client's upstream while its bytes come in: what is still unread, what was dispatched and
the parser, `none` after the drop. -/
structure Reading where
  unread : List UInt8
  msgs : List (List UInt8) := []
  parser : Option Upstream := some {}

/-- `on_client_io` with a readable socket: a read of at most `n` bytes into the room left, then
the parser. -/
def onClientIo (s : Reading) (n : ℕ) : Reading :=
  match s.parser with
  | none => s
  | some u =>
      let k := min n (recvbufSize - u.recvbuf.length)
      let r := clientParseUpstream { u with recvbuf := u.recvbuf ++ s.unread.take k }
      { unread := s.unread.drop k, msgs := s.msgs ++ r.1, parser := r.2 }

/-! ## The reference scan -/

/-- One decision of the reference: skip a byte while the four bytes at the cursor are not the
magic, else take sixteen; more than 256 bytes skipped since the last message end it. -/
def upstreamLook (garbage : ℕ) (l : List UInt8) : Verdict ℕ (List UInt8) :=
  if 4 ≤ l.length ∧ l.take 4 ≠ magicBytes then
    if garbage + 1 > 256 then .stop else .take 1 (garbage + 1) none
  else if clientMsgSize ≤ l.length then .take clientMsgSize 0 (some (l.take clientMsgSize))
  else .more

def upstreamScanner : Scanner UInt8 ℕ (List UInt8) where
  look := upstreamLook
  take_pos := by
    intro s l n s' out h
    unfold upstreamLook at h
    split_ifs at h with h4 hg h16
    · obtain ⟨rfl, -, -⟩ := h
      omega
    · obtain ⟨rfl, -, -⟩ := h
      exact ⟨by decide, h16⟩
  stable := by
    intro s l h l'
    unfold upstreamLook at *
    by_cases h4 : 4 ≤ l.length
    · have ht : (l ++ l').take 4 = l.take 4 := List.take_append_of_le_length h4
      have h4' : 4 ≤ (l ++ l').length := by rw [List.length_append]; omega
      by_cases hm : l.take 4 = magicBytes
      · simp only [ht, hm, ne_eq, not_true_eq_false, and_false, if_false] at *
        by_cases h16 : clientMsgSize ≤ l.length
        · have h16' : clientMsgSize ≤ (l ++ l').length := by rw [List.length_append]; omega
          rw [if_pos h16, if_pos h16', List.take_append_of_le_length h16]
        · rw [if_neg h16] at h
          exact absurd rfl h
      · simp only [ht, hm, h4, h4', ne_eq, not_false_eq_true, and_self, if_true]
    · have hn : ¬clientMsgSize ≤ l.length := by simp only [clientMsgSize]; omega
      simp [h4, hn] at h

/-! ## The loops compute the reference -/

/-- The state the reference scan is in. -/
def Upstream.scanState (u : Upstream) : ℕ × List UInt8 := (u.recvGarbage, u.recvbuf)

/-- Hunting skips, and ends where the reference would not skip. -/
lemma hunt_spec (g : ℕ) (l : List UInt8) :
    ((hunt g l).2.2 = true → upstreamScanner.scan g l = ([], none)) ∧
      ((hunt g l).2.2 = false →
        upstreamScanner.scan g l = upstreamScanner.scan (hunt g l).2.1 (hunt g l).1 ∧
          ¬(4 ≤ (hunt g l).1.length ∧ (hunt g l).1.take 4 ≠ magicBytes)) := by
  induction l generalizing g with
  | nil => simp [hunt]
  | cons b rest ih =>
      rw [hunt]
      by_cases hc : 4 ≤ (b :: rest).length ∧ (b :: rest).take 4 ≠ magicBytes
      · rw [if_pos hc]
        by_cases hg : g + 1 > 256
        · rw [if_pos hg]
          refine ⟨fun _ => upstreamScanner.scan_stop ?_, fun h => Bool.noConfusion h⟩
          exact (if_pos hc).trans (if_pos hg)
        · rw [if_neg hg]
          have hlook : upstreamScanner.look g (b :: rest) = .take 1 (g + 1) none :=
            (if_pos hc).trans (if_neg hg)
          have hskip : upstreamScanner.scan g (b :: rest) = upstreamScanner.scan (g + 1) rest := by
            rw [upstreamScanner.scan_take hlook]
            rfl
          rw [hskip]
          exact ih (g + 1)
      · rw [if_neg hc]
        exact ⟨fun h => Bool.noConfusion h, fun _ => ⟨rfl, hc⟩⟩

/-- **The parser is the reference scan** of what its buffer holds. -/
lemma parse_eq_scan (u : Upstream) :
    upstreamScanner.scan u.recvGarbage u.recvbuf =
      ((clientParseUpstream u).1, (clientParseUpstream u).2.map Upstream.scanState) := by
  induction hn : u.recvbuf.length using Nat.strongRecOn generalizing u with
  | ind n ih =>
      obtain ⟨hdrop, hkeep⟩ := hunt_spec u.recvGarbage u.recvbuf
      have hle := hunt_length u.recvGarbage u.recvbuf
      rw [clientParseUpstream]
      split
      · rename_i hh
        rw [hh] at hdrop
        simpa using hdrop rfl
      · rename_i buf garbage hh
        rw [hh] at hkeep hle
        obtain ⟨hscan, hmagic⟩ := hkeep rfl
        rw [hscan]
        by_cases hlen : buf.length < clientMsgSize
        · have hlook : upstreamScanner.look garbage buf = .more :=
            (if_neg hmagic).trans (if_neg (not_le.mpr hlen))
          rw [if_pos hlen, upstreamScanner.scan_more hlook]
          rfl
        · have hlook : upstreamScanner.look garbage buf =
              .take clientMsgSize 0 (some (buf.take clientMsgSize)) :=
            (if_neg hmagic).trans (if_pos (not_lt.mp hlen))
          have hshort : (buf.drop clientMsgSize).length < n := by
            simp only [clientMsgSize, List.length_drop] at *
            omega
          rw [if_neg hlen, upstreamScanner.scan_take hlook]
          have := ih _ hshort { recvbuf := buf.drop clientMsgSize, recvGarbage := 0 } rfl
          rw [this]
          rfl

/-- The parser leaves less than a message. -/
lemma parse_short {u u' : Upstream} (h : (clientParseUpstream u).2 = some u') :
    u'.recvbuf.length < clientMsgSize := by
  have hs := parse_eq_scan u
  rw [h] at hs
  have hlook : upstreamLook u'.recvGarbage u'.recvbuf = .more := upstreamScanner.look_of_scan hs
  by_contra hlen
  unfold upstreamLook at hlook
  rw [if_pos (not_lt.mp hlen)] at hlook
  split_ifs at hlook

/-- What was read of the stream so far is scanned, and the parser holds less than a message. -/
structure Reading.Scanned (stream : List UInt8) (s : Reading) : Prop where
  split : ∃ p, stream = p ++ s.unread ∧
    upstreamScanner.scan 0 p = (s.msgs, s.parser.map Upstream.scanState)
  short : ∀ u, s.parser = some u → u.recvbuf.length < clientMsgSize

/-- A read and a parse are one resumption of the scan. -/
lemma Reading.Scanned.onClientIo {stream : List UInt8} {s : Reading} (h : s.Scanned stream)
    (n : ℕ) : (onClientIo s n).Scanned stream := by
  obtain ⟨⟨p, hp, hs⟩, -⟩ := h
  unfold Sremfb.onClientIo
  cases hq : s.parser with
  | none =>
      rw [hq] at hs
      exact ⟨⟨p, hp, by rw [hs, hq]⟩, fun u hu => absurd (hq.symm.trans hu) (by simp)⟩
  | some u =>
      rw [hq] at hs
      dsimp only
      set k := min n (recvbufSize - u.recvbuf.length)
      refine ⟨⟨p ++ s.unread.take k, ?_, ?_⟩, fun u' hu' => parse_short hu'⟩
      · rw [hp, List.append_assoc, List.take_append_drop]
      · rw [upstreamScanner.scan_append, hs]
        have hparse := parse_eq_scan { u with recvbuf := u.recvbuf ++ s.unread.take k }
        simp only [Scanner.resume, Option.map_some, Upstream.scanState]
        rw [hparse]

/-- **Chunking.**  For every stream and every sequence of reads, what was dispatched and whether
the client was dropped are what one reference scan gives over the bytes read; after a drop this
is the scan over the whole stream.  Without a drop the parser is left with less than a message,
so the next read has room. -/
theorem upstream_chunking (stream : List UInt8) (reads : List ℕ) :
    let s := reads.foldl onClientIo { unread := stream }
    (∃ p, stream = p ++ s.unread ∧
      upstreamScanner.scan 0 p = (s.msgs, s.parser.map Upstream.scanState)) ∧
    (s.parser = none → upstreamScanner.scan 0 stream = (s.msgs, none)) ∧
    ∀ u, s.parser = some u →
      u.recvbuf.length < clientMsgSize ∧ 0 < recvbufSize - u.recvbuf.length := by
  have hstart : ({ unread := stream } : Reading).Scanned stream := by
    refine ⟨⟨[], rfl, upstreamScanner.scan_more rfl⟩, fun u hu => ?_⟩
    obtain rfl := Option.some.inj hu
    decide
  obtain ⟨⟨p, hp, hs⟩, hu⟩ : (reads.foldl onClientIo { unread := stream }).Scanned stream :=
    run_keeps (fun _ n hs => hs.onClientIo n) hstart reads
  intro s
  refine ⟨⟨p, hp, hs⟩, fun hnone => ?_, fun u h => ⟨hu u h, ?_⟩⟩
  · rw [show s.parser = none from hnone] at hs
    rw [hp, upstreamScanner.scan_append, hs]
    rfl
  · have hlen := hu u h
    simp only [clientMsgSize, recvbufSize] at *
    omega

end Sremfb
