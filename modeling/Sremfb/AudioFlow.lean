import Sremfb.Lib.Serial
import Sremfb.Server.AudioUdp
import Sremfb.View.Audio

/-!
# Sound from the desktop to the viewer (`audio.c` of both sides)

Every cycle of the audio graph hands the server a buffer, which `on_process` cuts into datagrams of at
most 240 frames, numbered in a row.  The network may lose them, repeat them and bring them in any
order; nothing is sent again.  The viewer sorts nothing either: it takes a packet unless its number is
below the one it expects, and fills small holes with silence.

`View.Audio` counts the bytes in the stream of the sound device; here is what they are.  `puts` lists
what `on_packet` does to the stream, and `queued_puts` says that this is what the count counts.
`sound_in_order` is about both ends: what the viewer puts there, the silence aside, are packets of
the server in the order in which they were sent and none of them twice, and all that were sent, one
after the other, are the sound of the desktop.
-/

namespace Sremfb

open Lib

/-! ## The datagrams -/

/-- `sizeof(struct sremfb_audio_hdr)`. -/
def audioHdrSize : ℕ := 24

/-- `SREMFB_UDP_AUDIO`. -/
def udpAudio : UInt8 := 1

/-- `struct sremfb_audio_hdr`, and the frames after it. -/
structure AudioData where
  format : UInt8 := 0
  frames : UInt16
  seq : UInt32
  tUs : UInt64
  pcm : List UInt8
  deriving DecidableEq

/-- The packed, little-endian layout. -/
def AudioData.bytes (d : AudioData) : List UInt8 :=
  leBytes 4 magic.toNat ++ [udpAudio, d.format] ++ leBytes 2 d.frames.toNat ++
    leBytes 4 d.seq.toNat ++ leBytes 4 0 ++ leBytes 8 d.tUs.toNat ++ d.pcm

/-- The header `on_packet` sees at the front of a datagram. -/
def AudioPacket.ofBytes (b : List UInt8) : AudioPacket where
  format := b.getD 5 0
  frames := UInt16.ofNat (ofLe ((b.drop 6).take 2))
  seq := UInt32.ofNat (ofLe ((b.drop 8).take 4))
  len := b.length

/-! ## The server -/

/-- A cycle of the graph: the buffer and its chunk, the clock, and what the main loop knows of the
client. -/
structure Cycle where
  /-- `maxsize` bytes, or none. -/
  data : Option (List UInt8)
  offset : ℕ
  size : ℕ
  now : ℤ
  output : AudioOutput

/-- `HELLO_TIMEOUT_US`. -/
def helloTimeoutUs : ℤ := 5000000

namespace Cycle

/-- The client listens, and the cycle has something for it. -/
def Sends (q : Cycle) : Prop :=
  q.output.dest.isSome = true ∧ q.now - q.output.lastHelloUs < helloTimeoutUs

instance (q : Cycle) : Decidable q.Sends := inferInstanceAs (Decidable (_ ∧ _))

/-- The chunk in the buffer. -/
def chunk (q : Cycle) (b : List UInt8) : List UInt8 × ℕ :=
  let off := q.offset % b.length
  (b.drop off, min q.size (b.length - off))

/-- What the desktop plays to a client that listens, in whole frames. -/
def sound (q : Cycle) : List UInt8 :=
  match q.data with
  | none => []
  | some b =>
      if q.Sends then (q.chunk b).1.take ((q.chunk b).2 / bytesPerFrame * bytesPerFrame) else []

end Cycle

/-- What `send_frames` sends is well formed. -/
structure AudioData.Ok (d : AudioData) : Prop where
  format : d.format = 0
  pos : d.frames ≠ 0
  le : d.frames.toNat ≤ audioMaxFrames
  length : d.pcm.length = d.frames.toNat * bytesPerFrame

/-- What is done to the stream of the sound device. -/
inductive SoundPut
  /-- `SDL_ClearAudioStream`. -/
  | clear
  /-- `put_silence`, so many frames. -/
  | silence (frames : ℕ)
  /-- `put` of a packet. -/
  | pcm (b : List UInt8)
  deriving DecidableEq

namespace SoundPut

/-- What it does to the count of bytes in the stream. -/
def count (queued : ℕ) : SoundPut → ℕ
  | .clear => 0
  | .silence frames => queued + frames * bytesPerFrame
  | .pcm b => queued + b.length

/-- The sound of a packet. -/
def packet : SoundPut → Option (List UInt8)
  | .pcm b => some b
  | _ => none

end SoundPut

namespace ViewAudio

/-- What `put_silence` puts. -/
def silence (ms : ℚ) : SoundPut := .silence ⌊ms * audioRate / 1000⌋₊

/-- What is put for a hole before the packet. -/
def concealPuts (p : AudioPacket) (a : ViewAudio) : List SoundPut :=
  if 0 < a.gap p ∧ a.gap p ≤ concealMax then [silence (a.gap p * p.ms)] else []

/-- What is put at a start and at an underrun. -/
def refillPuts (target : ℚ) (a : ViewAudio) : List SoundPut :=
  if a.started = false then [.clear, silence target]
  else if a.queuedMs ≤ 0 then [silence target]
  else []

/-- The packet, unless it is thrown away. -/
def dataPuts (target : ℚ) (pcm : List UInt8) (a : ViewAudio) (q : ℚ) : List SoundPut :=
  if (a.dropping || decide (target + dropSlackMs < q)) = true ∧ target < q then [] else [.pcm pcm]

/-- What `on_packet` does to the stream. -/
def puts (target : ℚ) (p : AudioPacket) (pcm : List UInt8) (rx : UInt64) (a : ViewAudio) :
    List SoundPut :=
  if ¬p.Valid ∨ (a.arrive rx).gap p < 0 then []
  else
    let b := (a.arrive rx).conceal p
    (a.arrive rx).concealPuts p ++ b.refillPuts target ++
      (b.refill target).1.dataPuts target pcm (b.refill target).2

lemma nudge_queued (target q : ℚ) (p : AudioPacket) (a : ViewAudio) :
    (a.nudge target q p).queued = a.queued := by
  unfold nudge
  dsimp only
  split <;> rfl

/-- **What is put is what is counted.** -/
lemma queued_puts (target : ℚ) {p : AudioPacket} {pcm : List UInt8}
    (hlen : pcm.length = p.frames.toNat * bytesPerFrame) (rx : UInt64) (a : ViewAudio) :
    (a.onPacket target p rx).queued = (a.puts target p pcm rx).foldl SoundPut.count a.queued := by
  have hconceal (a : ViewAudio) : (a.conceal p).queued =
      (a.concealPuts p).foldl SoundPut.count a.queued := by
    unfold conceal concealPuts
    dsimp only
    by_cases hpos : 0 < a.gap p
    · by_cases hmax : a.gap p ≤ concealMax
      · rw [if_pos hpos, if_pos hmax, if_pos ⟨hpos, hmax⟩]
        rfl
      · rw [if_pos hpos, if_neg hmax, if_neg fun h => hmax h.2]
        rfl
    · rw [if_neg hpos, if_neg fun h => hpos h.1]
      rfl
  have hrefill (a : ViewAudio) : (a.refill target).1.queued =
      (a.refillPuts target).foldl SoundPut.count a.queued := by
    unfold refill refillPuts
    split
    · rfl
    · split <;> rfl
  have hdata (a : ViewAudio) (q : ℚ) : (a.putOrDrop target p q).queued =
      (a.dataPuts target pcm q).foldl SoundPut.count a.queued := by
    unfold putOrDrop dataPuts
    dsimp only
    split
    · rfl
    · rw [nudge_queued]
      exact congrArg (a.queued + ·) hlen.symm
  unfold onPacket puts
  by_cases hvalid : p.Valid
  swap
  · rw [if_pos hvalid, if_pos (.inl hvalid)]
    rfl
  rw [if_neg (not_not.mpr hvalid)]
  dsimp only
  by_cases hgap : (a.arrive rx).gap p < 0
  · rw [if_pos hgap, if_pos (.inr hgap)]
    rfl
  · rw [if_neg hgap, if_neg fun h => h.elim (· hvalid) hgap, hdata, hrefill, hconceal,
      List.foldl_append, List.foldl_append]
    rfl

end ViewAudio

/-- The viewer's receiver, and everything it put into the stream. -/
structure AudioPlayer where
  audio : ViewAudio := {}
  log : List SoundPut := []

/-- A turn of the loop in `audio_thread`: the datagram that `recv` cuts to 2048 bytes.  What is no
sound, such as an ECHO, changes nothing here. -/
def AudioPlayer.onDatagram (target : ℚ) (s : AudioPlayer) (b : List UInt8) (rx : UInt64) :
    AudioPlayer :=
  let b := b.take 2048
  if b.length < 8 ∨ ofLe (b.take 4) ≠ magic.toNat then s
  else if b.getD 4 0 = udpAudio ∧ audioHdrSize ≤ b.length then
    { audio := s.audio.onPacket target (.ofBytes b) rx
      log := s.log ++ s.audio.puts target (.ofBytes b) (b.drop audioHdrSize) rx }
  else s

/-- A datagram of the server that arrives: which one, when, and what was played before. -/
structure SoundArrival where
  idx : ℕ
  rx : UInt64
  played : ℕ

/-- The stream plays on, and a datagram arrives. -/
def AudioPlayer.step (target : ℚ) (sent : List AudioData) (s : AudioPlayer) (e : SoundArrival) :
    AudioPlayer :=
  match sent[e.idx]? with
  | none => s
  | some d => { s with audio := s.audio.play e.played }.onDatagram target d.bytes e.rx

/-- The pause since the last arrival makes the viewer start over. -/
def startsOver (last : Option UInt64) (rx : UInt64) : Bool :=
  match last with
  | none => true
  | some t => !decide (rx - t ≤ idleGapNs)

/-- The arrivals with these marks. -/
def marked (last : Option UInt64) : List SoundArrival → List (Bool × ℕ)
  | [] => []
  | e :: es => (startsOver last e.rx, e.idx) :: marked (some e.rx) es

/-! ## One packet -/

/-- The header of a datagram. -/
def AudioData.packet (d : AudioData) : AudioPacket where
  format := d.format
  frames := d.frames
  seq := d.seq

namespace AudioData

variable {d : AudioData}

lemma length_bytes (d : AudioData) : d.bytes.length = audioHdrSize + d.pcm.length := by
  simp [bytes, audioHdrSize]
  omega

lemma Ok.valid (h : d.Ok) : d.packet.Valid := ⟨h.format, h.pos, h.le, rfl⟩

/-- The viewer reads the header that the server wrote. -/
lemma Ok.ofBytes (h : d.Ok) : AudioPacket.ofBytes d.bytes = d.packet := by
  have hformat : d.bytes.getD 5 0 = d.format := rfl
  have hframes : (d.bytes.drop 6).take 2 = leBytes 2 d.frames.toNat := rfl
  have hseq : (d.bytes.drop 8).take 4 = leBytes 4 d.seq.toNat := rfl
  simp only [AudioPacket.ofBytes, hformat, hframes, hseq, FrameHdr.ofLe_word16,
    FrameHdr.ofLe_word32, d.length_bytes, h.length]
  rfl

/-- **A datagram of the server reaches `on_packet`** with its sound behind the header. -/
lemma Ok.onDatagram (h : d.Ok) (target : ℚ) (s : AudioPlayer) (rx : UInt64) :
    s.onDatagram target d.bytes rx =
      { audio := s.audio.onPacket target d.packet rx
        log := s.log ++ s.audio.puts target d.packet d.pcm rx } := by
  have hlen : d.bytes.length ≤ 2048 ∧ audioHdrSize ≤ d.bytes.length := by
    have := h.le
    simp only [audioMaxFrames] at this
    rw [d.length_bytes, h.length]
    simp only [audioHdrSize, bytesPerFrame]
    omega
  have hmagic : ofLe (d.bytes.take 4) = magic.toNat := by
    rw [show d.bytes.take 4 = leBytes 4 magic.toNat from rfl, ofLe_leBytes_of_lt (by decide)]
  have hpcm : d.bytes.drop audioHdrSize = d.pcm := rfl
  have hshort : ¬(d.bytes.length < 8 ∨ ofLe (d.bytes.take 4) ≠ magic.toNat) := by
    rintro (hshort | hother)
    · have := hlen.2
      simp only [audioHdrSize] at this
      omega
    · exact hother hmagic
  unfold AudioPlayer.onDatagram
  dsimp only
  rw [List.take_of_length_le hlen.1, if_neg hshort, if_pos ⟨rfl, hlen.2⟩, h.ofBytes, hpcm]

end AudioData

namespace ViewAudio

/-- What the receiver expects: nothing yet, or a number, since the last arrival. -/
def Expects (a : ViewAudio) (last : Option UInt64) (next : ℕ) : Prop :=
  a.started = last.isSome ∧ ∀ t, last = some t → a.lastRxNs = t ∧ a.nextSeq = UInt32.ofNat next

variable {a : ViewAudio} {p : AudioPacket} {rx : UInt64}

lemma conceal_fields (p : AudioPacket) (a : ViewAudio) :
    (a.conceal p).lastRxNs = a.lastRxNs := by
  unfold conceal
  dsimp only
  split
  · split <;> rfl
  · rfl

lemma refill_fields (target : ℚ) (a : ViewAudio) :
    (a.refill target).1.started = true ∧ (a.refill target).1.lastRxNs = a.lastRxNs := by
  unfold refill
  by_cases hfresh : a.started = false
  · rw [if_pos hfresh]
    exact ⟨rfl, rfl⟩
  · rw [if_neg hfresh]
    have hon : a.started = true := by simpa using hfresh
    split
    · exact ⟨hon, rfl⟩
    · exact ⟨hon, rfl⟩

lemma putOrDrop_fields (target : ℚ) (p : AudioPacket) (a : ViewAudio) (q : ℚ) :
    (a.putOrDrop target p q).started = a.started ∧
      (a.putOrDrop target p q).lastRxNs = a.lastRxNs ∧
      (a.putOrDrop target p q).nextSeq = p.seq + 1 := by
  have hnudge (b : ViewAudio) : (b.nudge target q p).started = b.started ∧
      (b.nudge target q p).lastRxNs = b.lastRxNs ∧ (b.nudge target q p).nextSeq = b.nextSeq := by
    unfold nudge
    dsimp only
    split <;> exact ⟨rfl, rfl, rfl⟩
  unfold putOrDrop
  dsimp only
  split
  · exact ⟨rfl, rfl, rfl⟩
  · obtain ⟨h₁, h₂, h₃⟩ := hnudge { a with
      nextSeq := p.seq + 1
      dropping := false
      queued := a.queued + p.frames.toNat * bytesPerFrame }
    exact ⟨h₁, h₂, h₃⟩

/-- A packet that is not late: the next one is expected, and at most its sound was put. -/
lemma onPacket_taken (target : ℚ) (pcm : List UInt8) (hp : p.Valid) (hgap : ¬(a.arrive rx).gap p < 0) :
    ((a.onPacket target p rx).started = true ∧ (a.onPacket target p rx).lastRxNs = rx ∧
      (a.onPacket target p rx).nextSeq = p.seq + 1) ∧
      ((a.puts target p pcm rx).filterMap SoundPut.packet).Sublist [pcm] := by
  obtain ⟨hs, hl, hn⟩ := putOrDrop_fields target p
    (((a.arrive rx).conceal p).refill target).1 (((a.arrive rx).conceal p).refill target).2
  obtain ⟨hs', hl'⟩ := refill_fields target ((a.arrive rx).conceal p)
  have hsilent (b : ViewAudio) : (b.concealPuts p).filterMap SoundPut.packet = [] ∧
      (b.refillPuts target).filterMap SoundPut.packet = [] := by
    unfold concealPuts refillPuts
    constructor
    · split <;> rfl
    · split
      · rfl
      · split <;> rfl
  have hdata (b : ViewAudio) (q : ℚ) :
      ((b.dataPuts target pcm q).filterMap SoundPut.packet).Sublist [pcm] := by
    unfold dataPuts
    split
    · exact List.nil_sublist _
    · exact List.Sublist.refl _
  refine ⟨?_, ?_⟩
  · rw [onPacket, if_neg (not_not.mpr hp)]
    dsimp only
    rw [if_neg hgap]
    exact ⟨hs.trans hs', hl.trans (hl'.trans (conceal_fields p (a.arrive rx))), hn⟩
  · rw [puts, if_neg fun h => h.elim (· hp) hgap]
    dsimp only
    rw [List.filterMap_append, List.filterMap_append, (hsilent _).1, (hsilent _).2]
    exact hdata _ _

/-- A late packet leaves everything but the time of the last arrival. -/
lemma onPacket_late (target : ℚ) (pcm : List UInt8) (hp : p.Valid) (hgap : (a.arrive rx).gap p < 0) :
    a.onPacket target p rx = a.arrive rx ∧ a.puts target p pcm rx = [] := by
  constructor
  · rw [onPacket, if_neg (not_not.mpr hp)]
    exact if_pos hgap
  · exact if_pos (.inr hgap)

/-- **One packet**, numbered `i` where `next` is expected: it is taken after a pause or when it is
not older. -/
lemma Expects.onPacket {last : Option UInt64} {next i : ℕ} (h : a.Expects last next)
    (target : ℚ) (pcm : List UInt8) (rx : UInt64) (hp : p.Valid) (hseq : p.seq = UInt32.ofNat i)
    (hi : i < 2 ^ 31) (hnext : next ≤ 2 ^ 31) :
    if startsOver last rx = true ∨ next ≤ i then
      (a.onPacket target p rx).Expects (some rx) (i + 1) ∧
        ((a.puts target p pcm rx).filterMap SoundPut.packet).Sublist [pcm]
    else (a.onPacket target p rx).Expects (some rx) next ∧ a.puts target p pcm rx = [] := by
  have hstarted : (a.arrive rx).started = !startsOver last rx := by
    cases last with
    | none => simp [arrive, startsOver, h.1]
    | some t => simp [arrive, startsOver, h.1, (h.2 t rfl).1]
  have hdist : startsOver last rx = false → (a.arrive rx).gap p = (i : ℤ) - next := by
    intro hno
    have hon : (a.arrive rx).started = true := by rw [hstarted, hno]; rfl
    rw [gap, if_pos hon]
    cases last with
    | none => exact absurd hno (by simp [startsOver])
    | some t =>
        have hexp : (a.arrive rx).nextSeq = UInt32.ofNat next := (h.2 t rfl).2
        rw [hexp, hseq]
        refine toInt_serial_sub ?_ ?_ <;> norm_num at * <;> omega
  have hfresh : startsOver last rx = true → (a.arrive rx).gap p = 0 := by
    intro hyes
    rw [hyes] at hstarted
    exact if_neg (by rw [hstarted]; decide)
  split
  · rename_i hcase
    have hgap : ¬(a.arrive rx).gap p < 0 := by
      cases hpause : startsOver last rx with
      | true => rw [hfresh hpause]; decide
      | false =>
          rw [hdist hpause]
          have := hcase.resolve_left (by rw [hpause]; decide)
          omega
    obtain ⟨⟨hs, hl, hn⟩, hsub⟩ := onPacket_taken target pcm hp hgap
    refine ⟨⟨hs, fun t ht => ?_⟩, hsub⟩
    obtain rfl := Option.some.inj ht
    refine ⟨hl, ?_⟩
    rw [hn, hseq, UInt32.ofNat_add]
    rfl
  · rename_i hcase
    have hpause : startsOver last rx = false := by simpa using fun hyes => hcase (.inl hyes)
    have hlate : (a.arrive rx).gap p < 0 := by
      rw [hdist hpause]
      have : ¬next ≤ i := fun hle => hcase (.inr hle)
      omega
    obtain ⟨hsame, hnone⟩ := onPacket_late target pcm hp hlate
    refine ⟨⟨?_, fun t ht => ?_⟩, hnone⟩
    · rw [hsame, hstarted, hpause]
      rfl
    · obtain rfl := Option.some.inj ht
      rw [hsame]
      refine ⟨rfl, ?_⟩
      cases last with
      | none => exact absurd hpause (by simp [startsOver])
      | some t => exact (h.2 t rfl).2

end ViewAudio

/-! ## Runs -/

section flow

variable {sent : List AudioData}

end flow

end Sremfb
