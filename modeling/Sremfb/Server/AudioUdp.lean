import Sremfb.Lib.Inet
import Sremfb.Lib.Run
import Sremfb.Protocol
import Sremfb.Server.UsbPeers

/-!
# The UDP side of audio (`audio.c`)

A client asks for its audio with datagrams that quote the token of its server hello.  `on_udp`
looks the token up among the live outputs and compares two texts: the sender's address, written by
`addr_ip`, and the address of the client's TCP connection, cut out of the `ip:port` that
`peer_to_string` made when it was accepted.  What passes both sets `last_hello_us`, and the first
one sets the destination.

`heard` keeps beside each output the datagrams that set something.  `audio_goes_to_its_peer` is
read off it: whatever arrives, and however outputs come and go, all of `heard` is hellos with this
output's token from the address of its client's connection, the destination is the sender of the
first and does not change, and the tokens are distinct and none is zero.

`recvfrom` cuts a datagram to the sixteen bytes it is given room for and does not tell, so a longer
datagram is judged by its first sixteen bytes.
-/

namespace Sremfb

open Lib

/-! ## Addresses as text -/

/-- `inet_ntop(AF_INET6, ...)`: what the comparison rests on. -/
structure Ntop6 where
  text : In6Addr → List Char
  injective : Function.Injective text
  colon : ∀ x, ':' ∈ text x
  /-- `INET6_ADDRSTRLEN` counts the terminator. -/
  length : ∀ x, (text x).length ≤ 45

/-- The full form, which agrees with `inet_ntop` where no group is zero. -/
def fullNtop6 : Ntop6 where
  text := In6Addr.fullText
  injective := In6Addr.fullText_injective
  colon x := by simp [In6Addr.fullText, In6Addr.groups, List.intercalate]
  length x := x.length_fullText.trans (by decide)

/-- An address without the form it came in. -/
inductive Ip
  | v4 (addr : InAddr)
  | v6 (addr : In6Addr)
  deriving DecidableEq, Repr

/-- The IP address of a socket address, a v4-mapped one being an IPv4 address. -/
def ipOf : SockAddr → Ip
  | .inet addr _ => .v4 addr
  | .inet6 addr _ => if addr.isV4Mapped then .v4 addr.tail else .v6 addr

variable (N : Ntop6)

/-- `addr_ip`.  The socket has no other address families. -/
def addrIp : SockAddr → List Char
  | .inet addr _ => addr.text
  | .inet6 addr _ => if addr.isV4Mapped then addr.tail.text else N.text addr

/-- `peer_to_string`, into the 64 bytes of `peer`. -/
def peerToString (ss : SockAddr) : List Char :=
  let (host, port) :=
    match ss with
    | .inet addr port => (addr.text, port)
    | .inet6 addr port => (if addr.isV4Mapped then addr.tail.text else N.text addr, port)
  (host ++ ':' :: Nat.toDigits 10 port.toNat).take 63

/-! ## Hellos -/

/-- `struct sremfb_udp_hello`, without the reserved byte. -/
structure UdpHello where
  magic : UInt32
  type : UInt8
  token : UInt16
  tClientUs : UInt64
  deriving DecidableEq, Repr

/-- `sizeof(struct sremfb_udp_hello)`. -/
def udpHelloSize : ℕ := 16

/-- `SREMFB_UDP_AUDIO_HELLO`. -/
def udpAudioHello : UInt8 := 2

/-- `SREMFB_UDP_ECHO`. -/
def udpEcho : UInt8 := 3

def UdpHello.ofBytes (b : List UInt8) : UdpHello where
  magic := UInt32.ofNat (ofLe (b.take 4))
  type := b.getD 4 0
  token := UInt16.ofNat (ofLe ((b.drop 6).take 2))
  tClientUs := UInt64.ofNat (ofLe ((b.drop 8).take 8))

/-- A datagram, and when it is read. -/
structure Datagram where
  bytes : List UInt8
  src : SockAddr
  now : ℤ
  deriving DecidableEq

/-- What `recvfrom` leaves in the buffer. -/
def Datagram.received (d : Datagram) : List UInt8 := d.bytes.take udpHelloSize

/-- The datagram is an AUDIO_HELLO. -/
def Datagram.IsHello (d : Datagram) : Prop :=
  d.received.length = udpHelloSize ∧ (UdpHello.ofBytes d.received).magic = magic ∧
    (UdpHello.ofBytes d.received).type = udpAudioHello

instance (d : Datagram) : Decidable d.IsHello := inferInstanceAs (Decidable (_ ∧ _))

/-- The token a hello carries. -/
def Datagram.token (d : Datagram) : UInt16 := (UdpHello.ofBytes d.received).token

/-- `struct sremfb_udp_echo`. -/
structure UdpEcho where
  magic : UInt32 := Sremfb.magic
  type : UInt8 := udpEcho
  tClientUs : UInt64
  tServerUs : ℤ
  deriving DecidableEq, Repr

/-! ## The state -/

/-- What the server knows of an accepted connection. -/
structure AudioConn where
  /-- The other end, as `accept` gave it. -/
  addr : SockAddr
  audioCap : Bool

/-- `struct SremfbAudio`, the part that the UDP side uses; `id` stands for its address and `c` for
its client's. -/
structure AudioOutput where
  id : ℕ
  c : ℕ
  token : UInt16
  /-- `dest`, when `have_dest` is set. -/
  dest : Option SockAddr := none
  lastHelloUs : ℤ := 0
  /-- The datagrams that set one of the two, the last one first. -/
  heard : List Datagram := []

/-- The static `A` of `audio.c`. -/
structure AudioUdp where
  enabled : Bool
  live : List AudioOutput := []
  /-- The number of outputs that were started. -/
  started : ℕ := 0
  /-- The echoes that were sent, the last one first. -/
  echoes : List (SockAddr × UdpEcho) := []

namespace AudioUdp

/-- `find_by_token`. -/
def findByToken (s : AudioUdp) (token : UInt16) : Option AudioOutput :=
  s.live.find? fun a => a.token == token

/-- `c->audio`. -/
def audioOf (s : AudioUdp) (c : ℕ) : Option AudioOutput := s.live.find? fun a => a.c == c

end AudioUdp

/-- A hello is taken: the first one sets the destination. -/
def AudioOutput.hear (a : AudioOutput) (d : Datagram) : AudioOutput :=
  { a with
    dest := if a.dest.isNone then some d.src else a.dest
    lastHelloUs := d.now
    heard := d :: a.heard }

/-- A result of `g_random_int_range(1, 65536)`. -/
abbrev TokenDraw := { r : ℕ // 1 ≤ r ∧ r < 65536 }

/-- The loop that draws a token: the first one that no live output has. -/
def drawToken (s : AudioUdp) : List TokenDraw → Option UInt16
  | [] => none
  | r :: rs =>
      let token := UInt16.ofNat r.1
      if (s.findByToken token).isSome then drawToken s rs else some token

section Steps

variable (conn : ℕ → AudioConn)

/-- The address `on_udp` compares with: `peer`, cut at its last colon. -/
def peerIp (c : ℕ) : List Char := beforeLast ':' ((peerToString N (conn c).addr).take 63)

/-- One turn of the loop in `on_udp`. -/
def onUdp (s : AudioUdp) (d : Datagram) : AudioUdp :=
  if d.IsHello then
    match s.findByToken d.token with
    | none => s
    | some a =>
        if addrIp N d.src = peerIp N conn a.c then
          { s with
            live := s.live.map fun b => if b.id = a.id then b.hear d else b
            echoes := (d.src, { tClientUs := (UdpHello.ofBytes d.received).tClientUs,
                                tServerUs := d.now }) :: s.echoes }
        else s
  else s

/-- `sremfb_audio_start`.  `draws` are the random numbers the loop asks for, and `connects` says
whether PipeWire gives a stream.  Without a number that ends the loop the call does not return. -/
def audioStart (s : AudioUdp) (c : ℕ) (draws : List TokenDraw) (connects : Bool) :
    AudioUdp × UInt8 :=
  if !(conn c).audioCap || !s.enabled || (s.audioOf c).isSome then (s, 0)
  else
    match drawToken s draws with
    | none => (s, 0)
    | some token =>
        if connects then
          ({ s with live := s.live ++ [{ id := s.started, c, token }], started := s.started + 1 },
            srvFlagAudio)
        else (s, 0)

/-- `sremfb_audio_stop`. -/
def audioStop (s : AudioUdp) (c : ℕ) : AudioUdp :=
  match s.audioOf c with
  | none => s
  | some a => { s with live := s.live.filter fun b => b.id ≠ a.id }

/-- What the main loop runs. -/
inductive AudioEvent
  | udp (d : Datagram)
  | start (c : ℕ) (draws : List TokenDraw) (connects : Bool)
  | stop (c : ℕ)

def audioUdpStep (s : AudioUdp) : AudioEvent → AudioUdp
  | .udp d => onUdp N conn s d
  | .start c draws connects => (audioStart conn s c draws connects).1
  | .stop c => audioStop s c

end Steps

/-! ## The two texts -/

lemma addrIp_length (ss : SockAddr) : (addrIp N ss).length ≤ 45 := by
  have hv4 : ∀ x : InAddr, x.text.length ≤ 45 := fun x => by
    have := x.length_text
    omega
  cases ss with
  | inet addr port => exact hv4 addr
  | inet6 addr port =>
      simp only [addrIp]
      split
      · exact hv4 addr.tail
      · exact N.length addr

/-- `peer` holds the whole text. -/
lemma peerToString_eq (ss : SockAddr) :
    ∃ port : UInt16, peerToString N ss = addrIp N ss ++ ':' :: Nat.toDigits 10 port.toNat := by
  have hport : ∀ port : UInt16, (Nat.toDigits 10 port.toNat).length ≤ 5 := by
    intro port
    rw [Nat.length_toDigits_le_iff (by decide) (by decide)]
    exact lt_trans port.toNat_lt (by decide)
  have hlen := addrIp_length N ss
  cases ss with
  | inet addr port =>
      refine ⟨port, List.take_of_length_le ?_⟩
      have hp := hport port
      simp only [addrIp] at hlen
      simp only [List.length_append, List.length_cons]
      omega
  | inet6 addr port =>
      refine ⟨port, List.take_of_length_le ?_⟩
      have hp := hport port
      simp only [addrIp] at hlen
      simp only [List.length_append, List.length_cons]
      omega

/-- The port is cut off again. -/
lemma peerIp_eq (conn : ℕ → AudioConn) (c : ℕ) : peerIp N conn c = addrIp N (conn c).addr := by
  have hlen : (peerToString N (conn c).addr).length ≤ 63 := by
    unfold peerToString
    exact List.length_take_le ..
  obtain ⟨port, hpeer⟩ := peerToString_eq N (conn c).addr
  rw [peerIp, List.take_of_length_le hlen, hpeer]
  exact beforeLast_append _ (not_mem_toDigits (by decide) port.toNat)

lemma InAddr.text_ne_text (x : InAddr) (y : In6Addr) : x.text ≠ N.text y := by
  intro h
  have hcolon : ':' ∈ x.text := h ▸ N.colon y
  exact x.not_mem_text (by decide) (by decide) hcolon

/-- **Equal texts are equal addresses.** -/
lemma addrIp_eq_iff (s t : SockAddr) : addrIp N s = addrIp N t ↔ ipOf s = ipOf t := by
  have hv4 : ∀ x y : InAddr, x.text = y.text ↔ Ip.v4 x = Ip.v4 y := fun x y => by
    rw [Ip.v4.injEq, InAddr.text_injective.eq_iff]
  have hv6 : ∀ x y : In6Addr, N.text x = N.text y ↔ Ip.v6 x = Ip.v6 y := fun x y => by
    rw [Ip.v6.injEq, N.injective.eq_iff]
  have hmixed : ∀ (x : InAddr) (y : In6Addr), x.text = N.text y ↔ Ip.v4 x = Ip.v6 y := fun x y =>
    ⟨fun h => absurd h (InAddr.text_ne_text N x y), fun h => by cases h⟩
  have hmixed' : ∀ (x : InAddr) (y : In6Addr), N.text y = x.text ↔ Ip.v6 y = Ip.v4 x := fun x y =>
    ⟨fun h => absurd h.symm (InAddr.text_ne_text N x y), fun h => by cases h⟩
  cases s with
  | inet x _ =>
      cases t with
      | inet y _ => exact hv4 x y
      | inet6 y _ =>
          simp only [addrIp, ipOf]
          split
          · exact hv4 x y.tail
          · exact hmixed x y
  | inet6 x _ =>
      cases t with
      | inet y _ =>
          simp only [addrIp, ipOf]
          split
          · exact hv4 x.tail y
          · exact hmixed' y x
      | inet6 y _ =>
          simp only [addrIp, ipOf]
          split <;> split
          · exact hv4 x.tail y.tail
          · exact hmixed x.tail y
          · exact hmixed' y.tail x
          · exact hv6 x y

/-! ## What one event does -/

section Runs

variable (conn : ℕ → AudioConn)

/-- A hello with the output's token, from the address of its client's connection. -/
structure AudioOutput.Hears (a : AudioOutput) (d : Datagram) : Prop where
  hello : d.IsHello
  token : d.token = a.token
  peer : ipOf d.src = ipOf (conn a.c).addr

lemma onUdp_cases (s : AudioUdp) (d : Datagram) : onUdp N conn s d = s ∨
    ∃ a ∈ s.live, a.Hears conn d ∧ (onUdp N conn s d).started = s.started ∧
      (onUdp N conn s d).live = s.live.map fun b => if b.id = a.id then b.hear d else b := by
  unfold onUdp
  split <;> rename_i hhello
  · split <;> rename_i hfind
    · exact Or.inl rfl
    · rename_i a
      have hmem : a ∈ s.live := List.mem_of_find?_eq_some hfind
      have htoken : a.token = d.token := by simpa using List.find?_some hfind
      split <;> rename_i hip
      · rw [peerIp_eq, addrIp_eq_iff] at hip
        exact Or.inr ⟨a, hmem, ⟨hhello, htoken.symm, hip⟩, rfl, rfl⟩
      · exact Or.inl rfl
  · exact Or.inl rfl

/-- **The loop ends with a token of its own.** -/
lemma drawToken_spec {s : AudioUdp} {draws : List TokenDraw} {token : UInt16}
    (h : drawToken s draws = some token) : token ≠ 0 ∧ ∀ a ∈ s.live, a.token ≠ token := by
  induction draws with
  | nil => cases h
  | cons r rs ih =>
      unfold drawToken at h
      dsimp only at h
      split at h <;> rename_i hused
      · exact ih h
      · obtain rfl := Option.some.inj h
        refine ⟨?_, ?_⟩
        · intro hzero
          have hnat := congrArg UInt16.toNat hzero
          rw [UInt16.toNat_ofNat', Nat.mod_eq_of_lt r.2.2] at hnat
          exact absurd hnat (by have := r.2.1; simp; omega)
        · intro a ha htoken
          refine hused (List.find?_isSome.mpr ⟨a, ha, ?_⟩)
          simpa using htoken

lemma audioStart_cases (s : AudioUdp) (c : ℕ) (draws : List TokenDraw) (connects : Bool) :
    (audioStart conn s c draws connects).1 = s ∨
      ∃ token, token ≠ 0 ∧ (∀ a ∈ s.live, a.token ≠ token) ∧
        (audioStart conn s c draws connects).1 =
          { s with live := s.live ++ [{ id := s.started, c, token }], started := s.started + 1 } := by
  unfold audioStart
  split
  · exact Or.inl rfl
  · split <;> rename_i hdraw
    · exact Or.inl rfl
    · obtain ⟨hzero, hnew⟩ := drawToken_spec hdraw
      split
      · exact Or.inr ⟨_, hzero, hnew, rfl⟩
      · exact Or.inl rfl

lemma audioStop_cases (s : AudioUdp) (c : ℕ) : (audioStop s c).started = s.started ∧
    (audioStop s c).live.Sublist s.live := by
  unfold audioStop
  split
  · exact ⟨rfl, List.Sublist.refl _⟩
  · exact ⟨rfl, List.filter_sublist⟩

/-! ## The invariant -/

/-- What is set comes from the datagrams that were heard. -/
structure AudioOutput.Sound (a : AudioOutput) : Prop where
  token : a.token ≠ 0
  heard : ∀ d ∈ a.heard, a.Hears conn d
  dest : a.dest = a.heard.getLast?.map Datagram.src
  last : a.lastHelloUs = (a.heard.head?.map Datagram.now).getD 0

structure AudioUdp.Sound (s : AudioUdp) : Prop where
  ids : ∀ a ∈ s.live, a.id < s.started
  nodup : (s.live.map AudioOutput.id).Nodup
  tokens : (s.live.map AudioOutput.token).Nodup
  each : ∀ a ∈ s.live, a.Sound conn

variable {N conn}

lemma AudioOutput.Sound.hear {a : AudioOutput} (h : a.Sound conn) {d : Datagram}
    (hd : a.Hears conn d) : (a.hear d).Sound conn := by
  refine ⟨h.token, ?_, ?_, rfl⟩
  · intro d' hd'
    rcases List.mem_cons.mp hd' with rfl | hmem
    · exact ⟨hd.hello, hd.token, hd.peer⟩
    · have hheard := h.heard d' hmem
      exact ⟨hheard.hello, hheard.token, hheard.peer⟩
  · have hdest := h.dest
    cases hheard : a.heard with
    | nil =>
        rw [hheard] at hdest
        simp [AudioOutput.hear, hdest, hheard]
    | cons d' ds =>
        have hlast : (d :: d' :: ds).getLast? = (d' :: ds).getLast? := List.getLast?_cons_cons
        obtain ⟨x, hx⟩ : ∃ x, (d' :: ds).getLast? = some x := ⟨_, List.getLast?_cons⟩
        rw [hheard, hx] at hdest
        simp [AudioOutput.hear, hdest, hheard, hlast, hx]

/-- The output that is told is one of its kind, so the others keep their place. -/
lemma AudioUdp.Sound.onUdp {s : AudioUdp} (h : s.Sound conn) (d : Datagram) :
    (onUdp N conn s d).Sound conn := by
  obtain hsame | ⟨a, ha, hears, hstarted, hlive⟩ := onUdp_cases N conn s d
  · rwa [hsame]
  · have hid : ∀ b : AudioOutput, (if b.id = a.id then b.hear d else b).id = b.id := by
      intro b
      split <;> rfl
    have htoken : ∀ b : AudioOutput, (if b.id = a.id then b.hear d else b).token = b.token := by
      intro b
      split <;> rfl
    refine ⟨?_, ?_, ?_, ?_⟩
    · rw [hstarted, hlive]
      intro b hb
      obtain ⟨b, hold, rfl⟩ := List.mem_map.mp hb
      rw [hid]
      exact h.ids b hold
    · rw [hlive, List.map_map]
      exact (List.map_congr_left fun b _ => hid b) ▸ h.nodup
    · rw [hlive, List.map_map]
      exact (List.map_congr_left fun b _ => htoken b) ▸ h.tokens
    · rw [hlive]
      intro b hb
      obtain ⟨b, hold, rfl⟩ := List.mem_map.mp hb
      split <;> rename_i heq
      · obtain rfl : b = a := List.inj_on_of_nodup_map h.nodup hold ha heq
        exact (h.each b hold).hear hears
      · exact h.each b hold

lemma AudioUdp.Sound.start {s : AudioUdp} (h : s.Sound conn) (c : ℕ) (draws : List TokenDraw)
    (connects : Bool) : (audioStart conn s c draws connects).1.Sound conn := by
  obtain hsame | ⟨token, hzero, hnew, hs⟩ := audioStart_cases conn s c draws connects
  · rwa [hsame]
  · rw [hs]
    refine ⟨?_, ?_, ?_, ?_⟩
    · intro b hb
      rcases List.mem_append.mp hb with hold | hadd
      · exact Nat.lt_succ_of_lt (h.ids b hold)
      · obtain rfl := List.mem_singleton.mp hadd
        exact Nat.lt_succ_self _
    · rw [List.map_append]
      refine h.nodup.append (List.nodup_singleton _) ?_
      intro i hi hadd
      obtain ⟨b, hb, rfl⟩ := List.mem_map.mp hi
      have hid : b.id = s.started := by simpa using hadd
      exact absurd (h.ids b hb) (by omega)
    · rw [List.map_append]
      refine h.tokens.append (List.nodup_singleton _) ?_
      intro t ht hadd
      obtain ⟨b, hb, rfl⟩ := List.mem_map.mp ht
      exact hnew b hb (by simpa using hadd)
    · intro b hb
      rcases List.mem_append.mp hb with hold | hadd
      · exact h.each b hold
      · obtain rfl := List.mem_singleton.mp hadd
        exact ⟨hzero, fun _ hd => (List.not_mem_nil hd).elim, rfl, rfl⟩

lemma AudioUdp.Sound.stop {s : AudioUdp} (h : s.Sound conn) (c : ℕ) :
    (audioStop s c).Sound conn := by
  obtain ⟨hstarted, hsub⟩ := audioStop_cases s c
  refine ⟨?_, ?_, ?_, fun b hb => h.each b (hsub.subset hb)⟩
  · rw [hstarted]
    exact fun b hb => h.ids b (hsub.subset hb)
  · exact h.nodup.sublist (hsub.map _)
  · exact h.tokens.sublist (hsub.map _)

lemma AudioUdp.Sound.step {s : AudioUdp} (h : s.Sound conn) (e : AudioEvent) :
    (audioUdpStep N conn s e).Sound conn := by
  cases e with
  | udp d => exact h.onUdp d
  | start c draws connects => exact h.start c draws connects
  | stop c => exact h.stop c

/-- What stays of an output as long as it is live. -/
def AudioOutput.Stays (a : AudioOutput) (s : AudioUdp) : Prop :=
  a.id < s.started ∧ ∀ b ∈ s.live, b.id = a.id →
    b.c = a.c ∧ b.token = a.token ∧ ∀ dst, a.dest = some dst → b.dest = some dst

lemma AudioOutput.Stays.step {a : AudioOutput} {s : AudioUdp} (h : a.Stays s) (e : AudioEvent) :
    a.Stays (audioUdpStep N conn s e) := by
  obtain ⟨hid, h⟩ := h
  cases e with
  | udp d =>
      obtain hsame | ⟨a', -, -, hstarted, hlive⟩ := onUdp_cases N conn s d
      · exact ⟨by rwa [audioUdpStep, hsame], by rwa [audioUdpStep, hsame]⟩
      · refine ⟨by rwa [audioUdpStep, hstarted], ?_⟩
        rw [audioUdpStep, hlive]
        intro b hb
        obtain ⟨b, hold, rfl⟩ := List.mem_map.mp hb
        split
        · intro heq
          obtain ⟨hc, htoken, hdest⟩ := h b hold heq
          refine ⟨hc, htoken, fun dst hdst => ?_⟩
          have hset := hdest dst hdst
          simp [AudioOutput.hear, hset]
        · exact h b hold
  | start c draws connects =>
      obtain hsame | ⟨token, -, -, hs⟩ := audioStart_cases conn s c draws connects
      · exact ⟨by rwa [audioUdpStep, hsame], by rwa [audioUdpStep, hsame]⟩
      · rw [audioUdpStep, hs]
        refine ⟨Nat.lt_succ_of_lt hid, ?_⟩
        intro b hb heq
        rcases List.mem_append.mp hb with hold | hadd
        · exact h b hold heq
        · obtain rfl := List.mem_singleton.mp hadd
          exact absurd hid (by simp [← heq])
  | stop c =>
      obtain ⟨hstarted, hsub⟩ := audioStop_cases s c
      exact ⟨by rwa [audioUdpStep, hstarted], fun b hb => h b (hsub.subset hb)⟩

lemma AudioUdp.Sound.stays {s : AudioUdp} (h : s.Sound conn) {a : AudioOutput} (ha : a ∈ s.live) :
    a.Stays s := by
  refine ⟨h.ids a ha, fun b hb heq => ?_⟩
  obtain rfl : b = a := List.inj_on_of_nodup_map h.nodup hb ha heq
  exact ⟨rfl, rfl, fun _ hdst => hdst⟩

/-- Only datagrams that arrived are heard. -/
lemma heard_arrived {s : AudioUdp} (es : List AudioEvent) {a : AudioOutput}
    (ha : a ∈ (run (audioUdpStep N conn) s es).live) {d : Datagram} (hd : d ∈ a.heard) :
    .udp d ∈ es ∨ ∃ b ∈ s.live, d ∈ b.heard := by
  induction es generalizing s with
  | nil => exact Or.inr ⟨a, ha, hd⟩
  | cons e es ih =>
      rcases ih ha with hmem | ⟨b, hb, hdb⟩
      · exact Or.inl (List.mem_cons_of_mem _ hmem)
      · cases e with
        | udp d' =>
            obtain hsame | ⟨a', -, -, -, hlive⟩ := onUdp_cases N conn s d'
            · rw [audioUdpStep, hsame] at hb
              exact Or.inr ⟨b, hb, hdb⟩
            · rw [audioUdpStep, hlive] at hb
              obtain ⟨b, hold, rfl⟩ := List.mem_map.mp hb
              split at hdb
              · rcases List.mem_cons.mp hdb with rfl | hdb
                · exact Or.inl (List.mem_cons_self ..)
                · exact Or.inr ⟨b, hold, hdb⟩
              · exact Or.inr ⟨b, hold, hdb⟩
        | start c draws connects =>
            obtain hsame | ⟨token, -, -, hs⟩ := audioStart_cases conn s c draws connects
            · rw [audioUdpStep, hsame] at hb
              exact Or.inr ⟨b, hb, hdb⟩
            · rw [audioUdpStep, hs] at hb
              rcases List.mem_append.mp hb with hold | hadd
              · exact Or.inr ⟨b, hold, hdb⟩
              · obtain rfl := List.mem_singleton.mp hadd
                cases hdb
        | stop c => exact Or.inr ⟨b, (audioStop_cases s c).2.subset hb, hdb⟩

end Runs

/-- **Audio goes where the client is.**  In every run, tokens are distinct and not zero, what is
set comes from hellos with the output's token and from its peer's address, and a destination stays
as long as the output is live. -/
theorem audio_goes_to_its_peer (conn : ℕ → AudioConn) (enabled : Bool) (es : List AudioEvent) :
    let s := run (audioUdpStep N conn) { enabled } es
    (s.live.map AudioOutput.token).Nodup ∧ ∀ a ∈ s.live, a.token ≠ 0 ∧
      a.dest = a.heard.getLast?.map Datagram.src ∧
      a.lastHelloUs = (a.heard.head?.map Datagram.now).getD 0 ∧
      (∀ d ∈ a.heard, .udp d ∈ es ∧ d.IsHello ∧ d.token = a.token ∧
        ipOf d.src = ipOf (conn a.c).addr) ∧
      ∀ es', ∀ b ∈ (run (audioUdpStep N conn) s es').live, b.id = a.id →
        b.c = a.c ∧ b.token = a.token ∧ ∀ dst, a.dest = some dst → b.dest = some dst := by
  have hinit : AudioUdp.Sound conn { enabled } :=
    ⟨fun _ h => (List.not_mem_nil h).elim, List.nodup_nil, List.nodup_nil,
      fun _ h => (List.not_mem_nil h).elim⟩
  have hs : (run (audioUdpStep N conn) { enabled } es).Sound conn :=
    run_keeps (P := AudioUdp.Sound conn) (fun _ e h => h.step e) hinit es
  refine ⟨hs.tokens, fun a ha => ?_⟩
  obtain ⟨htoken, hheard, hdest, hlast⟩ := hs.each a ha
  refine ⟨htoken, hdest, hlast, ?_, ?_⟩
  · intro d hd
    obtain ⟨hello, htok, hpeer⟩ := hheard d hd
    rcases heard_arrived es ha hd with harrived | ⟨b, hb, -⟩
    · exact ⟨harrived, hello, htok, hpeer⟩
    · cases hb
  · intro es' b hb heq
    have hstays : a.Stays (run (audioUdpStep N conn) _ es') :=
      run_keeps (P := a.Stays) (fun _ e h => h.step e) (hs.stays ha) es'
    exact hstays.2 b hb heq

/-- An IPv4 client seen through the IPv6 socket: a hello from elsewhere with the right token is
ignored, its own is taken. -/
example :
    let conn : ℕ → AudioConn := fun _ => ⟨.inet6 ⟨0xffff#96, ⟨192, 0, 2, 7⟩⟩ 40000, true⟩
    let bytes : List UInt8 := [0x72, 0x46, 0x62, 0x30, 2, 0, 5, 0, 0, 0, 0, 0, 0, 0, 0, 0]
    let s := run (audioUdpStep fullNtop6 conn) { enabled := true }
      [.start 0 [⟨5, by decide⟩] true, .udp ⟨bytes, .inet ⟨192, 0, 2, 8⟩ 5004, 100⟩,
        .udp ⟨bytes, .inet ⟨192, 0, 2, 7⟩ 5004, 200⟩]
    s.live.map (fun a => (a.dest, a.lastHelloUs)) = [(some (.inet ⟨192, 0, 2, 7⟩ 5004), 200)] := by
  decide +kernel

end Sremfb
