import Sremfb.Server.Evdi

/-!
# The USB peer files (`session.c`, `evdi.c`)

A client that exports USB devices is announced to a root-side reconciler by a file named after its
address: written when it starts to stream, or earlier when it is parked in power save, and removed
when the client is lost.  The table of clients is that of `EvdiServer`; here it runs together with
the files (`UsbServer`).

The file is named after the IP address alone, while clients are lost one connection at a time.  So
`sremfb_usb_peer_remove` takes the file away from every other client behind the same address, and
does so even for a client that was never announced.  `Orderly` says when a step does not,
`mirrors_step_iff` that this is exact.
-/

namespace Sremfb

open Lib

/-- The part of a string before the last `ch`, as `strrchr` finds it. -/
def beforeLast (ch : Char) (s : List Char) : List Char :=
  if ch ∈ s then ((s.reverse.dropWhile (· ≠ ch)).drop 1).reverse else s

lemma beforeLast_append {ch : Char} (s : List Char) {t : List Char} (ht : ch ∉ t) :
    beforeLast ch (s ++ ch :: t) = s := by
  have hdrop : (t.reverse ++ ch :: s.reverse).dropWhile (· ≠ ch) = ch :: s.reverse := by
    rw [List.dropWhile_append_of_pos]
    · simp
    · intro c hc
      simp only [ne_eq, decide_not, Bool.not_eq_eq_eq_not, Bool.not_true, decide_eq_false_iff_not]
      rintro rfl
      exact ht (List.mem_reverse.mp hc)
  rw [beforeLast, if_pos (by simp), List.reverse_append, List.reverse_cons, List.append_assoc,
    List.singleton_append, hdrop]
  simp

/-- What the server knows of a connection's other end. -/
structure UsbPeer where
  /-- `peer`: `ip:port`. -/
  peer : List Char
  usbCap : Bool

namespace UsbPeer

/-- The address a file is named after; the buffer of `usb_peer_path` holds 63 characters. -/
def ip (p : UsbPeer) : List Char := beforeLast ':' (p.peer.take 63)

/-- `usb_peer_path`. -/
def usbPeerPath (p : UsbPeer) : List Char := "/run/sremfb/usb-".toList ++ p.ip

/-- The port is cut off. -/
lemma ip_eq {p : UsbPeer} {ip port : List Char} (hp : p.peer = ip ++ ':' :: port)
    (hport : ':' ∉ port) (hlen : p.peer.length ≤ 63) : p.ip = ip := by
  rw [UsbPeer.ip, List.take_of_length_le hlen, hp, beforeLast_append ip hport]

end UsbPeer

/-- The EVDI server with the directory of peer files: the MAC each holds, by path. -/
structure UsbServer where
  srv : EvdiServer
  /-- The other end of each connection that was accepted, by the client's address. -/
  peers : ℕ → UsbPeer
  files : List Char → Option Mac

namespace UsbServer

/-- `sremfb_usb_peer_add`, in a directory that can be written. -/
def usbPeerAdd (c : EvdiClient) (s : UsbServer) : UsbServer :=
  if (s.peers c.id).usbCap = false then s
  else { s with files := Function.update s.files (s.peers c.id).usbPeerPath (some c.mac) }

/-- `sremfb_usb_peer_remove`. -/
def usbPeerRemove (c : EvdiClient) (s : UsbServer) : UsbServer :=
  if (s.peers c.id).usbCap = false then s
  else { s with files := Function.update s.files (s.peers c.id).usbPeerPath none }

@[simp] lemma usbPeerAdd_peers (c : EvdiClient) (s : UsbServer) :
    (s.usbPeerAdd c).peers = s.peers := by
  unfold usbPeerAdd
  split <;> rfl

@[simp] lemma usbPeerRemove_peers (c : EvdiClient) (s : UsbServer) :
    (s.usbPeerRemove c).peers = s.peers := by
  unfold usbPeerRemove
  split <;> rfl

/-- `sremfb_client_lost`. -/
def clientLost (c : EvdiClient) (s : UsbServer) : UsbServer :=
  { s.usbPeerRemove c with srv := s.srv.clientLost c }

/-- The client a connection with this MAC replaces. -/
def replaced (mac : Mac) (s : UsbServer) : Option EvdiClient :=
  if macIsZero mac then none else s.srv.clients.find? fun c => c.mac = mac

/-- `on_listen_ready`.  The new client, if there is one, gets the next address. -/
def onListenReady (a : Attempt) (p : UsbPeer) (s : UsbServer) : UsbServer :=
  let t :=
    if a.valid = false then s
    else
      match s.replaced a.mac with
      | some old => s.usbPeerRemove old
      | none => s
  { t with srv := s.srv.onListenReady a, peers := Function.update s.peers s.srv.nextId p }

/-- The client whose mode timer goes off. -/
def waiting (id : ℕ) (s : UsbServer) : Option EvdiClient :=
  s.srv.clients.find? fun c => c.id = id ∧ c.state = .modeWait

/-- A tick of the mode timer parks the client. -/
def parks (c : EvdiClient) (powerSave : ℤ) (d : ℕ) (s : UsbServer) : Bool :=
  let now := s.srv.now + d
  modeWaitPark powerSave now (if powerSave > 0 then now else c.psSeen)

/-- `on_mode_timeout`. -/
def onModeTimeout (id : ℕ) (powerSave : ℤ) (d dRecord : ℕ) (s : UsbServer) : UsbServer :=
  let t :=
    match s.waiting id with
    | none => s
    | some c =>
        if s.parks c powerSave d then if c.usbEarly then s else s.usbPeerAdd c
        else s.usbPeerRemove c
  { t with srv := s.srv.onModeTimeout id powerSave d dRecord }

/-- `on_mode_changed`. -/
def onModeChanged (i : ℕ) (usable : Bool) (dGate dRecord : ℕ) (s : UsbServer) : UsbServer :=
  let t :=
    match (s.srv.devices[i]?).bind (·.owner) with
    | none => s
    | some id =>
        if usable = false then s
        else
          match s.waiting id with
          | none => s
          | some c => if c.usbEarly then s else s.usbPeerAdd c
  { t with srv := s.srv.onModeChanged i usable dGate dRecord }

/-- What the server goes through, as in `EvdiServer`; a connection comes from somewhere. -/
inductive Event
  | listen (a : Attempt) (p : UsbPeer)
  | lost (id : ℕ)
  | modeTimeout (id : ℕ) (powerSave : ℤ) (d dRecord : ℕ)
  | modeChanged (i : ℕ) (usable : Bool) (dGate dRecord : ℕ)
  | relogin (pid : ℕ)

/-- The event without the address. -/
def Event.srv : Event → EvdiServer.Event
  | .listen a _ => .listen a
  | .lost id => .lost id
  | .modeTimeout id ps d dRecord => .modeTimeout id ps d dRecord
  | .modeChanged i usable dGate dRecord => .modeChanged i usable dGate dRecord
  | .relogin pid => .relogin pid

def step (s : UsbServer) : Event → UsbServer
  | .listen a p => s.onListenReady a p
  | .lost id =>
      match s.srv.clients.find? fun c => c.id = id with
      | some c => s.clientLost c
      | none => s
  | .modeTimeout id ps d dRecord => s.onModeTimeout id ps d dRecord
  | .modeChanged i usable dGate dRecord => s.onModeChanged i usable dGate dRecord
  | .relogin pid => { s with srv := s.srv.step (.relogin pid) }

/-- The server has just started: `usb_peers_clear` has removed what an earlier run left. -/
def init (shell now : ℕ) : UsbServer where
  srv := .init shell now
  peers := fun _ => ⟨[], false⟩
  files := fun _ => none

/-! ## The files and the table -/

/-- The client is streaming, or parked in power save. -/
def announced (c : EvdiClient) : Bool := c.state == .streaming || c.usbEarly

/-- A client of the table that has to be announced by this file. -/
def Announces (s : UsbServer) (path : List Char) (c : EvdiClient) : Prop :=
  c ∈ s.srv.clients ∧ announced c = true ∧ (s.peers c.id).usbCap = true ∧
    (s.peers c.id).usbPeerPath = path

instance (s : UsbServer) (path : List Char) (c : EvdiClient) : Decidable (s.Announces path c) :=
  inferInstanceAs (Decidable (_ ∧ _))

/-- **The files mirror the table.** -/
def Mirrors (s : UsbServer) : Prop :=
  ∀ path, (s.files path).isSome = true ↔ ∃ c, s.Announces path c

/-- The client an event makes the server lose. -/
def leaver (s : UsbServer) : Event → Option EvdiClient
  | .listen a _ => if a.valid = false then none else s.replaced a.mac
  | .lost id => s.srv.clients.find? fun c => c.id = id
  | .modeTimeout id ps d _ => (s.waiting id).filter fun c => !s.parks c ps d
  | .modeChanged .. | .relogin _ => none

/-- The client that leaves, if it exports devices, has its file for itself. -/
def Orderly (s : UsbServer) (ev : Event) : Prop :=
  ∀ c, s.leaver ev = some c → (s.peers c.id).usbCap = true →
    ∀ o, s.Announces (s.peers c.id).usbPeerPath o → o = c

lemma orderly_of_none {s : UsbServer} {ev : Event} (h : s.leaver ev = none) : s.Orderly ev := by
  intro c hc
  rw [h] at hc
  cases hc

section Steps

variable {s t : UsbServer} {c : EvdiClient} {path : List Char}

/-- The server runs as it would without the files. -/
lemma step_srv (s : UsbServer) (ev : Event) : (s.step ev).srv = s.srv.step ev.srv := by
  cases ev with
  | lost id =>
      simp only [step, Event.srv, EvdiServer.step]
      cases s.srv.clients.find? fun c => c.id = id with
      | none => rfl
      | some c => rfl
  | listen a p => rfl
  | modeTimeout id ps d dRecord => rfl
  | modeChanged i usable dGate dRecord => rfl
  | relogin pid => rfl

/-- The files stay, and who has to be announced stays. -/
lemma mirrors_congr (hf : t.files = s.files)
    (ha : ∀ path, (∃ o, t.Announces path o) ↔ ∃ o, s.Announces path o) :
    t.Mirrors ↔ s.Mirrors := by
  refine forall_congr' fun path => ?_
  rw [hf, ha]

/-- A client that is announced, by one more file if it exports devices. -/
lemma Mirrors.of_add (h : s.Mirrors) (hf : t.files = (s.usbPeerAdd c).files)
    (ha : ∀ path, (∃ o, t.Announces path o) ↔ (∃ o, s.Announces path o) ∨
      (s.peers c.id).usbCap = true ∧ (s.peers c.id).usbPeerPath = path) : t.Mirrors := by
  intro path
  rw [hf, ha, usbPeerAdd]
  cases hcap : (s.peers c.id).usbCap with
  | false => simpa using h path
  | true =>
      simp only [Bool.true_eq_false, if_false, true_and]
      by_cases hp : path = (s.peers c.id).usbPeerPath
      · subst hp
        simp
      · rw [Function.update_of_ne hp, h path, or_iff_left (Ne.symm hp)]

/-- **A client leaves**, and its file with it: that is right unless somebody else needs it. -/
lemma Mirrors.of_remove (h : s.Mirrors) (hf : t.files = (s.usbPeerRemove c).files)
    (ha : ∀ path o, t.Announces path o ↔ s.Announces path o ∧ o ≠ c) :
    t.Mirrors ↔ ((s.peers c.id).usbCap = true →
      ∀ o, s.Announces (s.peers c.id).usbPeerPath o → o = c) := by
  have hother : ∀ path, (∀ o, s.Announces path o → o ≠ c) →
      ((∃ o, t.Announces path o) ↔ ∃ o, s.Announces path o) := by
    intro path hne
    refine exists_congr fun o => ?_
    rw [ha]
    exact and_iff_left_of_imp (hne o)
  cases hcap : (s.peers c.id).usbCap with
  | false =>
      simp only [Bool.false_eq_true, false_imp_iff, iff_true]
      refine (mirrors_congr (by rw [hf, usbPeerRemove, if_pos hcap]) fun path => ?_).mpr h
      refine hother path ?_
      rintro o ho rfl
      rw [ho.2.2.1] at hcap
      cases hcap
  | true =>
      have hfiles : t.files = Function.update s.files (s.peers c.id).usbPeerPath none := by
        rw [hf, usbPeerRemove, if_neg (by simp [hcap])]
      constructor
      · intro ht _ o ho
        by_contra hne
        have := (ht _).mpr ⟨o, (ha _ o).mpr ⟨ho, hne⟩⟩
        simp [hfiles] at this
      · intro hown path
        rw [hfiles]
        by_cases hp : path = (s.peers c.id).usbPeerPath
        · subst hp
          simp only [Function.update_self, Option.isSome_none, Bool.false_eq_true, false_iff]
          rintro ⟨o, ho⟩
          obtain ⟨ho, hne⟩ := (ha _ o).mp ho
          exact hne (hown rfl o ho)
        · rw [Function.update_of_ne hp, h path, hother path]
          rintro o ho rfl
          exact hp ho.2.2.2.symm

/-- Losing a client is losing its announcement. -/
lemma announces_clientLost (hs : s.srv.Sound) (hc : c ∈ s.srv.clients)
    (ht : t.srv.clients = s.srv.clients.filter fun o => o.id ≠ c.id) (hp : t.peers = s.peers)
    (path : List Char) (o : EvdiClient) :
    t.Announces path o ↔ s.Announces path o ∧ o ≠ c := by
  unfold Announces
  rw [ht, hp, List.mem_filter]
  constructor
  · rintro ⟨⟨ho, hne⟩, hrest⟩
    exact ⟨⟨ho, hrest⟩, fun he => by simp [he] at hne⟩
  · rintro ⟨⟨ho, hrest⟩, hne⟩
    refine ⟨⟨ho, ?_⟩, hrest⟩
    simpa using fun hid => hne (hs.eq_of_id ho hc hid)

/-- A client that waits for its mode, as the timer and the mode change find it. -/
lemma waiting_spec {id : ℕ} (h : s.waiting id = some c) :
    c ∈ s.srv.clients ∧ c.id = id ∧ c.state = .modeWait := by
  refine ⟨List.mem_of_find?_eq_some h, ?_⟩
  simpa [waiting] using List.find?_some h

lemma srv_onModeTimeout_none {id : ℕ} (h : s.waiting id = none) (ps : ℤ) (d dRecord : ℕ) :
    s.srv.onModeTimeout id ps d dRecord = s.srv := by
  unfold waiting at h
  rw [EvdiServer.onModeTimeout, h]

lemma clients_onModeTimeout_park {id : ℕ} (h : s.waiting id = some c) {ps : ℤ} {d : ℕ}
    (hpark : s.parks c ps d = true) (dRecord : ℕ) :
    ∃ seen, (s.srv.onModeTimeout id ps d dRecord).clients = s.srv.clients.map fun o =>
      if o.id = id then { o with psSeen := seen, usbEarly := true } else o := by
  unfold waiting at h
  unfold parks at hpark
  rw [EvdiServer.onModeTimeout, h]
  have hpark' : modeWaitPark ps (s.srv.wait d).now
      (if ps > 0 then (s.srv.wait d).now else c.psSeen) = true := hpark
  dsimp only
  rw [if_pos hpark']
  exact ⟨_, rfl⟩

lemma clients_onModeTimeout_lost {id : ℕ} (h : s.waiting id = some c) {ps : ℤ} {d : ℕ}
    (hpark : s.parks c ps d = false) (dRecord : ℕ) :
    (s.srv.onModeTimeout id ps d dRecord).clients =
      s.srv.clients.filter fun o => o.id ≠ c.id := by
  unfold waiting at h
  unfold parks at hpark
  rw [EvdiServer.onModeTimeout, h]
  have hpark' : modeWaitPark ps (s.srv.wait d).now
      (if ps > 0 then (s.srv.wait d).now else c.psSeen) = false := hpark
  dsimp only
  rw [hpark', if_neg Bool.false_ne_true]
  rfl

lemma peers_onModeChanged (i : ℕ) (usable : Bool) (dGate dRecord : ℕ) (s : UsbServer) :
    (s.onModeChanged i usable dGate dRecord).peers = s.peers := by
  unfold onModeChanged
  dsimp only
  split
  · rfl
  · split
    · rfl
    · split
      · rfl
      · split
        · rfl
        · exact usbPeerAdd_peers ..

/-- A mode change leaves the table and the files as they are, or makes a waiting client stream. -/
lemma onModeChanged_cases (i : ℕ) (usable : Bool) (dGate dRecord : ℕ) (s : UsbServer) :
    (s.onModeChanged i usable dGate dRecord).srv.clients = s.srv.clients ∧
      (s.onModeChanged i usable dGate dRecord).files = s.files ∨
    ∃ c ∈ s.srv.clients, (s.onModeChanged i usable dGate dRecord).srv.clients =
        (s.srv.clients.map fun o => if o.id = c.id then { o with state := .streaming } else o) ∧
      (s.onModeChanged i usable dGate dRecord).files =
        (if c.usbEarly then s else s.usbPeerAdd c).files := by
  unfold onModeChanged EvdiServer.onModeChanged
  cases hown : (s.srv.devices[i]?).bind (·.owner) with
  | none => exact .inl ⟨rfl, rfl⟩
  | some id =>
      dsimp only
      by_cases husable : usable = false
      · rw [if_pos husable, if_pos husable]
        exact .inl ⟨rfl, rfl⟩
      rw [if_neg husable, if_neg husable]
      cases hwait : s.waiting id with
      | none =>
          have hany : ((s.srv.modifyDevice i fun d => { d with suspect := false }).clients.any
              fun c => c.id = id ∧ c.state = .modeWait) = false :=
            List.any_eq_false.mpr (List.find?_eq_none.mp hwait)
          rw [hany]
          exact .inl ⟨rfl, rfl⟩
      | some c =>
          obtain ⟨hc, rfl, hstate⟩ := waiting_spec hwait
          have hany : ((s.srv.modifyDevice i fun d => { d with suspect := false }).clients.any
              fun o => o.id = c.id ∧ o.state = .modeWait) = true :=
            List.any_eq_true.mpr ⟨c, hc, by simp [hstate]⟩
          rw [hany]
          exact .inr ⟨c, hc, rfl, rfl⟩

/-- What a connection leaves in the table: those it did not replace, and perhaps one more, which
waits. -/
lemma clients_onListenReady {s : EvdiServer} {a : Attempt} (hvalid : a.valid = true) :
    ∃ new, (s.onListenReady a).clients = (s.replace a.mac).clients ++ new ∧
      ∀ o ∈ new, announced o = false := by
  obtain ⟨hinv, -⟩ | ⟨u, n, hu, -, he⟩ | ⟨-, u, v, ds, dev, -, -, -, -, he⟩ :=
    EvdiServer.onListenReady_cases a s
  · simp [hvalid] at hinv
  · obtain ⟨m, ps, rfl⟩ := hu.eq
    exact ⟨[], by rw [he, List.append_nil], fun _ h => absurd h List.not_mem_nil⟩
  · refine ⟨[_], by rw [he], fun o ho => ?_⟩
    rw [List.mem_singleton.mp ho]
    rfl

/-- The replacement of the table is the loss of the client found. -/
lemma replace_eq_replaced (mac : Mac) (s : UsbServer) :
    s.srv.replace mac = match s.replaced mac with
      | some old => s.srv.clientLost old
      | none => s.srv := by
  unfold EvdiServer.replace replaced
  split_ifs
  · rfl
  · rfl

lemma replaced_mem {mac : Mac} (h : s.replaced mac = some c) : c ∈ s.srv.clients := by
  unfold replaced at h
  split_ifs at h
  exact List.mem_of_find?_eq_some h

/-- One more client that is not announced, and another address for a client to come. -/
lemma announces_listen (hs : s.srv.Sound) {new : List EvdiClient} {p : UsbPeer}
    (ht : t.srv.clients = s.srv.clients ++ new) (hnew : ∀ o ∈ new, announced o = false)
    (hp : t.peers = Function.update s.peers s.srv.nextId p) (path : List Char) (o : EvdiClient) :
    t.Announces path o ↔ s.Announces path o := by
  have hold : o ∈ s.srv.clients → t.peers o.id = s.peers o.id := fun ho => by
    rw [hp, Function.update_of_ne (hs.fresh o ho).ne]
  unfold Announces
  rw [ht, List.mem_append]
  constructor
  · rintro ⟨ho | ho, hann, hrest⟩
    · rw [hold ho] at hrest
      exact ⟨ho, hann, hrest⟩
    · rw [hnew o ho] at hann
      cases hann
  · rintro ⟨ho, hrest⟩
    rw [← hold ho] at hrest
    exact ⟨.inl ho, hrest⟩

/-- A client of the table that becomes announced. -/
lemma announces_mark (hc : c ∈ s.srv.clients) {f : EvdiClient → EvdiClient}
    (hf : ∀ o, (f o).id = o.id ∧ announced (f o) = true)
    (ht : t.srv.clients = s.srv.clients.map fun o => if o.id = c.id then f o else o)
    (hp : t.peers = s.peers) (path : List Char) :
    (∃ o, t.Announces path o) ↔ (∃ o, s.Announces path o) ∨
      (s.peers c.id).usbCap = true ∧ (s.peers c.id).usbPeerPath = path := by
  unfold Announces
  rw [ht, hp]
  constructor
  · rintro ⟨o', ho', hann, hcap, hpath⟩
    obtain ⟨o, ho, rfl⟩ := List.mem_map.mp ho'
    by_cases hid : o.id = c.id
    · rw [if_pos hid, (hf o).1, hid] at hcap hpath
      exact .inr ⟨hcap, hpath⟩
    · rw [if_neg hid] at hann hcap hpath
      exact .inl ⟨o, ho, hann, hcap, hpath⟩
  · rintro (⟨o, ho, hann, hcap, hpath⟩ | ⟨hcap, hpath⟩)
    · refine ⟨_, List.mem_map_of_mem ho, ?_⟩
      split_ifs with hid
      · rw [(hf o).1]
        exact ⟨(hf o).2, hcap, hpath⟩
      · exact ⟨hann, hcap, hpath⟩
    · refine ⟨_, List.mem_map_of_mem hc, ?_⟩
      rw [if_pos rfl, (hf c).1]
      exact ⟨(hf c).2, hcap, hpath⟩

/-- A waiting client becomes announced, by a file unless it has been announced before. -/
lemma Mirrors.of_mark (h : s.Mirrors) (hc : c ∈ s.srv.clients)
    {f : EvdiClient → EvdiClient} (hf : ∀ o, (f o).id = o.id ∧ announced (f o) = true)
    (ht : t.srv.clients = s.srv.clients.map fun o => if o.id = c.id then f o else o)
    (hfiles : t.files = (if c.usbEarly then s else s.usbPeerAdd c).files)
    (hp : t.peers = s.peers) : t.Mirrors := by
  have hmark := announces_mark hc hf ht hp
  cases hearly : c.usbEarly with
  | false =>
      rw [hearly] at hfiles
      exact h.of_add hfiles hmark
  | true =>
      rw [hearly] at hfiles
      refine (mirrors_congr hfiles fun path => ?_).mpr h
      rw [hmark]
      refine or_iff_left_of_imp fun ⟨hcap, hpath⟩ => ⟨c, hc, ?_, hcap, hpath⟩
      rw [announced, hearly, Bool.or_true]

/-- **One step.** -/
theorem mirrors_step_iff (hs : s.srv.Sound) (h : s.Mirrors) (ev : Event) :
    (s.step ev).Mirrors ↔ s.Orderly ev := by
  cases ev with
  | listen a p =>
      cases hvalid : a.valid with
      | false =>
          have hsame : (s.step (.listen a p)).srv.clients = s.srv.clients ++ [] := by
            simp [step, onListenReady, EvdiServer.onListenReady, hvalid]
          have hfiles : (s.step (.listen a p)).files = s.files := by
            simp [step, onListenReady, hvalid]
          have hiff := mirrors_congr hfiles fun path => exists_congr fun o =>
            announces_listen (p := p) hs hsame (fun _ h => absurd h List.not_mem_nil)
              (by simp [step, onListenReady, hvalid]) path o
          exact iff_of_true (hiff.mpr h) (orderly_of_none (by simp [leaver, hvalid]))
      | true =>
          obtain ⟨new, hnew, hann⟩ := clients_onListenReady (s := s.srv) hvalid
          -- first the old client leaves, then the new one comes
          cases hold : s.replaced a.mac with
          | none =>
              have hsame : (s.step (.listen a p)).srv.clients = s.srv.clients ++ new := by
                rw [replace_eq_replaced, hold] at hnew
                exact hnew
              have hfiles : (s.step (.listen a p)).files = s.files := by
                simp [step, onListenReady, hvalid, hold]
              have hiff := mirrors_congr hfiles fun path => exists_congr fun o =>
                announces_listen hs hsame hann rfl path o
              exact iff_of_true (hiff.mpr h) (orderly_of_none (by simp [leaver, hvalid, hold]))
          | some old =>
              have hmem := replaced_mem hold
              rw [replace_eq_replaced, hold] at hnew
              have hfiles : (s.step (.listen a p)).files = (s.clientLost old).files := by
                simp [step, onListenReady, hvalid, hold, clientLost]
              have hpeers : (s.clientLost old).peers = s.peers := usbPeerRemove_peers old s
              have hcome : (s.step (.listen a p)).Mirrors ↔ (s.clientLost old).Mirrors :=
                mirrors_congr hfiles fun path => exists_congr fun o =>
                  announces_listen (s := s.clientLost old) (hs.clientLost hmem) hnew hann
                    (by rw [hpeers]; rfl) path o
              rw [hcome, h.of_remove (t := s.clientLost old) rfl
                (announces_clientLost hs hmem rfl hpeers)]
              simp [Orderly, leaver, hvalid, hold]
  | lost id =>
      cases hfind : s.srv.clients.find? fun c => c.id = id with
      | none =>
          have hstep : s.step (.lost id) = s := by simp [step, hfind]
          rw [hstep]
          exact iff_of_true h (orderly_of_none (by simp [leaver, hfind]))
      | some c =>
          have hstep : s.step (.lost id) = s.clientLost c := by simp [step, hfind]
          have hc : c ∈ s.srv.clients := List.mem_of_find?_eq_some hfind
          rw [hstep, h.of_remove (t := s.clientLost c) rfl
            (announces_clientLost hs hc rfl (usbPeerRemove_peers c s))]
          simp [Orderly, leaver, hfind]
  | modeTimeout id ps d dRecord =>
      cases hwait : s.waiting id with
      | none =>
          have hclients : (s.step (.modeTimeout id ps d dRecord)).srv = s.srv :=
            srv_onModeTimeout_none hwait ps d dRecord
          refine iff_of_true ((mirrors_congr ?_ fun path => exists_congr fun o => ?_).mpr h)
            (orderly_of_none (by simp [leaver, hwait]))
          · simp [step, onModeTimeout, hwait]
          · unfold Announces
            rw [hclients]
            simp [step, onModeTimeout, hwait]
      | some c =>
          obtain ⟨hc, rfl, hstate⟩ := waiting_spec hwait
          cases hpark : s.parks c ps d with
          | false =>
              have hlost := clients_onModeTimeout_lost hwait hpark dRecord
              have hpeers : (s.step (.modeTimeout c.id ps d dRecord)).peers = s.peers := by
                simp [step, onModeTimeout, hwait, hpark]
              rw [h.of_remove (c := c) (by simp [step, onModeTimeout, hwait, hpark])
                (announces_clientLost hs hc hlost hpeers)]
              simp [Orderly, leaver, hwait, hpark]
          | true =>
              obtain ⟨seen, hparked⟩ := clients_onModeTimeout_park hwait hpark dRecord
              refine iff_of_true (h.of_mark hc (f := fun c =>
                { c with psSeen := seen, usbEarly := true }) ?_ hparked ?_ ?_)
                (orderly_of_none (by simp [leaver, hwait, Option.filter, hpark]))
              · exact fun o => ⟨rfl, by simp [announced]⟩
              · simp [step, onModeTimeout, hwait, hpark]
              · cases he : c.usbEarly <;> simp [step, onModeTimeout, hwait, hpark, he]
  | modeChanged i usable dGate dRecord =>
      refine iff_of_true ?_ (orderly_of_none rfl)
      obtain ⟨hclients, hfiles⟩ | ⟨c, hc, hclients, hfiles⟩ :=
        onModeChanged_cases i usable dGate dRecord s
      · refine (mirrors_congr hfiles fun path => ?_).mpr h
        unfold Announces
        simp only [hclients, peers_onModeChanged]
      · exact h.of_mark hc (f := fun o => { o with state := .streaming }) (fun o => ⟨rfl, rfl⟩)
          hclients hfiles (peers_onModeChanged i usable dGate dRecord s)
  | relogin pid =>
      exact iff_of_true ((mirrors_congr rfl fun _ => Iff.rfl).mpr h) (orderly_of_none rfl)

end Steps

/-- **The peer files mirror the streaming clients**, at every point of a run, if and only if no
client that exports devices leaves while another one behind its address is announced. -/
theorem usb_peers_mirror_iff (shell now : ℕ) (es : List Event) :
    (∀ n, (run step (init shell now) (es.take n)).Mirrors) ↔
      Along Orderly step (init shell now) es := by
  refine forall_run_iff_along (Q := fun _ => True) (J := fun s : UsbServer => s.srv.Sound)
    (P := Mirrors) (fun s ev _ hs => ?_) (fun s ev _ hs h => mirrors_step_iff hs h ev)
    (EvdiServer.sound_init shell now) ?_ fun _ _ => trivial
  · rw [step_srv]
    exact hs.step ev.srv
  · intro path
    simp [init, Announces, EvdiServer.init]

/-- A connection from port `port` of one machine. -/
def Event.connects (mac : UInt8) (port : String) : Event :=
  .listen { mac := Vector.replicate 6 mac, usable := fun _ => true, opens := fun _ => true }
    { peer := "10.0.0.2:".toList ++ port.toList, usbCap := true }

/-- Two clients behind one address stream, and the second one goes. -/
def Event.sharedAddress : List Event :=
  [.connects 1 "1000", .connects 2 "2000", .modeChanged 0 true 0 0, .modeChanged 1 true 0 0,
    .lost 1]

/-- The first client is still streaming, but its file is gone. -/
theorem file_gone_with_neighbour :
    ¬∀ n, (run step (init 1 0) (Event.sharedAddress.take n)).Mirrors := by
  intro h
  have hneed : (run step (init 1 0) (Event.sharedAddress.take 5)).Announces
      "/run/sremfb/usb-10.0.0.2".toList
      { id := 0, mac := Vector.replicate 6 1, state := .streaming, dev := 0 } := by
    decide +kernel
  exact absurd ((h 5 _).mpr ⟨_, hneed⟩) (by decide +kernel)

/-- A client that comes, streams and goes. -/
def Event.visit : List Event := [.connects 1 "1000", .modeChanged 0 true 0 0, .lost 0]

theorem usb_peers_mirror_visit :
    (run step (init 1 0) (Event.visit.take 2)).Mirrors ∧
      (run step (init 1 0) (Event.visit.take 3)).Mirrors ∧
      ((run step (init 1 0) (Event.visit.take 2)).files
        "/run/sremfb/usb-10.0.0.2".toList).isSome = true := by
  have hlit : (run step (init 1 0) (Event.visit.take 2)).srv.clients =
      [{ id := 0, mac := Vector.replicate 6 1, state := .streaming, dev := 0 }] := by
    decide +kernel
  have hlost : Orderly (run step (init 1 0) (Event.visit.take 2)) (.lost 0) := by
    intro c hc _ o ho
    have hmem := List.mem_of_find?_eq_some hc
    have hone := ho.1
    rw [hlit] at hmem hone
    rw [List.mem_singleton.mp hmem, List.mem_singleton.mp hone]
  have halong : Along Orderly step (init 1 0) Event.visit :=
    ⟨orderly_of_none (by decide +kernel), orderly_of_none rfl, hlost, trivial⟩
  have h := (usb_peers_mirror_iff 1 0 Event.visit).mpr halong
  exact ⟨h 2, h 3, by decide +kernel⟩

end UsbServer

end Sremfb
