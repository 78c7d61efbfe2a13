import Sremfb.Server.PlugGate
import Sremfb.Server.Client
import Sremfb.Lib.Run
import Mathlib.Data.List.Nodup
import Mathlib.Data.Vector.Basic
import Mathlib.Logic.Relation

/-!
# The client table and the EVDI devices (`session.c`, `evdi.c`)

The server keeps a table of clients and a pool of EVDI devices, and the two refer to each other:
a client in the table has a device, a device in the pool has an owner or is free.  A connection
replaces the client with its MAC, may be refused on the way, and otherwise takes a device and
plugs the EDID; a client leaves when its socket dies or the compositor does not light its
connector in time.

A client is known by its address, here a number given out once, and a device by its place in the
pool, which it keeps for the lifetime of the process.  `now` is what the clock read last; each
reading lets some time pass, which the event brings along.  `log` is the plug history with nothing
dropped; nothing reads it.

`Sound` is the invariant: the table and the pool agree, and so no device is shared or leaked.
-/

namespace Sremfb

open Lib

abbrev Mac := Vector UInt8 6

/-- `mac_is_zero`. -/
def macIsZero (m : Mac) : Bool := m = Vector.replicate 6 0

/-- `SREMFB_MAX_CLIENTS`. -/
def maxClients : ℕ := 8

/-- `EVDI_MAX_CARDS`. -/
def evdiMaxCards : ℕ := 64

/-- `SremfbEvdiDevice`. -/
structure EvdiDevice where
  card : ℕ
  owner : Option ℕ
  suspect : Bool := false
  deriving DecidableEq, Repr

/-- A client of the table, with its `SremfbEvdiClient`. -/
structure EvdiClient where
  id : ℕ
  mac : Mac
  state : ClientState
  /-- The device; a client in the table has one. -/
  dev : ℕ
  psSeen : ℕ := 0
  usbEarly : Bool := false
  deriving DecidableEq

/-- `SremfbServer` with its `SremfbEvdiState`, and the outside as far as it has a state: the
clock and the running gnome-shell. -/
structure EvdiServer where
  clients : List EvdiClient := []
  devices : List EvdiDevice := []
  wedgeSeen : Bool := false
  plugs : PlugHistory := {}
  /-- What `compositor_pid` returns. -/
  shell : ℕ
  now : ℕ
  nextId : ℕ := 0
  log : List PlugEvent := []

/-- A connection, and what the system answers while it is handled. -/
structure Attempt where
  /-- The peer was accepted and its hello is valid. -/
  valid : Bool := true
  mac : Mac
  /-- What `evdi_add_usable` returns. -/
  fresh : Option ℕ := none
  /-- `evdi_check_device` says AVAILABLE and the card is not dead. -/
  usable : ℕ → Bool
  /-- `open` and `evdi_open` succeed and no other process holds the lock. -/
  opens : ℕ → Bool
  /-- The time that passes before each reading of the clock, and before the EDID is connected. -/
  dAdmit : ℕ := 0
  dGate : ℕ := 0
  dHeal : ℕ := 0
  dPlug : ℕ := 0
  dRecord : ℕ := 0

/-- `sremfb_mode_wait_verdict` says to park. -/
def modeWaitPark (powerSave : ℤ) (now psSeen : ℕ) : Bool :=
  if powerSave > 0 then true
  else psSeen > 0 && decide ((now : ℤ) - psSeen <
    if powerSave < 0 then (60 : ℤ) * gUsecPerSec else 15 * gUsecPerSec)

namespace EvdiServer

/-! ## The gate -/

/-- `g_get_monotonic_time`, after `d` microseconds. -/
def wait (d : ℕ) (s : EvdiServer) : EvdiServer := { s with now := s.now + d }

/-- `plug_gate` on a fresh reading of the clock. -/
def gate (d : ℕ) (s : EvdiServer) : EvdiServer × PlugGate :=
  let s := s.wait d
  let (h, g) := plugGate s.shell s.now s.plugs
  ({ s with plugs := h }, g)

/-- `plug_record`, of something that happened at `made`. -/
def record (d : ℕ) (kind : PlugKind) (made : ℕ → ℕ) (s : EvdiServer) : EvdiServer :=
  let s := s.wait d
  let e : PlugEvent := { t := s.now, kind := kind, made := made s.now }
  { s with plugs := s.plugs.record s.shell e, log := s.log ++ [e] }

/-! ## The pool -/

/-- `acquire_pooled`. -/
def acquirePooled (id : ℕ) (allowSuspect : Bool) (s : EvdiServer) : Option (EvdiServer × ℕ) :=
  (s.devices.findIdx? fun d => d.owner.isNone && (!d.suspect || allowSuspect)).map fun i =>
    ({ s with devices := s.devices.modify i fun d => { d with owner := some id } }, i)

/-- `acquire_card`.  The lock is refused on a card that is in the pool already. -/
def acquireCard (id : ℕ) (a : Attempt) (card : ℕ) (s : EvdiServer) : Option (EvdiServer × ℕ) :=
  if a.opens card && s.devices.all fun d => d.card ≠ card then
    some ({ s with devices := s.devices ++ [{ card := card, owner := some id }] },
      s.devices.length)
  else none

/-- `self_heal_add`. -/
def selfHealAdd (a : Attempt) (s : EvdiServer) : EvdiServer × Option ℕ :=
  let (s, g) := s.gate a.dHeal
  if g.failRun > selfhealBudget then (s, none) else (s, a.fresh)

/-- The part of `sremfb_evdi_acquire` after a wedge was seen. -/
def acquireFresh (id : ℕ) (a : Attempt) (s : EvdiServer) : EvdiServer × Option ℕ :=
  if s.wedgeSeen then
    let (s, fresh) := s.selfHealAdd a
    match fresh.bind fun card => s.acquireCard id a card with
    | some (s', i) => (s', some i)
    | none => (s, none)
  else (s, none)

/-- `sremfb_evdi_acquire`: the device it found. -/
def evdiAcquire (id : ℕ) (a : Attempt) (s : EvdiServer) : EvdiServer × Option ℕ :=
  match s.acquirePooled id false with
  | some (s', i) => (s', some i)
  | none =>
      match s.acquireFresh id a with
      | (s', some i) => (s', some i)
      | (s', none) =>
          match (List.range evdiMaxCards).findSome? fun i =>
              if a.usable i then s'.acquireCard id a i else none with
          | some (s'', i) => (s'', some i)
          | none =>
              match s'.acquirePooled id true with
              | some (s'', i) => (s'', some i)
              | none => (s', none)

/-- `sremfb_evdi_plug`: the client it leaves, waiting for a mode. -/
def evdiPlug (id dev : ℕ) (a : Attempt) (s : EvdiServer) : EvdiServer × EvdiClient :=
  let s := s.wait a.dPlug
  let made := s.now
  (s.record a.dRecord .plug fun _ => made, { id := id, mac := a.mac, state := .modeWait, dev := dev })

/-- `evdi_source_acquire`: the gate again, a device, the plug. -/
def sourceAcquire (id : ℕ) (a : Attempt) (s : EvdiServer) : EvdiServer × Option EvdiClient :=
  let (s, g) := s.gate a.dGate
  if g.verdict ≠ .opened then (s, none)
  else
    match s.evdiAcquire id a with
    | (s, none) => (s, none)
    | (s, some dev) =>
        let (s, c) := s.evdiPlug id dev a
        (s, some c)

/-! ## The table -/

/-- `sremfb_client_lost`, with `evdi_source_release`: the device becomes free and the client is
forgotten. -/
def clientLost (c : EvdiClient) (s : EvdiServer) : EvdiServer :=
  { s with
    devices := s.devices.modify c.dev fun d => { d with owner := none }
    clients := s.clients.filter fun o => o.id ≠ c.id }

/-- The replacement of a client that reconnects. -/
def replace (mac : Mac) (s : EvdiServer) : EvdiServer :=
  if macIsZero mac then s
  else
    match s.clients.find? fun c => c.mac = mac with
    | some old => s.clientLost old
    | none => s

/-- `on_listen_ready`. -/
def onListenReady (a : Attempt) (s : EvdiServer) : EvdiServer :=
  if a.valid = false then s
  else
    let s := s.replace a.mac
    if s.clients.length ≥ maxClients then s
    else
      let (s, g) := s.gate a.dAdmit
      if g.verdict ≠ .opened then s
      else
        -- the new client's address
        let id := s.nextId
        match s.sourceAcquire id a with
        | (s, none) => { s with nextId := id + 1 }
        | (s, some c) => { s with nextId := id + 1, clients := s.clients ++ [c] }

/-- A change of the fields of one client. -/
def modifyClient (id : ℕ) (f : EvdiClient → EvdiClient) (s : EvdiServer) : EvdiServer :=
  { s with clients := s.clients.map fun c => if c.id = id then f c else c }

/-- A change of the fields of one device. -/
def modifyDevice (i : ℕ) (f : EvdiDevice → EvdiDevice) (s : EvdiServer) : EvdiServer :=
  { s with devices := s.devices.modify i f }

/-- `on_mode_timeout`; the timer is armed while the client waits. -/
def onModeTimeout (id : ℕ) (powerSave : ℤ) (d dRecord : ℕ) (s : EvdiServer) : EvdiServer :=
  match s.clients.find? fun c => c.id = id ∧ c.state = .modeWait with
  | none => s
  | some c =>
      let s := s.wait d
      let psSeen := if powerSave > 0 then s.now else c.psSeen
      if modeWaitPark powerSave s.now psSeen then
        s.modifyClient id fun c => { c with psSeen := psSeen, usbEarly := true }
      else
        let s := { s.modifyDevice c.dev fun d => { d with suspect := true } with wedgeSeen := true }
        (s.record dRecord .fail fun t => t).clientLost c

/-- `on_mode_changed` of the `i`-th device, with a mode that is usable or not. -/
def onModeChanged (i : ℕ) (usable : Bool) (dGate dRecord : ℕ) (s : EvdiServer) : EvdiServer :=
  match (s.devices[i]?).bind (·.owner) with
  | none => s
  | some id =>
      if usable = false then s
      else
        let s := s.modifyDevice i fun d => { d with suspect := false }
        if s.clients.any fun c => c.id = id ∧ c.state = .modeWait then
          let s := s.modifyClient id fun c => { c with state := .streaming }
          -- `plug_lit`
          (s.gate dGate).1.record dRecord .lit fun t => t
        else s

/-- What the table and the pool go through. -/
inductive Event
  | listen (a : Attempt)
  /-- The socket died, or the idle callback of a scheduled loss runs. -/
  | lost (id : ℕ)
  | modeTimeout (id : ℕ) (powerSave : ℤ) (d dRecord : ℕ)
  | modeChanged (i : ℕ) (usable : Bool) (dGate dRecord : ℕ)
  /-- Another gnome-shell runs. -/
  | relogin (pid : ℕ)

def step (s : EvdiServer) : Event → EvdiServer
  | .listen a => s.onListenReady a
  | .lost id =>
      match s.clients.find? fun c => c.id = id with
      | some c => s.clientLost c
      | none => s
  | .modeTimeout id ps d dRecord => s.onModeTimeout id ps d dRecord
  | .modeChanged i usable dGate dRecord => s.onModeChanged i usable dGate dRecord
  | .relogin pid => { s with shell := pid }

/-- The server has just started. -/
def init (shell now : ℕ) : EvdiServer where
  shell := shell
  now := now

/-! ## What a connection can do -/

section Cases

variable {s t u : EvdiServer} {a : Attempt} {id : ℕ}

/-- The gate was looked at, any number of times. -/
def Looked : EvdiServer → EvdiServer → Prop :=
  Relation.ReflTransGen fun s t => ∃ d, t = (s.gate d).1

lemma looked_gate (s : EvdiServer) (d : ℕ) : Looked s (s.gate d).1 := .single ⟨d, rfl⟩

/-- Looking at the gate lets time pass and prunes the history. -/
lemma Looked.eq (h : Looked s t) : ∃ n ps, t = { s with now := n, plugs := ps } := by
  induction h with
  | refl => exact ⟨s.now, s.plugs, rfl⟩
  | tail _ hstep ih =>
      obtain ⟨n, ps, rfl⟩ := ih
      obtain ⟨d, rfl⟩ := hstep
      exact ⟨_, _, rfl⟩

/-- The owner of the `i`-th device. -/
def ownerAt (ds : List EvdiDevice) (i : ℕ) : Option ℕ := (ds[i]?).bind (·.owner)

/-- The `i`-th device was free, or not there, and now belongs to `id`. -/
def Took (id : ℕ) (ds ds' : List EvdiDevice) (i : ℕ) : Prop :=
  ownerAt ds i = none ∧ ∀ j, ownerAt ds' j = if j = i then some id else ownerAt ds j

lemma ownerAt_modify (ds : List EvdiDevice) (i j : ℕ) (f : EvdiDevice → EvdiDevice) :
    ownerAt (ds.modify i f) j =
      if i = j then (ds[j]?).bind fun d => (f d).owner else ownerAt ds j := by
  unfold ownerAt
  rw [List.getElem?_modify]
  split
  · cases ds[j]? <;> rfl
  · simp

lemma took_of_acquirePooled {allow : Bool} {i : ℕ}
    (h : s.acquirePooled id allow = some (t, i)) :
    ∃ ds, t = { s with devices := ds } ∧ Took id s.devices ds i := by
  unfold acquirePooled at h
  obtain ⟨j, hj, he⟩ := Option.map_eq_some_iff.mp h
  obtain ⟨rfl, rfl⟩ := Prod.mk.inj he
  refine ⟨_, rfl, ?_⟩
  obtain ⟨hlt, hfree, -⟩ := List.findIdx?_eq_some_iff_getElem.mp hj
  rw [Bool.and_eq_true, Option.isNone_iff_eq_none] at hfree
  refine ⟨by simp [ownerAt, hlt, hfree.1], ?_⟩
  intro k
  rw [ownerAt_modify]
  by_cases hk : j = k
  · subst hk
    simp [hlt]
  · rw [if_neg hk, if_neg (Ne.symm hk)]

lemma took_of_acquireCard {card i : ℕ} (h : s.acquireCard id a card = some (t, i)) :
    ∃ ds, t = { s with devices := ds } ∧ Took id s.devices ds i := by
  unfold acquireCard at h
  split at h
  · obtain ⟨rfl, rfl⟩ := Prod.mk.inj (Option.some.inj h)
    refine ⟨_, rfl, by simp [ownerAt], ?_⟩
    intro j
    unfold ownerAt
    rcases Nat.lt_trichotomy j s.devices.length with hj | rfl | hj
    · rw [List.getElem?_append_left hj, if_neg hj.ne]
    · simp
    · rw [if_neg hj.ne', List.getElem?_eq_none (by simp; omega),
        List.getElem?_eq_none (by omega)]
  · cases h

/-- An acquisition looks at the gate at most, and takes one free device or none. -/
lemma evdiAcquire_cases (id : ℕ) (a : Attempt) (s : EvdiServer) : ∃ t, Looked s t ∧
    (s.evdiAcquire id a = (t, none) ∨
      ∃ ds i, s.evdiAcquire id a = ({ t with devices := ds }, some i) ∧ Took id s.devices ds i) := by
  unfold evdiAcquire
  split <;> rename_i hpool
  · obtain ⟨ds, rfl, htook⟩ := took_of_acquirePooled hpool
    exact ⟨s, .refl, .inr ⟨ds, _, rfl, htook⟩⟩
  · -- past the pool: a fresh card, a card that is there, a suspect one
    have hfresh : ∃ t, Looked s t ∧ (s.acquireFresh id a = (t, none) ∨
        ∃ ds i, s.acquireFresh id a = ({ t with devices := ds }, some i) ∧
          Took id s.devices ds i) := by
      unfold acquireFresh
      split
      · obtain ⟨n, ps, hgate⟩ := (looked_gate s a.dHeal).eq
        have hheal : ∃ f, s.selfHealAdd a = ((s.gate a.dHeal).1, f) := by
          unfold selfHealAdd
          dsimp only
          split
          · exact ⟨_, rfl⟩
          · exact ⟨_, rfl⟩
        obtain ⟨f, hf⟩ := hheal
        rw [hf]
        refine ⟨_, looked_gate s a.dHeal, ?_⟩
        dsimp only
        split <;> rename_i hcard
        · obtain ⟨card, -, hcard⟩ := Option.bind_eq_some_iff.mp hcard
          obtain ⟨ds, rfl, htook⟩ := took_of_acquireCard hcard
          rw [hgate] at htook
          exact .inr ⟨ds, _, rfl, htook⟩
        · exact .inl rfl
      · exact ⟨s, .refl, .inl rfl⟩
    obtain ⟨t, ht, hf | ⟨ds, i, hf, htook⟩⟩ := hfresh
    · obtain ⟨n, ps, hteq⟩ := ht.eq
      have hdev : t.devices = s.devices := by rw [hteq]
      refine ⟨t, ht, ?_⟩
      rw [hf]
      dsimp only
      split <;> rename_i hscan
      · obtain ⟨card, -, hcard⟩ := List.exists_of_findSome?_eq_some hscan
        split at hcard
        · obtain ⟨ds, rfl, htook⟩ := took_of_acquireCard hcard
          exact .inr ⟨ds, _, rfl, hdev ▸ htook⟩
        · cases hcard
      · split <;> rename_i hlast
        · obtain ⟨ds, rfl, htook⟩ := took_of_acquirePooled hlast
          exact .inr ⟨ds, _, rfl, hdev ▸ htook⟩
        · exact .inl rfl
    · refine ⟨t, ht, .inr ⟨ds, i, ?_, htook⟩⟩
      rw [hf]

/-- A connection that got through, from the table `t` after the replacement: the gate was open,
a free device was taken and the EDID plugged. -/
def Admitted (a : Attempt) (t s' : EvdiServer) : Prop :=
  t.clients.length < maxClients ∧ ∃ u v ds dev, u = (t.gate a.dAdmit).1 ∧
    (u.gate a.dGate).2.verdict = .opened ∧ Looked (u.gate a.dGate).1 v ∧
    Took t.nextId t.devices ds dev ∧
    s' = { ({ v with devices := ds }.evdiPlug t.nextId dev a).1 with
      nextId := t.nextId + 1
      clients := t.clients ++ [{ id := t.nextId, mac := a.mac, state := .modeWait, dev := dev }] }

/-- **What a connection can do.**  It is ignored; or, after the replacement, it is refused, having
looked at the gate at most and used up an address; or it is admitted. -/
lemma onListenReady_cases (a : Attempt) (s : EvdiServer) :
    a.valid = false ∧ s.onListenReady a = s ∨
    (∃ u n, Looked (s.replace a.mac) u ∧ (s.replace a.mac).nextId ≤ n ∧
      s.onListenReady a = { u with nextId := n }) ∨
    Admitted a (s.replace a.mac) (s.onListenReady a) := by
  unfold onListenReady
  split <;> rename_i hvalid
  · exact .inl ⟨hvalid, rfl⟩
  refine .inr ?_
  set t := s.replace a.mac with ht
  clear_value t
  dsimp only
  split <;> rename_i hroom
  · exact .inl ⟨t, t.nextId, .refl, le_rfl, rfl⟩
  have hadmit := looked_gate t a.dAdmit
  obtain ⟨n, ps, hu⟩ := hadmit.eq
  set u := (t.gate a.dAdmit).1 with hudef
  clear_value u
  split
  · exact .inl ⟨u, u.nextId, hadmit, by rw [hu], rfl⟩
  have hid : t.nextId = u.nextId := by rw [hu]
  have hlook : Looked t (u.gate a.dGate).1 := hadmit.trans (looked_gate u a.dGate)
  unfold sourceAcquire
  dsimp only
  by_cases hopen : (u.gate a.dGate).2.verdict = .opened
  · rw [if_neg (not_not.mpr hopen)]
    obtain ⟨v, hv, hnone | ⟨ds, dev, hsome, htook⟩⟩ :=
      evdiAcquire_cases u.nextId a (u.gate a.dGate).1
    · rw [hnone]
      exact .inl ⟨v, u.nextId + 1, hlook.trans hv, by omega, rfl⟩
    · rw [hsome]
      refine .inr ⟨by omega, u, v, ds, dev, hudef, hopen, hv, ?_, ?_⟩
      · obtain ⟨n', ps', hg⟩ := (looked_gate u a.dGate).eq
        rw [hg, hu] at htook
        rw [hid, hu]
        exact htook
      · have htv : Looked t v := hlook.trans hv
        obtain ⟨n', ps', hv'⟩ := htv.eq
        rw [hv', hid]
        rfl
  · rw [if_pos hopen]
    exact .inl ⟨_, u.nextId + 1, hlook, by omega, rfl⟩

/-- The state in which a mode timeout is recorded: the card is suspect. -/
def wedged (dev d : ℕ) (s : EvdiServer) : EvdiServer :=
  { (s.wait d).modifyDevice dev fun d => { d with suspect := true } with wedgeSeen := true }

/-- What a tick of the mode timer can do: nothing, park the client, or give it up. -/
lemma onModeTimeout_cases (id : ℕ) (ps : ℤ) (d dRecord : ℕ) (s : EvdiServer) :
    s.onModeTimeout id ps d dRecord = s ∨
    ∃ c ∈ s.clients, c.id = id ∧ c.state = .modeWait ∧
      ((∃ seen, s.onModeTimeout id ps d dRecord =
        (s.wait d).modifyClient id fun c => { c with psSeen := seen, usbEarly := true }) ∨
      s.onModeTimeout id ps d dRecord =
        ((s.wedged c.dev d).record dRecord .fail fun t => t).clientLost c) := by
  unfold onModeTimeout
  split <;> rename_i hfind
  · exact .inl rfl
  · rename_i c
    have hc : c.id = id ∧ c.state = .modeWait := by simpa using List.find?_some hfind
    refine .inr ⟨c, List.mem_of_find?_eq_some hfind, hc.1, hc.2, ?_⟩
    dsimp only
    generalize (if ps > 0 then (s.wait d).now else c.psSeen) = seen
    cases modeWaitPark ps (s.wait d).now seen with
    | true => exact .inl ⟨seen, rfl⟩
    | false => exact .inr rfl

/-- The state in which a connector that lit up is recorded. -/
def lighted (i id dGate : ℕ) (s : EvdiServer) : EvdiServer :=
  (((s.modifyDevice i fun d => { d with suspect := false }).modifyClient id
    fun c => { c with state := .streaming }).gate dGate).1

/-- What a mode change can do: nothing, clear the suspicion, or make a waiting client stream. -/
lemma onModeChanged_cases (i : ℕ) (usable : Bool) (dGate dRecord : ℕ) (s : EvdiServer) :
    s.onModeChanged i usable dGate dRecord = s ∨
    s.onModeChanged i usable dGate dRecord =
      (s.modifyDevice i fun d => { d with suspect := false }) ∨
    ∃ c ∈ s.clients, c.state = .modeWait ∧ s.onModeChanged i usable dGate dRecord =
      (s.lighted i c.id dGate).record dRecord .lit fun t => t := by
  unfold onModeChanged
  split
  · exact .inl rfl
  · rename_i id _
    split
    · exact .inl rfl
    · refine .inr ?_
      dsimp only
      split <;> rename_i hany
      · obtain ⟨c, hc, hw⟩ := List.any_eq_true.mp hany
        obtain ⟨rfl, hwait⟩ : c.id = id ∧ c.state = .modeWait := by simpa using hw
        exact .inr ⟨c, hc, hwait, rfl⟩
      · exact .inl rfl

end Cases

/-! ## The table and the pool agree -/

/-- The owners of the devices are the clients that have them. -/
def Owned (ds : List EvdiDevice) (cs : List EvdiClient) : Prop :=
  ∀ i id, ownerAt ds i = some id ↔ ∃ c ∈ cs, c.id = id ∧ c.dev = i

/-- The invariant of the table and the pool. -/
structure Sound (s : EvdiServer) : Prop where
  room : s.clients.length ≤ maxClients
  macs : ∀ c ∈ s.clients, ∀ d ∈ s.clients, macIsZero c.mac = false → c.mac = d.mac → c = d
  ids : (s.clients.map (·.id)).Nodup
  fresh : ∀ c ∈ s.clients, c.id < s.nextId
  owned : Owned s.devices s.clients

section Sound

variable {s t : EvdiServer} {a : Attempt} {c : EvdiClient} {id : ℕ}

lemma Sound.ext (h : s.Sound) (hc : t.clients = s.clients) (hd : t.devices = s.devices)
    (hn : s.nextId ≤ t.nextId) : t.Sound where
  room := hc ▸ h.room
  macs := hc ▸ h.macs
  ids := hc ▸ h.ids
  fresh := by
    rw [hc]
    exact fun c hm => (h.fresh c hm).trans_le hn
  owned := by
    rw [hc, hd]
    exact h.owned

/-- Two clients of the table with one address are one. -/
lemma Sound.eq_of_id (h : s.Sound) {c d : EvdiClient} (hc : c ∈ s.clients) (hd : d ∈ s.clients)
    (hid : c.id = d.id) : c = d := List.inj_on_of_nodup_map h.ids hc hd hid

/-- Two clients of the table with one device are one: the device has one owner. -/
lemma Sound.eq_of_dev (h : s.Sound) {c d : EvdiClient} (hc : c ∈ s.clients) (hd : d ∈ s.clients)
    (hdev : c.dev = d.dev) : c = d := by
  have h1 := (h.owned c.dev c.id).mpr ⟨c, hc, rfl, rfl⟩
  have h2 := (h.owned c.dev d.id).mpr ⟨d, hd, rfl, hdev.symm⟩
  rw [h1] at h2
  exact h.eq_of_id hc hd (Option.some.inj h2)

/-- A loss gives the device back and forgets the client. -/
lemma Sound.clientLost (h : s.Sound) (hc : c ∈ s.clients) : (s.clientLost c).Sound where
  room := (List.length_filter_le _ _).trans h.room
  macs := fun o ho d hd =>
    h.macs o (List.mem_of_mem_filter ho) d (List.mem_of_mem_filter hd)
  ids := h.ids.sublist (List.filter_sublist.map _)
  fresh := fun o ho => h.fresh o (List.mem_of_mem_filter ho)
  owned := by
    intro i id
    simp only [EvdiServer.clientLost, ownerAt_modify, List.mem_filter]
    by_cases hi : c.dev = i
    · subst hi
      rw [if_pos rfl]
      constructor
      · intro hn
        cases hd : s.devices[c.dev]? <;> simp [hd] at hn
      · rintro ⟨o, ⟨ho, hne⟩, rfl, hdev⟩
        exact absurd (congrArg EvdiClient.id (h.eq_of_dev ho hc hdev)) (by simpa using hne)
    · rw [if_neg hi, h.owned]
      constructor
      · rintro ⟨o, ho, rfl, rfl⟩
        refine ⟨o, ⟨ho, ?_⟩, rfl, rfl⟩
        simp only [ne_eq, decide_not, Bool.not_eq_eq_eq_not, Bool.not_true, decide_eq_false_iff_not]
        exact fun he => hi (h.eq_of_id ho hc he ▸ rfl)
      · rintro ⟨o, ⟨ho, -⟩, hid, hdev⟩
        exact ⟨o, ho, hid, hdev⟩

/-- The replacement leaves nobody with that MAC, and everybody with another. -/
lemma Sound.replace (h : s.Sound) (mac : Mac) : (s.replace mac).Sound ∧
    (macIsZero mac = false → ∀ c ∈ (s.replace mac).clients, c.mac ≠ mac) ∧
    (s.replace mac).nextId = s.nextId ∧ (∀ c ∈ (s.replace mac).clients, c ∈ s.clients) ∧
    ∀ c ∈ s.clients, c.mac ≠ mac ∨ macIsZero mac = true → c ∈ (s.replace mac).clients := by
  unfold EvdiServer.replace
  by_cases hz : macIsZero mac = true
  · rw [if_pos hz]
    exact ⟨h, fun hn => by simp [hz] at hn, rfl, fun _ hc => hc, fun _ hc _ => hc⟩
  rw [if_neg hz]
  split <;> rename_i hfind
  · rename_i old
    have hold : old ∈ s.clients := List.mem_of_find?_eq_some hfind
    have hmac : old.mac = mac := by simpa using List.find?_some hfind
    refine ⟨h.clientLost hold, ?_, rfl, fun c hc => List.mem_of_mem_filter hc, ?_⟩
    · -- another client with the MAC would not be distinct from the one found
      intro _ c hc hcm
      obtain ⟨hc, hne⟩ := List.mem_filter.mp hc
      have hco : c = old := h.macs c hc old hold (by simpa [hcm] using hz) (hcm.trans hmac.symm)
      simp [hco] at hne
    · intro c hc hor
      refine List.mem_filter.mpr ⟨hc, ?_⟩
      have hne : c.mac ≠ mac := hor.resolve_right hz
      simp only [ne_eq, decide_not, Bool.not_eq_eq_eq_not, Bool.not_true, decide_eq_false_iff_not]
      exact fun he => hne (h.eq_of_id hc hold he ▸ hmac)
  · refine ⟨h, fun _ c hc hcm => ?_, rfl, fun _ hc => hc, fun _ hc _ => hc⟩
    exact absurd (by simpa using hcm) (List.find?_eq_none.mp hfind c hc)

/-- A new client with a free device and a MAC of its own. -/
lemma Sound.add (h : s.Sound) {ds : List EvdiDevice} (hroom : s.clients.length < maxClients)
    (hmac : macIsZero c.mac = false → ∀ o ∈ s.clients, o.mac ≠ c.mac) (hid : c.id = s.nextId)
    (htook : Took c.id s.devices ds c.dev) (hc : t.clients = s.clients ++ [c])
    (hd : t.devices = ds) (hn : t.nextId = s.nextId + 1) : t.Sound where
  room := by
    rw [hc, List.length_append]
    exact hroom
  macs := by
    rw [hc]
    intro o ho d hd hz hm
    rcases List.mem_append.mp ho with ho' | ho' <;> rcases List.mem_append.mp hd with hd' | hd'
    · exact h.macs o ho' d hd' hz hm
    · obtain rfl := List.mem_singleton.mp hd'
      exact absurd hm (hmac (hm ▸ hz) o ho')
    · obtain rfl := List.mem_singleton.mp ho'
      exact absurd hm.symm (hmac hz d hd')
    · rw [List.mem_singleton.mp ho', List.mem_singleton.mp hd']
  ids := by
    rw [hc, List.map_append]
    refine List.Nodup.append h.ids (List.nodup_singleton _) ?_
    intro i hi hi'
    obtain ⟨o, ho, rfl⟩ := List.mem_map.mp hi
    exact absurd ((List.mem_singleton.mp hi').trans hid) (h.fresh o ho).ne
  fresh := by
    rw [hc, hn]
    intro o ho
    rcases List.mem_append.mp ho with ho | ho
    · exact (h.fresh o ho).trans (Nat.lt_succ_self _)
    · rw [List.mem_singleton.mp ho, hid]
      exact Nat.lt_succ_self _
  owned := by
    rw [hc, hd]
    intro i id
    rw [htook.2]
    by_cases hi : i = c.dev
    · rw [if_pos hi]
      subst hi
      constructor
      · intro he
        exact ⟨c, by simp, Option.some.inj he, rfl⟩
      · rintro ⟨o, ho, rfl, hdev⟩
        rcases List.mem_append.mp ho with ho | ho
        · -- the device was free, so nobody had it
          have := (h.owned c.dev o.id).mpr ⟨o, ho, rfl, hdev⟩
          rw [htook.1] at this
          cases this
        · rw [List.mem_singleton.mp ho]
    · rw [if_neg hi, h.owned]
      constructor
      · rintro ⟨o, ho, hoid, hdev⟩
        exact ⟨o, List.mem_append_left _ ho, hoid, hdev⟩
      · rintro ⟨o, ho, hoid, hdev⟩
        rcases List.mem_append.mp ho with ho | ho
        · exact ⟨o, ho, hoid, hdev⟩
        · rw [List.mem_singleton.mp ho] at hdev
          exact absurd hdev.symm hi

/-- A change of a client that keeps its identity and its device, and of a device that keeps its
owner. -/
lemma Sound.modifyClient (h : s.Sound) {f : EvdiClient → EvdiClient}
    (hf : ∀ c, (f c).id = c.id ∧ (f c).mac = c.mac ∧ (f c).dev = c.dev) :
    (s.modifyClient id f).Sound := by
  set g : EvdiClient → EvdiClient := fun c => if c.id = id then f c else c with hg
  have hgc : ∀ c, (g c).id = c.id ∧ (g c).mac = c.mac ∧ (g c).dev = c.dev := by
    intro c
    simp only [hg]
    split
    · exact hf c
    · exact ⟨rfl, rfl, rfl⟩
  have hcs : (s.modifyClient id f).clients = s.clients.map g := rfl
  refine ⟨?_, ?_, ?_, ?_, ?_⟩
  · rw [hcs, List.length_map]
    exact h.room
  · rw [hcs]
    intro c hc d hd hz hm
    obtain ⟨c, hc', rfl⟩ := List.mem_map.mp hc
    obtain ⟨d, hd', rfl⟩ := List.mem_map.mp hd
    rw [(hgc c).2.1] at hz hm
    rw [(hgc d).2.1] at hm
    rw [h.macs c hc' d hd' hz hm]
  · rw [hcs, List.map_map]
    have : (fun c => (g c).id) = fun c => c.id := funext fun c => (hgc c).1
    simpa [Function.comp_def, this] using h.ids
  · rw [hcs]
    intro c hc
    obtain ⟨c, hc', rfl⟩ := List.mem_map.mp hc
    rw [(hgc c).1]
    exact h.fresh c hc'
  · intro i j
    have hown := h.owned i j
    rw [hcs]
    refine hown.trans ?_
    constructor
    · rintro ⟨c, hc, hid, hdev⟩
      exact ⟨g c, List.mem_map_of_mem hc, (hgc c).1.trans hid, (hgc c).2.2.trans hdev⟩
    · rintro ⟨d, hd, hid, hdev⟩
      obtain ⟨c, hc, rfl⟩ := List.mem_map.mp hd
      exact ⟨c, hc, (hgc c).1.symm.trans hid, (hgc c).2.2.symm.trans hdev⟩

@[inherit_doc Sound.modifyClient]
lemma Sound.modifyDevice (h : s.Sound) {i : ℕ} {f : EvdiDevice → EvdiDevice}
    (hf : ∀ d, (f d).owner = d.owner) : (s.modifyDevice i f).Sound := by
  refine ⟨h.room, h.macs, h.ids, h.fresh, ?_⟩
  intro j k
  have hown : ownerAt (s.modifyDevice i f).devices j = ownerAt s.devices j := by
    simp only [EvdiServer.modifyDevice, ownerAt_modify, hf]
    split <;> rfl
  rw [hown]
  exact h.owned j k

/-- A connection keeps the table sound, and leaves alone everybody with another MAC. -/
lemma Sound.onListenReady (h : s.Sound) (a : Attempt) : (s.onListenReady a).Sound ∧
    ∀ c ∈ s.clients, c.mac ≠ a.mac ∨ macIsZero a.mac = true → c ∈ (s.onListenReady a).clients := by
  obtain ⟨ht, hmac, hn, -, hkeep⟩ := h.replace a.mac
  obtain ⟨-, he⟩ | ⟨u, n, hu, hnn, he⟩ | ⟨hroom, u, v, ds, dev, -, -, -, htook, he⟩ :=
    onListenReady_cases a s
  · rw [he]
    exact ⟨h, fun c hc _ => hc⟩
  · obtain ⟨m, ps, rfl⟩ := hu.eq
    rw [he]
    exact ⟨ht.ext rfl rfl hnn, hkeep⟩
  · rw [he]
    refine ⟨ht.add hroom (fun hz => hmac hz) rfl htook rfl rfl rfl, ?_⟩
    intro c hc hor
    exact List.mem_append_left _ (hkeep c hc hor)

lemma Sound.step (h : s.Sound) (ev : Event) : (s.step ev).Sound := by
  cases ev with
  | listen a => exact (h.onListenReady a).1
  | lost id =>
      simp only [EvdiServer.step]
      split <;> rename_i hfind
      · exact h.clientLost (List.mem_of_find?_eq_some hfind)
      · exact h
  | modeTimeout id ps d dRecord =>
      simp only [EvdiServer.step]
      have hwait : (s.wait d).Sound := h.ext rfl rfl le_rfl
      obtain he | ⟨c, hc, -, -, ⟨seen, he⟩ | he⟩ := onModeTimeout_cases id ps d dRecord s
      · rw [he]
        exact h
      · rw [he]
        apply hwait.modifyClient
        exact fun _ => ⟨rfl, rfl, rfl⟩
      · rw [he]
        have hdev : ((s.wait d).modifyDevice c.dev fun d => { d with suspect := true }).Sound :=
          hwait.modifyDevice fun _ => rfl
        have hrec : ((s.wedged c.dev d).record dRecord .fail fun t => t).Sound :=
          hdev.ext rfl rfl le_rfl
        exact hrec.clientLost hc
  | modeChanged i usable dGate dRecord =>
      simp only [EvdiServer.step]
      have hdev : (s.modifyDevice i fun d => { d with suspect := false }).Sound :=
        h.modifyDevice fun _ => rfl
      obtain he | he | ⟨c, -, -, he⟩ := onModeChanged_cases i usable dGate dRecord s
      · rw [he]
        exact h
      · rw [he]
        exact hdev
      · rw [he]
        refine Sound.ext (hdev.modifyClient (f := fun c => { c with state := .streaming }) ?_)
          rfl rfl le_rfl
        exact fun _ => ⟨rfl, rfl, rfl⟩
  | relogin pid => exact h.ext rfl rfl le_rfl

end Sound

lemma sound_init (shell now : ℕ) : (init shell now).Sound :=
  ⟨Nat.zero_le _, by simp [init], by simp [init], by simp [init], by simp [init, Owned, ownerAt]⟩

/-- **The client table and the device pool.**  After any sequence of connections, losses, mode
timeouts and mode changes there is room in the table, non-zero MACs are distinct, and a device
belongs to a client if and only if the client is in the table and has it.  A further connection
leaves alone every client with another MAC, and every client if its MAC is zero. -/
theorem table_sound (shell now : ℕ) (es : List Event) :
    let s := run step (init shell now) es
    s.clients.length ≤ maxClients ∧
    (∀ c ∈ s.clients, ∀ d ∈ s.clients, macIsZero c.mac = false → c.mac = d.mac → c = d) ∧
    (∀ i id, ownerAt s.devices i = some id ↔ ∃ c ∈ s.clients, c.id = id ∧ c.dev = i) ∧
    ∀ a, ∀ c ∈ s.clients, c.mac ≠ a.mac ∨ macIsZero a.mac = true →
      c ∈ (s.step (.listen a)).clients := by
  intro s
  have h : s.Sound := run_keeps (P := Sound) (fun _ ev hs => hs.step ev) (sound_init shell now) es
  exact ⟨h.room, h.macs, h.owned, fun a => (h.onListenReady a).2⟩

end EvdiServer

end Sremfb
