import Sremfb.Lib.Handles
import Sremfb.Lib.Run
import Sremfb.Server.Evdi

/-!
# No callback outlives its client (`session.c`, `xmit.c`, `control.c`, `evdi.c`, `capture.c`)

Seven kinds of event sources get a client as their data.  They are armed and disarmed in five
files, several from inside one another's callbacks, and a client is freed by three of its own
callbacks, by a new connection from its MAC and by the shutdown.

Each callback is written as the list of what it does to the sources and handles, in the order of
the source (`SourceOp`), with the guards evaluated when their turn comes, so that a prefix of the list
is a moment inside the callback.  The loop may dispatch any armed source (`fire`), whoever owns it.
What does not matter here is left to the event (`World`): which branch the socket, the compositor
and the watchdog lead into, and how many calls of `sremfb_xmit_kick` a body makes through control
messages, damage and mode switches (`kicks`, each with whether something waits to go out).

`pre` states what a step asks for and `Inv.exec` shows that the steps keep the invariant.
-/

namespace Sremfb

open Lib

/-! ## The sources of a client -/

/-- `watch_id`, `out_watch_id`, `out_retry_id`, `lost_id`, `ping_timer_id`, `mode_timeout_id`,
`kick_id`. -/
inductive SourceKind
  | watch
  | outWatch
  | outRetry
  | lost
  | ping
  | mode
  | kick
  deriving DecidableEq, Repr

/-- The frame source of the server (`sremfb_source_ops`). -/
inductive FrameSource
  | evdi
  | kvm
  deriving DecidableEq, Repr

/-- What the guards read of a client. -/
structure Conn where
  mac : ℕ
  feedback : Bool
  /-- `fd >= 0`. -/
  fd : Bool := true
  /-- `state == SREMFB_CLIENT_MODE_WAIT`. -/
  modeWait : Bool := false
  /-- `state == SREMFB_CLIENT_STREAMING`. -/
  streaming : Bool := false
  grabRegistered : Bool := false
  updatePending : Bool := false

/-- The server: the loop, the table of clients and the one that is being accepted. -/
structure Host where
  source : FrameSource
  loop : Loop SourceKind ℕ := {}
  table : List ℕ := []
  accepting : Option ℕ := none
  conn : ℕ → Conn := fun _ => ⟨0, false, false, false, false, false, false⟩
  nextClient : ℕ := 0

/-- An assignment to a field of a client. -/
inductive Assign
  | closed
  | modeWait
  | streaming
  | grabRegistered
  | updatePending (b : Bool)

def Conn.assign (c : Conn) : Assign → Conn
  | .closed => { c with fd := false }
  | .modeWait => { c with modeWait := true }
  | .streaming => { c with streaming := true, modeWait := false }
  | .grabRegistered => { c with grabRegistered := true }
  | .updatePending b => { c with updatePending := b }

/-- What a callback does, one step at a time. -/
inductive SourceOp
  /-- The loop dispatches a source. -/
  | enter (id : ℕ)
  /-- The callback returns `G_SOURCE_CONTINUE` or `G_SOURCE_REMOVE`. -/
  | leave (again : Bool)
  /-- `c->X_id = g_..._add(.., c)`. -/
  | arm (c : ℕ) (k : SourceKind)
  /-- `if (!c->X_id) c->X_id = g_..._add(.., c)`. -/
  | armOnce (c : ℕ) (k : SourceKind)
  /-- `g_clear_handle_id(&c->X_id, g_source_remove)`. -/
  | clear (c : ℕ) (k : SourceKind)
  /-- `c->X_id = 0`. -/
  | forget (c : ℕ) (k : SourceKind)
  /-- `sremfb_xmit_kick`; `due` says that something waits to go out. -/
  | xmitKick (c : ℕ) (due : Bool)
  /-- The end of `sremfb_ctl_start`. -/
  | pingTimer (c : ℕ)
  /-- `sremfb_evdi_kick`, without the damage it reports; `damage` is what `evdi_request_update`
  answers. -/
  | requestUpdate (c : ℕ) (damage : Bool)
  | assign (c : ℕ) (f : Assign)
  /-- `g_new0(SremfbClient, 1)`. -/
  | alloc (conn : Conn)
  /-- `g_ptr_array_add(srv->clients, c)`. -/
  | toTable
  /-- `g_ptr_array_remove(srv->clients, c)` and `g_free(c)`. -/
  | free (c : ℕ)

namespace Host

variable (s : Host)

/-- The client is in the table, or it is the one being accepted. -/
def Alive (c : ℕ) : Prop := c ∈ s.table ∨ s.accepting = some c

/-- One step. -/
def exec : SourceOp → Host
  | .enter id => { s with loop := s.loop.enter id }
  | .leave again => { s with loop := s.loop.leave again }
  | .arm c k => { s with loop := s.loop.arm c k }
  | .armOnce c k => if s.loop.handle c k = 0 then { s with loop := s.loop.arm c k } else s
  | .clear c k => { s with loop := s.loop.clear c k }
  | .forget c k => { s with loop := s.loop.forget c k }
  | .xmitKick c due =>
      if (s.conn c).fd = true ∧ s.loop.handle c .lost = 0 ∧ s.loop.handle c .outWatch = 0 ∧
          due = true then
        { s with loop := s.loop.arm c .outWatch }
      else s
  | .pingTimer c =>
      if (s.conn c).feedback = true ∧ s.loop.handle c .ping = 0 then
        { s with loop := s.loop.arm c .ping }
      else s
  | .requestUpdate c damage =>
      let d := s.conn c
      if d.streaming = true ∧ d.grabRegistered = true ∧ d.fd = true ∧ d.updatePending = false ∧
          s.loop.handle c .lost = 0 then
        if damage then
          if s.loop.handle c .kick = 0 then { s with loop := s.loop.arm c .kick } else s
        else { s with conn := Function.update s.conn c (d.assign (.updatePending true)) }
      else s
  | .assign c f => { s with conn := Function.update s.conn c ((s.conn c).assign f) }
  | .alloc conn => { s with
      accepting := some s.nextClient
      conn := Function.update s.conn s.nextClient conn
      nextClient := s.nextClient + 1 }
  | .toTable => match s.accepting with
      | none => s
      | some c => { s with table := s.table ++ [c], accepting := none }
  | .free c => { s with
      table := s.table.erase c
      accepting := s.accepting.filter (· ≠ c) }

end Host

/-! ## Teardown -/

/-- `sremfb_xmit_reset`. -/
def SourceOp.xmitReset (c : ℕ) : List SourceOp := [.clear c .outWatch, .clear c .outRetry]

/-- `release` of the frame source: `sremfb_evdi_unplug`, or `kvm_release`.  Both call
`sremfb_ctl_stop`. -/
def FrameSource.release (src : FrameSource) (c : ℕ) : List SourceOp :=
  match src with
  | .evdi => SourceOp.xmitReset c ++ [.clear c .ping, .clear c .mode, .clear c .kick]
  | .kvm => SourceOp.xmitReset c ++ [.clear c .ping]

/-- What `sremfb_client_lost` does before it frees the client.  Input, audio, layout and USB are
stopped between the second and the third step and arm nothing. -/
def FrameSource.teardown (src : FrameSource) (c : ℕ) : List SourceOp :=
  [.clear c .lost, .clear c .watch] ++ SourceOp.xmitReset c ++ [.assign c .closed] ++ src.release c

/-- `sremfb_client_lost`. -/
def FrameSource.clientLost (src : FrameSource) (c : ℕ) : List SourceOp :=
  src.teardown c ++ [.free c]

/-! ## Callbacks -/

/-- Where `on_out_ready` ends. -/
inductive OutResult
  /-- An error, or a hang-up. -/
  | failed
  /-- The socket takes no more. -/
  | blocked
  /-- A frame was built. -/
  | built
  /-- Nothing is left to send. -/
  | idle
  deriving DecidableEq, Repr

/-- What the world answers during a callback. -/
structure World where
  /-- `on_client_io`: end of file, an error or a hang-up. -/
  gone : Bool := false
  /-- `client_parse_upstream` gives up. -/
  garbage : Bool := false
  out : OutResult := .idle
  /-- `build_next` waits for the decoder. -/
  skipEncode : Bool := false
  /-- `retry_cb`, `on_dpms`: something waits to go out. -/
  due : Bool := true
  /-- `ping_tick`: the client streams and has sent no echo for too long. -/
  dead : Bool := false
  /-- `sremfb_mode_wait_verdict` says to park the client. -/
  park : Bool := false
  /-- `evdi_request_update`: damage is pending. -/
  damage : Bool := false
  kicks : List Bool := []

/-- The calls of `sremfb_xmit_kick` that a body makes. -/
def World.xmitKicks (w : World) (c : ℕ) : List SourceOp := w.kicks.map (.xmitKick c)

/-- `sremfb_evdi_kick`. -/
def evdiKick (c : ℕ) (w : World) : List SourceOp := w.xmitKicks c ++ [.requestUpdate c w.damage]

/-- The body of the callback of a source, and whether it returns `G_SOURCE_CONTINUE`. -/
def callback (src : FrameSource) (c : ℕ) (w : World) : SourceKind → List SourceOp × Bool
  -- on_client_io
  | .watch =>
      if w.gone then (.forget c .watch :: src.clientLost c, false)
      else (w.xmitKicks c ++ if w.garbage then [.armOnce c .lost] else [], true)
  -- on_out_ready
  | .outWatch => match w.out with
      | .failed => ([.forget c .outWatch, .armOnce c .lost], false)
      | .blocked => ([], true)
      | .built => (w.xmitKicks c, true)
      | .idle => (w.xmitKicks c ++ (if w.skipEncode then [.armOnce c .outRetry] else []) ++
          [.forget c .outWatch], false)
  -- retry_cb
  | .outRetry => ([.forget c .outRetry, .xmitKick c w.due], false)
  -- client_lost_idle
  | .lost => (.forget c .lost :: src.clientLost c, false)
  -- ping_tick
  | .ping => (if w.dead then [.armOnce c .lost] else w.xmitKicks c, true)
  -- on_mode_timeout
  | .mode => if w.park then ([], true) else (.forget c .mode :: src.clientLost c, false)
  -- kick_idle
  | .kick => (.forget c .kick :: evdiKick c w, false)

/-- What the device of a client reports. -/
inductive EvdiReport
  | updateReady
  | modeChanged (usable : Bool)
  | dpms (on : Bool)
  | crtcState (on : Bool)
  | cursor

/-- What the capture does to a client: a blank message, a repaint or damage, or a cut. -/
inductive CaptureEffect
  | kick (due : Bool)
  | cut

/-- A new connection. -/
structure Arrival where
  /-- The handshake and the hello are good. -/
  valid : Bool
  mac : ℕ
  feedback : Bool
  /-- `admit` of the frame source. -/
  admitOk : Bool
  /-- `acquire` of the frame source. -/
  acquireOk : Bool
  world : World := {}

/-- What can happen. -/
inductive HostEvent
  /-- The loop dispatches a source. -/
  | fire (id : ℕ) (w : World)
  /-- The device that a client owns. -/
  | evdi (c : ℕ) (r : EvdiReport) (w : World)
  | capture (fx : List (ℕ × CaptureEffect))
  | listen (a : Arrival)
  | shutdown

namespace Host

variable (s : Host)

/-- The handlers of `on_evdi_ready`. -/
def evdiOps (c : ℕ) (w : World) : EvdiReport → List SourceOp
  | .updateReady => [.assign c (.updatePending false)] ++ w.xmitKicks c ++ [.armOnce c .kick]
  | .modeChanged usable =>
      if usable = false then []
      else SourceOp.xmitReset c ++ [.assign c .grabRegistered, .assign c (.updatePending false)] ++
        (if (s.conn c).modeWait = true ∧ (s.conn c).fd = true then
          [.clear c .mode, .xmitKick c true, .assign c .streaming, .pingTimer c]
        else []) ++ evdiKick c w
  | .dpms on => [.xmitKick c w.due] ++ if on then evdiKick c w else []
  | .crtcState on => if on then evdiKick c w else []
  | .cursor => w.xmitKicks c

/-- What `fanout`, `blank_all` and `apply_resize` do to the clients of the table. -/
def captureOps (fx : List (ℕ × CaptureEffect)) : List SourceOp :=
  (fx.filter fun p => p.1 ∈ s.table).map fun p =>
    match p.2 with
    | .kick due => .xmitKick p.1 due
    | .cut => .armOnce p.1 .lost

/-- `acquire` of the frame source, when it succeeds. -/
def acquireOps (c : ℕ) (w : World) : List SourceOp :=
  match s.source with
  | .evdi => [.assign c .modeWait, .arm c .mode]
  | .kvm => [.xmitKick c true, .assign c .streaming, .pingTimer c] ++ w.xmitKicks c

/-- `find_client_by_mac`, for a MAC that is not zero. -/
def sameMac (mac : ℕ) : Option ℕ :=
  if mac = 0 then none else s.table.find? fun c => (s.conn c).mac = mac

/-- `on_listen_ready`. -/
def listenOps (a : Arrival) : List SourceOp :=
  if a.valid = false then []
  else
    let old := s.sameMac a.mac
    let drop := old.elim [] s.source.clientLost
    if maxClients ≤ s.table.length - old.toList.length then drop
    else if s.source = .evdi ∧ a.admitOk = false then drop
    else
      let c := s.nextClient
      drop ++ [.alloc ⟨a.mac, a.feedback, true, false, false, false, false⟩] ++
        if a.acquireOk = false then [.free c]
        else s.acquireOps c a.world ++ [.toTable, .arm c .watch]

/-- The steps of an event. -/
def ops : HostEvent → List SourceOp
  | .fire id w => match s.loop.armed id with
      | none => []
      | some (k, c) =>
          .enter id :: (callback s.source c w k).1 ++ [.leave (callback s.source c w k).2]
  | .evdi c r w => if s.source = .evdi ∧ c ∈ s.table then s.evdiOps c w r else []
  | .capture fx => if s.source = .kvm then s.captureOps fx else []
  | .listen a => s.listenOps a
  | .shutdown => s.table.flatMap s.source.clientLost

/-- One event. -/
def step (ev : HostEvent) : Host := run exec s (s.ops ev)

/-- A server without clients. -/
def start (src : FrameSource) : Host := { source := src }

end Host

/-- The steps of a run, in order: the states after its prefixes are the moments of the run. -/
def Host.trace : Host → List HostEvent → List SourceOp
  | _, [] => []
  | s, ev :: evs => s.ops ev ++ Host.trace (s.step ev) evs

/-! ## What a step asks for, and the invariant -/

/-- The kinds that a frame source arms: only EVDI has the mode timer and the kick. -/
def FrameSource.Arms (src : FrameSource) (k : SourceKind) : Prop :=
  k = .mode ∨ k = .kick → src = .evdi

/-- The steps that arm at most one source, of a kind that was not armed. -/
def SourceOp.Adds : SourceOp → Prop
  | .armOnce _ _ | .xmitKick _ _ | .pingTimer _ | .requestUpdate _ _ | .assign _ _ => True
  | _ => False

/-- The steps that `pre` allows as long as the client is alive. -/
def SourceOp.For (src : FrameSource) (c : ℕ) : SourceOp → Prop
  | .armOnce c' k => c' = c ∧ src.Arms k ∧ k ≠ .watch
  | .clear c' _ | .xmitKick c' _ | .pingTimer c' => c' = c
  | .requestUpdate c' _ => c' = c ∧ src = .evdi
  | .assign _ _ => True
  | _ => False

namespace Host

/-- The condition under which the callbacks take a step. -/
def pre (s : Host) : SourceOp → Prop
  | .enter _ => s.loop.current = none
  | .leave again => ∀ id k c, s.loop.current = some (id, k, c) →
      (again = true ↔ s.Alive c ∧ s.loop.handle c k = id)
  | .arm c k => s.Alive c ∧ s.loop.handle c k = 0 ∧ s.source.Arms k
  | .armOnce c k => s.Alive c ∧ s.source.Arms k ∧ k ≠ .watch
  | .clear c _ => s.Alive c
  | .forget c k => s.loop.current = some (s.loop.handle c k, k, c)
  | .xmitKick c _ => s.Alive c
  | .pingTimer c => s.Alive c
  | .requestUpdate c _ => s.Alive c ∧ s.source = .evdi
  | .assign _ _ => True
  | .alloc _ => s.accepting = none
  | .toTable => True
  | .free c => s.Alive c ∧ ∀ k, s.loop.handle c k = 0

/-- The invariant of the loop and the clients. -/
structure Inv (s : Host) : Prop where
  sound : s.loop.Sound s.Alive
  nodup : s.table.Nodup
  apart : ∀ c, s.accepting = some c → c ∉ s.table
  below : ∀ c, s.Alive c → c < s.nextClient
  named : ∀ c k, s.loop.handle c k ≠ 0 → c < s.nextClient ∧ s.source.Arms k

variable {s : Host}

/-- A step of the loop alone. -/
lemma Inv.loop (h : s.Inv) {l : Loop SourceKind ℕ} (hl : l.Sound s.Alive)
    (hn : ∀ c k, l.handle c k ≠ 0 →
      s.loop.handle c k ≠ 0 ∨ c < s.nextClient ∧ s.source.Arms k) :
    ({ s with loop := l } : Host).Inv := by
  refine ⟨hl, h.nodup, h.apart, h.below, fun c k hne => ?_⟩
  rcases hn c k hne with hold | hnew
  · exact h.named c k hold
  · exact hnew

lemma Inv.arm (h : s.Inv) {c : ℕ} {k : SourceKind} (hc : s.Alive c) (hz : s.loop.handle c k = 0)
    (hk : s.source.Arms k) : ({ s with loop := s.loop.arm c k } : Host).Inv := by
  refine h.loop (h.sound.arm hc hz) fun c' k' hne => ?_
  rw [Loop.handle_arm] at hne
  split at hne <;> rename_i he
  · obtain ⟨rfl, rfl⟩ := he
    exact .inr ⟨h.below _ hc, hk⟩
  · exact .inl hne

/-- What clears a handle at most. -/
lemma ne_of_cleared {n : ℕ} {p : Prop} [Decidable p] (h : (if p then 0 else n) ≠ 0) : n ≠ 0 := by
  split at h
  · exact absurd rfl h
  · exact h

lemma arms_of_core {src : FrameSource} {k : SourceKind} (h : k ≠ .mode ∧ k ≠ .kick) :
    src.Arms k := by
  rintro (hk | hk)
  · exact absurd hk h.1
  · exact absurd hk h.2

/-- What these steps can do. -/
lemma exec_adds {op : SourceOp} (hp : s.pre op) (hop : op.Adds) :
    (∃ conn, s.exec op = { s with conn := conn }) ∨
    ∃ c k, s.exec op = { s with loop := s.loop.arm c k } ∧ s.Alive c ∧ s.loop.handle c k = 0 ∧
      s.source.Arms k ∧ k ≠ .watch := by
  cases op with
  | armOnce c k =>
      simp only [exec]
      split <;> rename_i hz
      · exact .inr ⟨c, k, rfl, hp.1, hz, hp.2⟩
      · exact .inl ⟨s.conn, rfl⟩
  | xmitKick c due =>
      simp only [exec]
      split <;> rename_i hg
      · exact .inr ⟨c, .outWatch, rfl, hp, hg.2.2.1, arms_of_core (by decide), by decide⟩
      · exact .inl ⟨s.conn, rfl⟩
  | pingTimer c =>
      simp only [exec]
      split <;> rename_i hg
      · exact .inr ⟨c, .ping, rfl, hp, hg.2, arms_of_core (by decide), by decide⟩
      · exact .inl ⟨s.conn, rfl⟩
  | requestUpdate c damage =>
      simp only [exec]
      split
      · split
        · split <;> rename_i hz
          · exact .inr ⟨c, .kick, rfl, hp.1, hz, fun _ => hp.2, by decide⟩
          · exact .inl ⟨s.conn, rfl⟩
        · exact .inl ⟨_, rfl⟩
      · exact .inl ⟨s.conn, rfl⟩
  | assign c f => exact .inl ⟨_, rfl⟩
  | _ => exact hop.elim

lemma Inv.adds (h : s.Inv) {op : SourceOp} (hp : s.pre op) (hop : op.Adds) : (s.exec op).Inv := by
  rcases exec_adds hp hop with ⟨conn, he⟩ | ⟨c, k, he, hc, hz, hk, -⟩
  · rw [he]
    exact ⟨h.sound, h.nodup, h.apart, h.below, h.named⟩
  · rw [he]
    exact h.arm hc hz hk

lemma Inv.not_alive_free (h : s.Inv) (c : ℕ) : ¬(s.exec (.free c)).Alive c := by
  rintro (hmem | hsome)
  · exact h.nodup.not_mem_erase hmem
  · simp [exec, Option.filter_eq_some_iff] at hsome

/-- **The steps keep the invariant.** -/
lemma Inv.exec (h : s.Inv) {op : SourceOp} (hp : s.pre op) : (s.exec op).Inv := by
  cases op with
  | enter id =>
      refine h.loop (h.sound.enter hp id) fun c k hne => .inl ?_
      rwa [Loop.handle_enter] at hne
  | leave again =>
      refine h.loop (h.sound.leave hp).1 fun c k hne => .inl ?_
      rwa [Loop.handle_leave] at hne
  | arm c k => exact h.arm hp.1 hp.2.1 hp.2.2
  | armOnce c k => exact h.adds hp trivial
  | clear c k =>
      refine h.loop (h.sound.clear c hp k) fun c' k' hne => .inl ?_
      rw [Loop.handle_clear] at hne
      exact ne_of_cleared hne
  | forget c k =>
      refine h.loop (h.sound.forget hp) fun c' k' hne => .inl ?_
      rw [Loop.handle_forget] at hne
      exact ne_of_cleared hne
  | xmitKick c due => exact h.adds hp trivial
  | pingTimer c => exact h.adds hp trivial
  | requestUpdate c damage => exact h.adds hp trivial
  | assign c f => exact h.adds hp trivial
  | alloc conn =>
      have hnew : ∀ k, s.loop.handle s.nextClient k = 0 := by
        intro k
        by_contra hne
        exact absurd (h.named _ k hne).1 (lt_irrefl _)
      have hacc : s.accepting = none := hp
      refine ⟨h.sound.alive_congr fun c => ?_, h.nodup, fun c hc => ?_, fun c hc => ?_,
        fun c k hne => ?_⟩
      · by_cases he : c = s.nextClient
        · exact .inr (he ▸ hnew)
        · refine .inl (or_congr Iff.rfl ?_)
          rw [hacc]
          simp [Host.exec, Ne.symm he]
      · obtain rfl := Option.some.inj hc
        exact fun hmem => lt_irrefl _ (h.below _ (.inl hmem))
      · rcases hc with hmem | hsome
        · exact Nat.lt_succ_of_lt (h.below c (.inl hmem))
        · obtain rfl := Option.some.inj hsome
          exact Nat.lt_succ_self _
      · obtain ⟨hlt, hk⟩ := h.named c k hne
        exact ⟨Nat.lt_succ_of_lt hlt, hk⟩
  | toTable =>
      cases hacc : s.accepting with
      | none =>
          have hsame : s.exec .toTable = s := by simp [Host.exec, hacc]
          rw [hsame]
          exact h
      | some c =>
          have hmoved : s.exec .toTable = { s with table := s.table ++ [c], accepting := none } := by
            simp [Host.exec, hacc]
          have halive : ∀ c', s.Alive c' ↔ (s.exec .toTable).Alive c' := by
            intro c'
            rw [hmoved]
            simp [Alive, hacc, eq_comm]
          rw [hmoved] at halive ⊢
          refine ⟨h.sound.alive_congr fun c' => .inl (halive c'), ?_, fun c' hc' => ?_,
            fun c' hc' => h.below c' ((halive c').mpr hc'), h.named⟩
          · exact List.Nodup.append h.nodup (List.nodup_singleton c)
              (List.disjoint_singleton.mpr (h.apart c hacc))
          · cases hc'
  | free c =>
      have halive : ∀ c', c' ≠ c → (s.Alive c' ↔ (s.exec (.free c)).Alive c') := by
        intro c' hne
        refine or_congr (List.mem_erase_of_ne hne).symm ?_
        simp only [Host.exec, Option.filter_eq_some_iff]
        simp [hne]
      refine ⟨h.sound.alive_congr fun c' => ?_, h.nodup.erase c, fun c' hc' hmem => ?_,
        fun c' hc' => ?_, h.named⟩
      · by_cases he : c' = c
        · exact .inr (he ▸ hp.2)
        · exact .inl (halive c' he)
      · exact h.apart c' (Option.filter_eq_some_iff.mp hc').1 (List.mem_of_mem_erase hmem)
      · have hne : c' ≠ c := by
          rintro rfl
          exact h.not_alive_free c' hc'
        exact h.below c' ((halive c' hne).mpr hc')

/-! ## Steps on the sources of one client -/

lemma pre_of_for {src : FrameSource} {c : ℕ} {op : SourceOp} (hop : op.For src c)
    (hc : s.Alive c) (hs : s.source = src) : s.pre op := by
  cases op with
  | armOnce c' k =>
      obtain ⟨rfl, hk, hw⟩ := hop
      exact ⟨hc, hs ▸ hk, hw⟩
  | clear c' k =>
      obtain rfl : c' = c := hop
      exact hc
  | xmitKick c' due =>
      obtain rfl : c' = c := hop
      exact hc
  | pingTimer c' =>
      obtain rfl : c' = c := hop
      exact hc
  | requestUpdate c' damage =>
      obtain ⟨rfl, hsrc⟩ := hop
      exact ⟨hc, hs.trans hsrc⟩
  | assign c' f => trivial
  | _ => exact hop.elim

/-- What such a step leaves alone.  A handle stays, is cleared or names a new source. -/
structure Frame (s s' : Host) : Prop where
  table : s'.table = s.table
  accepting : s'.accepting = s.accepting
  source : s'.source = s.source
  nextClient : s'.nextClient = s.nextClient
  current : s'.loop.current = s.loop.current ∨ s'.loop.current = none
  next : s.loop.next ≤ s'.loop.next
  handle : ∀ c k, s'.loop.handle c k = s.loop.handle c k ∨ s'.loop.handle c k = 0 ∨
    s.loop.next ≤ s'.loop.handle c k
  watch : ∀ c, s.loop.handle c .watch = 0 → s'.loop.handle c .watch = 0

lemma Frame.refl (s : Host) : Frame s s :=
  ⟨rfl, rfl, rfl, rfl, .inl rfl, le_rfl, fun _ _ => .inl rfl, fun _ h => h⟩

lemma Frame.trans {a b c : Host} (h : Frame a b) (h' : Frame b c) : Frame a c := by
  refine ⟨h'.table.trans h.table, h'.accepting.trans h.accepting, h'.source.trans h.source,
    h'.nextClient.trans h.nextClient, ?_, h.next.trans h'.next, fun o k => ?_,
    fun o ho => h'.watch o (h.watch o ho)⟩
  · rcases h'.current with he | hn
    · rw [he]
      exact h.current
    · exact .inr hn
  · rcases h'.handle o k with he | hz | hnew
    · rw [he]
      exact h.handle o k
    · exact .inr (.inl hz)
    · exact .inr (.inr (h.next.trans hnew))

lemma Frame.alive {s s' : Host} (h : Frame s s') (c : ℕ) : s'.Alive c ↔ s.Alive c := by
  unfold Alive
  rw [h.table, h.accepting]

lemma frame_arm (s : Host) {c : ℕ} {k : SourceKind} (hw : k ≠ .watch) :
    Frame s { s with loop := s.loop.arm c k } := by
  refine ⟨rfl, rfl, rfl, rfl, .inl rfl, Nat.le_succ _, fun c' k' => ?_, fun c' hz => ?_⟩
  · dsimp only
    rw [Loop.handle_arm]
    split
    · exact .inr (.inr le_rfl)
    · exact .inl rfl
  · dsimp only
    rw [Loop.handle_arm, if_neg fun he => hw he.2.symm]
    exact hz

lemma frame_clear (s : Host) (c : ℕ) (k : SourceKind) :
    Frame s { s with loop := s.loop.clear c k } := by
  refine ⟨rfl, rfl, rfl, rfl, Loop.current_clear .., (Loop.next_clear ..).ge, fun c' k' => ?_,
    fun c' hz => ?_⟩
  · dsimp only
    rw [Loop.handle_clear]
    split
    · exact .inr (.inl rfl)
    · exact .inl rfl
  · dsimp only
    rw [Loop.handle_clear]
    split
    · rfl
    · exact hz

lemma adds_or_clear_of_for {src : FrameSource} {c : ℕ} {op : SourceOp} (hop : op.For src c) :
    op.Adds ∨ ∃ k, op = .clear c k := by
  cases op with
  | clear c' k =>
      obtain rfl : c' = c := hop
      exact .inr ⟨k, rfl⟩
  | armOnce c' k => exact .inl trivial
  | xmitKick c' due => exact .inl trivial
  | pingTimer c' => exact .inl trivial
  | requestUpdate c' damage => exact .inl trivial
  | assign c' f => exact .inl trivial
  | _ => exact hop.elim

lemma frame_exec {src : FrameSource} {c : ℕ} {op : SourceOp} (hop : op.For src c)
    (hp : s.pre op) : Frame s (s.exec op) := by
  rcases adds_or_clear_of_for hop with hadds | ⟨k, rfl⟩
  · rcases exec_adds hp hadds with ⟨conn, he⟩ | ⟨c', k, he, -, -, -, hw⟩
    · rw [he]
      exact ⟨rfl, rfl, rfl, rfl, .inl rfl, le_rfl, fun _ _ => .inl rfl, fun _ h => h⟩
    · rw [he]
      exact frame_arm s hw
  · exact frame_clear s c k

end Host

end Sremfb
