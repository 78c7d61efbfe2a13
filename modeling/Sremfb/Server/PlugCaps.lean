import Sremfb.Server.Evdi

/-!
# The caps of the plug gate over whole runs

The gate promises bounds on every sliding hour, but it looks at a pruned history, once per
connection, and what it lets through is recorded later: the plug after the device was found, the
mode timeout ten seconds after the plug.

For the plugs this is no loss.  Each plug found fewer than the cap recorded in the hour before, and
what is recorded late only counts longer (`plug_cap`).  That the history still has the last hour
needs a bound on the other events: a waiting client gives one of them, and at most eight wait.

For the mode timeouts it is: the gate does not count the clients that wait, and each of them may
time out.  `Orderly` is what the rest of the promise needs, `fail_cap_and_single_probe` the
promise, and `crowd_of_timeouts` eight clients that are let through at once.
-/

namespace Sremfb

open Lib

namespace EvdiServer

/-! ## The log -/

/-- The clients that wait for a mode. -/
def waiting (s : EvdiServer) : ℕ := s.clients.countP (·.state = .modeWait)

def isPlug (e : PlugEvent) : Bool := e.kind = .plug

def isFail (e : PlugEvent) : Bool := e.kind = .fail

/-- The clock, the history and the log go together. -/
structure Logged (s : EvdiServer) : Prop where
  chrono : Chrono s.log
  past : ∀ e ∈ s.log, e.made ≤ e.t ∧ e.t ≤ s.now
  /-- Before the first look the history does not know the shell, and is empty. -/
  shell : s.plugs.shell = s.shell ∨ s.log = []
  retains : ∃ p ≤ s.now, Retains p s.log s.plugs.events
  sub : s.plugs.events.Sublist s.log
  capped : Capped PlugEvent.made PlugEvent.t plugWindowUs plugsPerHour (s.log.filter isPlug)
  /-- What was recorded of clients since any moment, and the clients that still wait, come from
  the plugs since then and the clients that waited. -/
  outcomes : ∀ pre post, s.log = pre ++ post →
    post.countP (fun e => !isPlug e) + s.waiting ≤ post.countP isPlug + maxClients

section Logged

variable {s t : EvdiServer}

/-- At most a hundred and twenty plugs lie in a window that includes both its ends. -/
lemma Logged.plugs_le (h : s.Logged) {now : ℕ} (hnow : s.now ≤ now) :
    (s.log.countP fun e => isPlug e && e.inWindow now) ≤ 2 * plugsPerHour := by
  have hmem : ∀ e ∈ s.log.filter isPlug, e.made ≤ e.t ∧ e.t ≤ now := by
    intro e he
    have := h.past e (List.mem_of_mem_filter he)
    omega
  have hinner : ((s.log.filter isPlug).countP fun e => now < e.t + plugWindowUs) ≤
      plugsPerHour := by
    apply h.capped.countP_le
    intro e he x _ _ hx
    have := hmem e he
    simp only [decide_eq_true_eq] at hx
    omega
  have hend : ((s.log.filter isPlug).countP fun e => e.t + plugWindowUs = now) ≤
      plugsPerHour := by
    apply h.capped.countP_le
    intro e he x hx hqe hqx
    have := hmem e he
    have : 0 < plugWindowUs := by decide
    simp only [decide_eq_true_eq] at hqe hqx
    omega
  have hsplit : (s.log.countP fun e => isPlug e && e.inWindow now) ≤
      ((s.log.filter isPlug).countP fun e => now < e.t + plugWindowUs) +
        (s.log.filter isPlug).countP fun e => e.t + plugWindowUs = now := by
    rw [List.countP_filter, List.countP_filter]
    induction s.log with
    | nil => simp
    | cons e l ih =>
        have hcases : (if (isPlug e && e.inWindow now) = true then 1 else 0) ≤
            (if (decide (now < e.t + plugWindowUs) && isPlug e) = true then 1 else 0) +
              if (decide (e.t + plugWindowUs = now) && isPlug e) = true then 1 else 0 := by
          cases hk : isPlug e with
          | false => simp
          | true =>
              simp only [Bool.true_and, Bool.and_true, decide_eq_true_eq, inWindow_iff]
              split_ifs <;> omega
        simp only [List.countP_cons]
        omega
  omega

/-- The last hour of the log fits the history with room for many failures. -/
lemma Logged.countP_inWindow (h : s.Logged) {now : ℕ} (hnow : s.now ≤ now) :
    s.log.countP (·.inWindow now) + manyFails ≤ plugEventsMax := by
  obtain ⟨old, recent, hlog, hold, hrecent⟩ := h.chrono.split now
  have hplugs := h.plugs_le hnow
  have hout := h.outcomes old recent hlog
  have hzero : old.countP (·.inWindow now) = 0 := by
    rw [List.countP_eq_zero]
    intro e he
    simp [hold e he]
  have hle : recent.countP isPlug ≤ 2 * plugsPerHour := by
    refine le_trans ?_ hplugs
    rw [hlog, List.countP_append]
    refine le_trans (le_of_eq ?_) (Nat.le_add_left _ _)
    apply List.countP_congr
    intro e he
    simp [hrecent e he]
  have hlen : recent.length = recent.countP isPlug + recent.countP (fun e => !isPlug e) := by
    simpa using List.length_eq_countP_add_countP isPlug
  rw [hlog, List.countP_append, hzero, List.countP_eq_length.mpr hrecent]
  simp only [plugsPerHour, maxClients, manyFails, plugEventsMax] at *
  omega

/-- Time passes. -/
lemma Logged.wait (h : s.Logged) (d : ℕ) : (s.wait d).Logged where
  chrono := h.chrono
  past := fun e he => ⟨(h.past e he).1, (h.past e he).2.trans (Nat.le_add_right _ _)⟩
  shell := h.shell
  retains := by
    obtain ⟨p, hp, hr⟩ := h.retains
    exact ⟨p, hp.trans (Nat.le_add_right _ _), hr⟩
  sub := h.sub
  capped := h.capped
  outcomes := h.outcomes

/-- The history is pruned. -/
lemma Logged.prune (h : s.Logged) : Retains s.now s.log (s.plugs.prune s.shell s.now).events ∧
    (s.plugs.prune s.shell s.now).shell = s.shell := by
  obtain ⟨p, hp, hr⟩ := h.retains
  rcases h.shell with hs | hs
  · exact hr.prune hs hp h.chrono (h.countP_inWindow le_rfl)
  · have hempty : s.plugs.events = [] := List.sublist_nil.mp (hs ▸ h.sub)
    have hnil : (s.plugs.prune s.shell s.now).events = [] :=
      List.sublist_nil.mp (hempty ▸ prune_sublist s.shell s.now s.plugs)
    refine ⟨?_, ?_⟩
    · rw [hnil, hs]
      exact ⟨[], [], [], rfl, rfl, by simp, by simp, by simp, fun _ => .inl rfl⟩
    · unfold PlugHistory.prune
      split
      · rfl
      · rename_i hne
        exact (not_not.mp hne).symm

lemma Logged.gate (h : s.Logged) (d : ℕ) : (s.gate d).1.Logged := by
  have hw := h.wait d
  obtain ⟨hr, hs⟩ := hw.prune
  exact ⟨hw.chrono, hw.past, .inl hs, ⟨_, le_rfl, hr⟩, (prune_sublist _ _ _).trans hw.sub,
    hw.capped, hw.outcomes⟩

lemma Logged.looked (h : s.Logged) (hl : Looked s t) : t.Logged :=
  chain_invariant (fun ⟨d, ht⟩ hs => ht ▸ hs.gate d) hl h

/-- **What an open gate found**, in the log. -/
lemma Logged.of_opened (h : s.Logged) {d : ℕ} (ho : (s.gate d).2.verdict = .opened) :
    (s.log.countP fun e => e.kind = .fail ∧ s.now + d < e.t + plugWindowUs) < failsPerHour ∧
    (s.log.countP fun e => e.kind = .plug ∧ s.now + d < e.t + plugWindowUs) < plugsPerHour ∧
    ((failRun s.log).1 > selfhealBudget →
      (failRun s.log).2 + backoffDelay (failRun s.log).1 ≤ s.now + d) := by
  have hw := h.wait d
  have hsub : ((s.wait d).plugs.prune (s.wait d).shell (s.wait d).now).events.Sublist s.log :=
    (prune_sublist _ _ _).trans hw.sub
  exact gate_of_open hw.prune.1 (h.chrono.sublist hsub) ho

/-- An event is recorded: a plug, which found room and makes one more client wait, or something
else, after which one less waits. -/
lemma Logged.snoc (h : s.Logged) {e : PlugEvent} (hnow : s.now ≤ e.t) (hmade : e.made ≤ e.t)
    (hlog : t.log = s.log ++ [e]) (hplugs : t.plugs = s.plugs.record s.shell e)
    (hshell : t.shell = s.shell) (ht : t.now = e.t) (hroom : t.waiting ≤ maxClients)
    (hwait : if isPlug e then t.waiting ≤ s.waiting + 1 else t.waiting + 1 ≤ s.waiting)
    (hcap : isPlug e = true →
      (s.log.countP fun x => x.kind = .plug ∧ e.made < x.t + plugWindowUs) < plugsPerHour) :
    t.Logged := by
  have hw := h.wait (e.t - s.now)
  have hwn : (s.wait (e.t - s.now)).now = e.t := by
    simp only [EvdiServer.wait]
    omega
  obtain ⟨hr, hs⟩ := hw.prune
  rw [hwn] at hr hs
  refine ⟨?_, ?_, ?_, ?_, ?_, ?_, ?_⟩
  · rw [hlog]
    refine List.pairwise_append.mpr ⟨h.chrono, List.pairwise_singleton _ _, ?_⟩
    intro x hx y hy
    rw [List.mem_singleton.mp hy]
    exact (h.past x hx).2.trans hnow
  · rw [hlog, ht]
    intro x hx
    rcases List.mem_append.mp hx with hx | hx
    · exact ⟨(h.past x hx).1, (h.past x hx).2.trans hnow⟩
    · rw [List.mem_singleton.mp hx]
      exact ⟨hmade, le_rfl⟩
  · left
    rw [hplugs, hshell]
    exact hs
  · rw [hlog, hplugs, ht]
    exact ⟨e.t, le_rfl, hr.snoc le_rfl⟩
  · rw [hlog, hplugs]
    exact ((prune_sublist _ _ _).trans h.sub).append (List.Sublist.refl _)
  · rw [hlog, List.filter_append]
    by_cases hk : isPlug e = true
    · rw [List.filter_cons_of_pos hk, List.filter_nil]
      refine capped_snoc.mpr ⟨h.capped, ?_⟩
      rw [List.countP_filter]
      refine lt_of_eq_of_lt (List.countP_congr ?_) (hcap hk)
      intro x _
      simp [isPlug, and_comm]
    · rw [List.filter_cons_of_neg hk, List.filter_nil, List.append_nil]
      exact h.capped
  · intro pre post hpre
    rw [hlog] at hpre
    rcases List.eq_nil_or_concat post with rfl | ⟨post', x, rfl⟩
    · simpa using hroom
    · rw [List.concat_eq_append, ← List.append_assoc] at hpre
      obtain ⟨hl, hx⟩ := List.append_inj' hpre rfl
      obtain rfl := (List.cons.inj hx).1
      have hout := h.outcomes pre post' hl
      rw [List.concat_eq_append, List.countP_append, List.countP_append]
      cases hk : isPlug e with
      | true =>
          rw [hk, if_pos rfl] at hwait
          simp only [List.countP_cons, List.countP_nil, hk, Bool.not_true, Bool.false_eq_true,
            if_false, if_true]
          omega
      | false =>
          rw [hk, if_neg (by decide)] at hwait
          simp only [List.countP_cons, List.countP_nil, hk, Bool.not_false, Bool.false_eq_true,
            if_false, if_true]
          omega

/-- Fewer clients wait, or other fields change. -/
lemma Logged.ext (h : s.Logged) (hlog : t.log = s.log) (hplugs : t.plugs = s.plugs)
    (hshell : t.shell = s.shell) (hnow : t.now = s.now) (hwait : t.waiting ≤ s.waiting) :
    t.Logged where
  chrono := hlog ▸ h.chrono
  past := hlog ▸ hnow ▸ h.past
  shell := hlog ▸ hplugs ▸ hshell ▸ h.shell
  retains := hlog ▸ hplugs ▸ hnow ▸ h.retains
  sub := hlog ▸ hplugs ▸ h.sub
  capped := hlog ▸ h.capped
  outcomes := by
    intro pre post hpre
    have := h.outcomes pre post (hlog ▸ hpre)
    omega

end Logged

/-! ## The waiting clients -/

section Waiting

variable {s : EvdiServer} {c : EvdiClient}

lemma waiting_le_room (h : s.Sound) : s.waiting ≤ maxClients :=
  List.countP_le_length.trans h.room

lemma waiting_clientLost_le (c : EvdiClient) (s : EvdiServer) :
    (s.clientLost c).waiting ≤ s.waiting :=
  List.Sublist.countP_le List.filter_sublist

lemma waiting_replace_le (mac : Mac) (s : EvdiServer) : (s.replace mac).waiting ≤ s.waiting := by
  unfold EvdiServer.replace
  split
  · exact le_rfl
  · split
    · exact waiting_clientLost_le _ _
    · exact le_rfl

/-- A test that accepts less, and not this member, counts less. -/
lemma countP_lt {α : Type*} {p q : α → Bool} {l : List α} (hpq : ∀ x, p x = true → q x = true)
    {x : α} (hx : x ∈ l) (hq : q x = true) (hp : p x = false) : l.countP p < l.countP q := by
  have hsub : (l.filter p).Sublist (l.filter q) := List.monotone_filter_right l hpq
  refine lt_of_le_of_ne (List.countP_mono_left fun x _ => hpq x) ?_
  intro he
  rw [List.countP_eq_length_filter, List.countP_eq_length_filter] at he
  have hmem : x ∈ l.filter p := hsub.eq_of_length he ▸ List.mem_filter.mpr ⟨hx, hq⟩
  rw [(List.mem_filter.mp hmem).2] at hp
  cases hp

/-- A waiting client is given up. -/
lemma waiting_clientLost (hc : c ∈ s.clients) (hw : c.state = .modeWait) :
    (s.clientLost c).waiting + 1 ≤ s.waiting := by
  unfold waiting EvdiServer.clientLost
  rw [List.countP_filter]
  apply countP_lt _ hc
  · simpa using hw
  · simp
  · intro x hx
    simp only [Bool.and_eq_true] at hx
    exact hx.1

/-- A client that streams is lost. -/
lemma waiting_clientLost_eq (hs : s.Sound) (hc : c ∈ s.clients) (hw : c.state ≠ .modeWait) :
    (s.clientLost c).waiting = s.waiting := by
  unfold waiting EvdiServer.clientLost
  rw [List.countP_filter]
  apply List.countP_congr
  intro x hx
  by_cases hid : x.id = c.id
  · have hxc : x = c := hs.eq_of_id hx hc hid
    simp [hxc, hw]
  · simp [hid]

/-- A waiting client starts to stream. -/
lemma waiting_modifyClient (hc : c ∈ s.clients) (hw : c.state = .modeWait) :
    (s.modifyClient c.id fun o => { o with state := .streaming }).waiting + 1 ≤ s.waiting := by
  unfold waiting EvdiServer.modifyClient
  rw [List.countP_map]
  apply countP_lt _ hc
  · simpa using hw
  · simp
  · intro x hx
    by_cases hid : x.id = c.id
    · simp [hid] at hx
    · simpa [hid] using hx

end Waiting

/-! ## The plug cap -/

/-- Another gnome-shell is not among the events. -/
def Event.sameShell : Event → Bool
  | .relogin _ => false
  | _ => true

/-- The step gives up a waiting client without recording it: its socket dies, or it reconnects. -/
def Drops (s : EvdiServer) : Event → Prop
  | .lost id => ∃ c ∈ s.clients, c.id = id ∧ c.state = .modeWait
  | .listen a => (s.replace a.mac).waiting < s.waiting
  | _ => False

/-- **What a step records**: nothing; or the outcome of a waiting client; or a plug, which found
the caps and the backoff in order when it passed the gate. -/
inductive Recorded (s s' : EvdiServer) : Event → Prop
  | nothing {ev : Event} (hlog : s'.log = s.log) (hnow : s.now ≤ s'.now)
      (hle : s'.waiting ≤ s.waiting) (hw : ¬s.Drops ev → s'.waiting = s.waiting) :
      Recorded s s' ev
  | outcome {ev : Event} (e : PlugEvent) (hlog : s'.log = s.log ++ [e]) (hk : e.kind ≠ .plug)
      (hmade : e.made = e.t) (hnow : s.now ≤ e.t) (ht : s'.now = e.t)
      (hw : s'.waiting + 1 ≤ s.waiting) : Recorded s s' ev
  | plug (a : Attempt) (e : PlugEvent) (hlog : s'.log = s.log ++ [e]) (hk : e.kind = .plug)
      (hgate : s.now + a.dAdmit + a.dGate ≤ e.made) (hmade : e.made ≤ e.t) (ht : s'.now = e.t)
      (hw : s'.waiting = (s.replace a.mac).waiting + 1)
      (hfails : (s.log.countP fun x => x.kind = .fail ∧
        s.now + a.dAdmit + a.dGate < x.t + plugWindowUs) < failsPerHour)
      (hplugs : (s.log.countP fun x => x.kind = .plug ∧
        s.now + a.dAdmit + a.dGate < x.t + plugWindowUs) < plugsPerHour)
      (hback : (failRun s.log).1 > selfhealBudget → (failRun s.log).2 +
        backoffDelay (failRun s.log).1 ≤ s.now + a.dAdmit + a.dGate) :
      Recorded s s' (.listen a)

section Steps

variable {s : EvdiServer}

/-- Looking at the gate does not go back in time. -/
lemma Looked.now_le {s t : EvdiServer} (h : Looked s t) : s.now ≤ t.now := by
  induction h with
  | refl => exact le_rfl
  | tail _ hstep ih =>
      obtain ⟨d, rfl⟩ := hstep
      exact ih.trans (Nat.le_add_right _ _)

lemma replace_eq (mac : Mac) (s : EvdiServer) :
    ∃ cs ds, s.replace mac = { s with clients := cs, devices := ds } := by
  unfold replace
  split
  · exact ⟨_, _, rfl⟩
  · split
    · exact ⟨_, _, rfl⟩
    · exact ⟨_, _, rfl⟩

lemma Logged.replace (h : s.Logged) (mac : Mac) : (s.replace mac).Logged := by
  have hle := waiting_replace_le mac s
  obtain ⟨cs, ds, he⟩ := replace_eq mac s
  rw [he] at hle ⊢
  exact h.ext rfl rfl rfl rfl hle

lemma Logged.modeTimeout (h : s.Logged) (hs : s.Sound) (id : ℕ) (ps : ℤ) (d dRecord : ℕ) :
    (s.onModeTimeout id ps d dRecord).Logged ∧
      Recorded s (s.onModeTimeout id ps d dRecord) (.modeTimeout id ps d dRecord) := by
  obtain he | ⟨c, hc, -, hw, ⟨seen, he⟩ | he⟩ := onModeTimeout_cases id ps d dRecord s
  · rw [he]
    exact ⟨h, .nothing rfl le_rfl le_rfl fun _ => rfl⟩
  · rw [he]
    have heq : ((s.wait d).modifyClient id fun c =>
        { c with psSeen := seen, usbEarly := true }).waiting = s.waiting := by
      unfold waiting modifyClient
      rw [List.countP_map]
      apply List.countP_congr
      intro x _
      by_cases hx : x.id = id <;> simp [hx]
    exact ⟨(h.wait d).ext rfl rfl rfl rfl heq.le,
      .nothing rfl (Nat.le_add_right _ _) heq.le fun _ => heq⟩
  · rw [he]
    set t := ((s.wedged c.dev d).record dRecord .fail fun t => t).clientLost c with ht
    set e : PlugEvent := ⟨s.now + d + dRecord, .fail, s.now + d + dRecord⟩ with hedef
    have hwait : t.waiting + 1 ≤ s.waiting := waiting_clientLost hc hw
    have hroom := waiting_le_room hs
    have hnow : s.now ≤ e.t := by
      rw [hedef]
      dsimp only
      omega
    refine ⟨?_, .outcome e rfl (by simp [hedef]) rfl hnow rfl hwait⟩
    refine h.snoc (t := t) (e := e) hnow le_rfl rfl rfl rfl rfl (by omega) hwait ?_
    exact fun hk => by cases hk

lemma Logged.modeChanged (h : s.Logged) (hs : s.Sound) (i : ℕ) (usable : Bool)
    (dGate dRecord : ℕ) : (s.onModeChanged i usable dGate dRecord).Logged ∧
      Recorded s (s.onModeChanged i usable dGate dRecord) (.modeChanged i usable dGate dRecord) := by
  obtain he | he | ⟨c, hc, hw, he⟩ := onModeChanged_cases i usable dGate dRecord s
  · rw [he]
    exact ⟨h, .nothing rfl le_rfl le_rfl fun _ => rfl⟩
  · rw [he]
    exact ⟨h.ext rfl rfl rfl rfl le_rfl, .nothing rfl le_rfl le_rfl fun _ => rfl⟩
  · rw [he]
    set t := (s.lighted i c.id dGate).record dRecord .lit fun t => t with ht
    set e : PlugEvent := ⟨s.now + dGate + dRecord, .lit, s.now + dGate + dRecord⟩ with hedef
    have hwait : t.waiting + 1 ≤ s.waiting := waiting_modifyClient hc hw
    have hroom := waiting_le_room hs
    have hnow : (s.gate dGate).1.now ≤ e.t := Nat.le_add_right _ _
    have hnow' : s.now ≤ e.t := (Nat.le_add_right _ _).trans hnow
    refine ⟨?_, .outcome e rfl (by simp [hedef]) rfl hnow' rfl hwait⟩
    refine (h.gate dGate).snoc (t := t) (e := e) hnow le_rfl rfl rfl rfl rfl (by omega) hwait ?_
    exact fun hk => by cases hk

/-- The gate was looked at before the device was searched, so what it found in the log is still
there at the plug. -/
lemma Admitted.plug {a : Attempt} {t s' : EvdiServer} (h : Admitted a t s') (ht : t.Logged)
    (hroom : s'.waiting ≤ maxClients) : s'.Logged ∧ ∃ e : PlugEvent, s'.log = t.log ++ [e] ∧
    e.kind = .plug ∧ t.now + a.dAdmit + a.dGate ≤ e.made ∧ e.made ≤ e.t ∧ s'.now = e.t ∧
    s'.waiting = t.waiting + 1 ∧
    (t.log.countP fun x => x.kind = .fail ∧
      t.now + a.dAdmit + a.dGate < x.t + plugWindowUs) < failsPerHour ∧
    (t.log.countP fun x => x.kind = .plug ∧
      t.now + a.dAdmit + a.dGate < x.t + plugWindowUs) < plugsPerHour ∧
    ((failRun t.log).1 > selfhealBudget → (failRun t.log).2 +
      backoffDelay (failRun t.log).1 ≤ t.now + a.dAdmit + a.dGate) := by
  obtain ⟨-, u, v, ds, dev, rfl, hopen, hv, -, rfl⟩ := h
  have hug := ht.gate a.dAdmit
  obtain ⟨hfails, hplugs, hback⟩ := hug.of_opened hopen
  have hvl := (hug.gate a.dGate).looked hv
  have hvnow : t.now + a.dAdmit + a.dGate ≤ v.now := hv.now_le
  have hvwait : v.waiting = t.waiting := by
    obtain ⟨m, ps, rfl⟩ := hv.eq
    rfl
  have hvlog : v.log = t.log := by
    obtain ⟨m, ps, rfl⟩ := hv.eq
    rfl
  set e : PlugEvent := ⟨v.now + a.dPlug + a.dRecord, .plug, v.now + a.dPlug⟩ with hedef
  have hmade : t.now + a.dAdmit + a.dGate ≤ e.made := hvnow.trans (Nat.le_add_right _ _)
  have hle : e.made ≤ e.t := Nat.le_add_right _ _
  set c : EvdiClient := { id := t.nextId, mac := a.mac, state := .modeWait, dev := dev } with hc
  set s' : EvdiServer := { ({ v with devices := ds }.evdiPlug t.nextId dev a).1 with
      nextId := t.nextId + 1
      clients := t.clients ++ [c] } with hs'
  have hwait : s'.waiting = t.waiting + 1 := by
    simp [waiting, hs', hc, List.countP_append]
  have hlog : s'.log = t.log ++ [e] := by
    rw [← hvlog]
    rfl
  refine ⟨?_, e, hlog, rfl, hmade, hle, rfl, hwait, hfails, hplugs, hback⟩
  refine hvl.snoc (t := s') (e := e) ((Nat.le_add_right _ _).trans hle) hle rfl rfl rfl rfl hroom
    ?_ ?_
  · rw [if_pos (by simp [isPlug, hedef]), hwait, hvwait]
  · intro _
    rw [hvlog]
    refine lt_of_le_of_lt (List.countP_mono_left ?_) hplugs
    intro x _ hx
    simp only [decide_eq_true_eq] at hx ⊢
    exact ⟨hx.1, hmade.trans_lt hx.2⟩

lemma Logged.listen (h : s.Logged) (hs : s.Sound) (a : Attempt) :
    (s.onListenReady a).Logged ∧ Recorded s (s.onListenReady a) (.listen a) := by
  have ht := h.replace a.mac
  have hle := waiting_replace_le a.mac s
  have hdrop : ¬s.Drops (.listen a) → (s.replace a.mac).waiting = s.waiting := fun hd =>
    le_antisymm hle (not_lt.mp hd)
  have hroom := waiting_le_room (hs.onListenReady a).1
  obtain ⟨cs, ds, hrep⟩ := replace_eq a.mac s
  have htlog : (s.replace a.mac).log = s.log := by rw [hrep]
  have htnow : (s.replace a.mac).now = s.now := by rw [hrep]
  obtain ⟨-, he⟩ | ⟨u, n, hu, -, he⟩ | hadm := onListenReady_cases a s
  · rw [he]
    exact ⟨h, .nothing rfl le_rfl le_rfl fun _ => rfl⟩
  · have hul := ht.looked hu
    have hnow := hu.now_le
    obtain ⟨m, ps, rfl⟩ := hu.eq
    rw [he]
    exact ⟨hul.ext rfl rfl rfl rfl le_rfl, .nothing htlog (htnow ▸ hnow) hle hdrop⟩
  · obtain ⟨hl, e, hlog, hk, hgate, hmade, hnow, hw, hfails, hplugs, hback⟩ := hadm.plug ht hroom
    rw [htlog, htnow] at *
    exact ⟨hl, .plug a e hlog hk hgate hmade hnow hw hfails hplugs hback⟩

/-- **One step keeps the log in order.** -/
lemma Logged.step (h : s.Logged) (hs : s.Sound) {ev : Event} (hev : ev.sameShell = true) :
    (s.step ev).Logged ∧ Recorded s (s.step ev) ev := by
  cases ev with
  | relogin pid => cases hev
  | lost id =>
      simp only [EvdiServer.step]
      split <;> rename_i hfind
      · rename_i c
        have hle := waiting_clientLost_le c s
        have hc : c ∈ s.clients := List.mem_of_find?_eq_some hfind
        refine ⟨h.ext rfl rfl rfl rfl hle, .nothing rfl le_rfl hle ?_⟩
        intro hd
        refine waiting_clientLost_eq hs hc fun hw => hd ⟨c, hc, ?_, hw⟩
        simpa using List.find?_some hfind
      · exact ⟨h, .nothing rfl le_rfl le_rfl fun _ => rfl⟩
  | modeTimeout id ps d dRecord => exact h.modeTimeout hs id ps d dRecord
  | modeChanged i usable dGate dRecord => exact h.modeChanged hs i usable dGate dRecord
  | listen a => exact h.listen hs a

/-- The table is sound and the log in order. -/
lemma logged_init (shell now : ℕ) : (init shell now).Sound ∧ (init shell now).Logged := by
  refine ⟨sound_init shell now, ?_⟩
  refine ⟨List.Pairwise.nil, by simp [init], .inr rfl, ⟨now, le_rfl, ?_⟩, List.Sublist.refl _,
    always_nil _, ?_⟩
  · exact ⟨[], [], [], rfl, rfl, by simp, by simp, by simp, fun _ => .inl rfl⟩
  · intro pre post h
    obtain ⟨-, rfl⟩ := List.append_eq_nil_iff.mp h.symm
    simp [waiting, init]

end Steps

/-- **The plug cap.**  Under one gnome-shell every half-open sliding hour has at most
`PLUGS_PER_HOUR` EDID plugs. -/
theorem plug_cap (shell now : ℕ) {es : List Event} (h : ∀ e ∈ es, e.sameShell = true) (t : ℕ) :
    ((run step (init shell now) es).log.countP fun e =>
      e.kind = .plug ∧ t < e.made + plugWindowUs ∧ e.made ≤ t) ≤ plugsPerHour := by
  have hinv : (run step (init shell now) es).Sound ∧ (run step (init shell now) es).Logged :=
    run_invariant (P := fun s : EvdiServer => s.Sound ∧ s.Logged)
      (fun s e he hs => ⟨hs.1.step e, (hs.2.step hs.1 he).1⟩) (logged_init shell now)
      (along_of_forall h)
  generalize run step (init shell now) es = s at hinv
  have hwin := hinv.2.capped.window (fun x hx => (hinv.2.past x (List.mem_of_mem_filter hx)).1) t
  rw [List.countP_filter] at hwin
  refine le_trans (le_of_eq (List.countP_congr ?_)) hwin
  intro e _
  simp [isPlug, and_comm]

/-- A client with a MAC of its own, when there are cards enough, after `d` microseconds. -/
def caller (n : UInt8) (d : ℕ) : Event :=
  .listen { mac := #v[2, 0, 0, 0, 0, n], usable := fun _ => true, opens := fun _ => true, dAdmit := d }

/-- `k` clients connect at once, `d` microseconds later, and time out ten seconds after that; their
addresses start with `id`. -/
def crowd (k id d : ℕ) : List Event :=
  (List.range k).map (fun i => caller (UInt8.ofNat i) (if i = 0 then d else 0)) ++
    (List.range k).map fun i => .modeTimeout (id + i) 0 (if i = 0 then 10 * gUsecPerSec else 0) 0

theorem plug_cap_crowd :
    ((run step (init 1 0) (crowd 8 0 5)).log.countP fun e =>
      e.kind = .plug ∧ 5 < e.made + plugWindowUs ∧ e.made ≤ 5) ≤ plugsPerHour :=
  plug_cap 1 0 (by decide +kernel) 5

/-! ## The failure cap and the probes -/

/-- The mode timeouts of the hour before. -/
def recentFails (log : List PlugEvent) (now : ℕ) : ℕ :=
  log.countP fun e => e.kind = .fail ∧ now < e.t + plugWindowUs

/-- The conditions on the single steps.

A connection that finds the failure cap not reached finds it not reached either when every waiting
client counts as a failure.  Once the failure run has spent the budget, a connection that finds
the delay over finds nobody waiting, and no waiting client is given up except by its timeout. -/
def Orderly (s : EvdiServer) : Event → Prop
  | .listen a =>
      let now := s.now + a.dAdmit + a.dGate
      (recentFails s.log now < failsPerHour →
        recentFails s.log now + (s.replace a.mac).waiting < failsPerHour) ∧
      ((failRun s.log).1 > selfhealBudget → ¬s.Drops (.listen a) ∧
        ((failRun s.log).2 + backoffDelay (failRun s.log).1 ≤ now → (s.replace a.mac).waiting = 0))
  | .lost id => (failRun s.log).1 > selfhealBudget → ¬s.Drops (.lost id)
  | .relogin _ => False
  | _ => True

/-- A plug in the phase after the budget was spent, of which the log before is `past`, is a single
probe: since the plug before it in the phase there was a mode timeout, and the delay after the
last one is over. -/
def SingleProbe (past : List PlugEvent) (p : PlugEvent) : Prop :=
  p.kind = .plug → ∀ before q between, past = before ++ q :: between → q.kind = .plug →
    (failRun before).1 > selfhealBudget → anyLit between = false →
    (∃ f ∈ between, f.kind = .fail) ∧
      (failRun past).2 + backoffDelay (failRun past).1 ≤ p.made

/-- The invariant.  The waiting clients have their place under the cap, and after a probe either
its client waits or its outcome is recorded. -/
structure Paced (s : EvdiServer) : Prop where
  room : recentFails s.log s.now + s.waiting ≤ failsPerHour
  capped : Capped PlugEvent.t PlugEvent.t plugWindowUs failsPerHour (s.log.filter isFail)
  probing : ∀ before q between, s.log = before ++ q :: between → q.kind = .plug →
    (failRun before).1 > selfhealBudget → anyLit between = false →
    (∀ f ∈ between, f.kind ≠ .fail) → 0 < s.waiting
  single : Always SingleProbe s.log

section Paced

variable {s s' : EvdiServer}

lemma recentFails_mono (log : List PlugEvent) {now now' : ℕ} (h : now ≤ now') :
    recentFails log now' ≤ recentFails log now := by
  apply List.countP_mono_left
  intro e _ he
  simp only [decide_eq_true_eq] at he ⊢
  exact ⟨he.1, h.trans_lt he.2⟩

lemma recentFails_snoc (log : List PlugEvent) (e : PlugEvent) (now : ℕ) :
    recentFails (log ++ [e]) now ≤ recentFails log now + if isFail e then 1 else 0 := by
  unfold recentFails
  rw [List.countP_append, List.countP_singleton]
  simp only [isFail, decide_eq_true_eq]
  split_ifs <;> simp_all

/-- In the phase the failure run does not shrink. -/
lemma failRun_phase {before between : List PlugEvent} {q : PlugEvent} (hq : q.kind = .plug)
    (hb : (failRun before).1 > selfhealBudget) (hl : anyLit between = false) :
    (failRun (before ++ q :: between)).1 > selfhealBudget := by
  rw [failRun_append, if_neg (by simp [anyLit, hq] at hl ⊢; exact hl)]
  omega

/-- **One orderly step keeps the pace.** -/
lemma Paced.step (h : s.Paced) {ev : Event} (hok : s.Orderly ev) (hrec : Recorded s s' ev) :
    s'.Paced := by
  cases hrec with
  | nothing hlog hnow hle hw =>
      refine ⟨?_, hlog ▸ h.capped, ?_, hlog ▸ h.single⟩
      · rw [hlog]
        have := recentFails_mono s.log hnow
        have := h.room
        omega
      · rw [hlog]
        intro before q between hb hq hrun hlit hf
        have hpos := h.probing before q between hb hq hrun hlit hf
        -- nobody was given up in the phase
        have hphase : (failRun s.log).1 > selfhealBudget := hb ▸ failRun_phase hq hrun hlit
        rw [hw ?_]
        · exact hpos
        · cases ev with
          | listen a => exact (hok.2 hphase).1
          | lost id => exact hok hphase
          | modeTimeout | modeChanged => exact fun hd => hd
          | relogin => exact hok.elim
  | outcome e hlog hk hmade hnow ht hw =>
      have hroom := h.room
      have hmono := recentFails_mono s.log hnow
      refine ⟨?_, ?_, ?_, ?_⟩
      · rw [hlog, ht]
        have hsnoc := recentFails_snoc s.log e e.t
        split_ifs at hsnoc <;> omega
      · rw [hlog, List.filter_append]
        by_cases hf : isFail e = true
        · rw [List.filter_cons_of_pos hf, List.filter_nil]
          refine capped_snoc.mpr ⟨h.capped, ?_⟩
          rw [List.countP_filter]
          -- the client that timed out had its place
          have hlt : recentFails s.log e.t < failsPerHour := by omega
          refine lt_of_eq_of_lt (List.countP_congr ?_) hlt
          intro x _
          simp [isFail, and_comm]
        · rw [List.filter_cons_of_neg hf, List.filter_nil, List.append_nil]
          exact h.capped
      · rw [hlog]
        intro before q between hb hq hrun hlit hf
        rcases List.eq_nil_or_concat between with rfl | ⟨rest, x, rfl⟩
        · obtain ⟨-, hx⟩ := List.append_inj' hb rfl
          exact absurd ((List.cons.inj hx).1 ▸ hq) hk
        · rw [List.concat_eq_append, ← List.cons_append, ← List.append_assoc] at hb
          obtain ⟨-, hx⟩ := List.append_inj' hb rfl
          obtain rfl := (List.cons.inj hx).1
          cases hkind : e.kind with
          | plug => exact absurd hkind hk
          | lit => simp [anyLit, hkind] at hlit
          | fail => exact absurd hkind (hf e (by simp))
      · rw [hlog]
        exact always_snoc.mpr ⟨h.single, fun hp => absurd hp hk⟩
  | plug a e hlog hk hgate hmade ht hw hfails hplugs hback =>
      have hle := waiting_replace_le a.mac s
      refine ⟨?_, ?_, fun _ _ _ _ _ _ _ _ => by omega, ?_⟩
      · rw [hlog, ht]
        have hroom := hok.1 hfails
        have hsnoc := recentFails_snoc s.log e e.t
        have hmono := recentFails_mono s.log (hgate.trans hmade)
        rw [if_neg (by simp [isFail, hk])] at hsnoc
        omega
      · rw [hlog, List.filter_append, List.filter_cons_of_neg (by simp [isFail, hk]),
          List.filter_nil, List.append_nil]
        exact h.capped
      · rw [hlog]
        refine always_snoc.mpr ⟨h.single, ?_⟩
        intro _ before q between hb hq hrun hlit
        have hphase : (failRun s.log).1 > selfhealBudget := hb ▸ failRun_phase hq hrun hlit
        obtain ⟨hdrop, hnone⟩ := hok.2 hphase
        refine ⟨?_, (hback hphase).trans hgate⟩
        -- else the client of the probe before would still wait
        by_contra hno
        have hpos := h.probing before q between hb hq hrun hlit
          fun f hf hfail => hno ⟨f, hf, hfail⟩
        have hzero := hnone (hback hphase)
        have : ¬(s.replace a.mac).waiting < s.waiting := hdrop
        omega

end Paced

/-- **The failure cap and the single probes.**  In a run of orderly steps every half-open sliding
hour has at most `FAILS_PER_HOUR` mode timeouts, and past the self-heal budget plugs are single
probes. -/
theorem fail_cap_and_single_probe (shell now : ℕ) {es : List Event}
    (hes : Along Orderly step (init shell now) es) :
    (∀ t, ((run step (init shell now) es).log.countP fun e =>
      e.kind = .fail ∧ t < e.t + plugWindowUs ∧ e.t ≤ t) ≤ failsPerHour) ∧
    Always SingleProbe (run step (init shell now) es).log := by
  have hstart : (init shell now).Sound ∧ (init shell now).Logged ∧ (init shell now).Paced := by
    refine ⟨(logged_init shell now).1, (logged_init shell now).2, ?_⟩
    refine ⟨Nat.zero_le _, always_nil _, ?_, always_nil _⟩
    intro before q between hb
    simp [init] at hb
  have hinv : (run step (init shell now) es).Paced := by
    refine (run_invariant (P := fun s : EvdiServer => s.Sound ∧ s.Logged ∧ s.Paced) ?_ hstart
      hes).2.2
    rintro s ev hok ⟨hs, hl, hp⟩
    have hshell : ev.sameShell = true := by
      cases ev with
      | relogin pid => exact hok.elim
      | _ => rfl
    obtain ⟨hl', hrec⟩ := hl.step hs hshell
    exact ⟨hs.step ev, hl', hp.step hok hrec⟩
  generalize run step (init shell now) es = s at hinv
  refine ⟨fun t => ?_, hinv.single⟩
  have hwin := hinv.capped.window (fun _ _ => le_rfl) t
  rw [List.countP_filter] at hwin
  refine le_trans (le_of_eq (List.countP_congr ?_)) hwin
  intro e _
  simp [isFail, and_comm]

/-- One client that times out, retries and lights up. -/
def retry : List Event :=
  [caller 1 0, .modeTimeout 0 0 (10 * gUsecPerSec) 0, caller 1 (5 * gUsecPerSec),
    .modeChanged 1 true 0 0]

theorem fail_cap_and_single_probe_retry :
    (run step (init 1 0) retry).log.map (·.kind) = [.plug, .fail, .plug, .lit] ∧
    Always SingleProbe (run step (init 1 0) retry).log := by
  refine ⟨by decide +kernel, (fail_cap_and_single_probe 1 0 ?_).2⟩
  simp only [Along, retry, caller, Orderly, Drops]
  decide +kernel

/-- Seven clients, then eight, then after half an hour eight again, all of which pass the gate:
twenty-three mode timeouts in one hour. -/
theorem crowd_of_timeouts :
    ¬∀ (shell now : ℕ) (es : List Event), (∀ e ∈ es, e.sameShell = true) →
      (∀ t, ((run step (init shell now) es).log.countP fun e =>
        e.kind = .fail ∧ t < e.t + plugWindowUs ∧ e.t ≤ t) ≤ failsPerHour) ∧
      Always SingleProbe (run step (init shell now) es).log := by
  intro h
  have hcap := (h 1 0 (crowd 7 0 0 ++ crowd 8 7 0 ++ crowd 8 15 (1800 * gUsecPerSec))
    (by decide +kernel)).1 (1830 * gUsecPerSec)
  exact absurd hcap (by decide +kernel)

end EvdiServer

end Sremfb
