import Sremfb.Server.PlugCaps

/-!
# The gate is exact

`plug_gate` decides on a pruned history, and again on what is left of it after the next pruning.
Pruning changes no verdict: the gate answers as if it had the log since gnome-shell changed.

Each of the three rules has a moment that only the log determines, the end of the backoff and the
moments at which the caps have room again (`backoffEnd`, `capEnd`).  The gate is closed before the
latest of the three, `reopensAt`, and open from then on (`gateRules_closed_iff`), which is why the
reopening time it gives does not move while nothing happens.

A change of gnome-shell does not clear the history, the next look at it does.  `since` is the server
with the log from some length on and with what is left of another shell taken away; no step sees the
difference (`step_since`).
-/

namespace Sremfb

open Lib

/-! ## One moment for each rule -/

/-- The end of the backoff; 0 when the budget is not spent. -/
def backoffEnd (ev : List PlugEvent) : ℕ :=
  if (failRun ev).1 > selfhealBudget then (failRun ev).2 + backoffDelay (failRun ev).1 else 0

/-- When the last `cap` events of a kind are no longer all within the window. -/
def capEnd (ev : List PlugEvent) (kind : PlugKind) (cap : ℕ) : ℕ :=
  match (ev.filter fun e => e.kind = kind)[(ev.filter fun e => e.kind = kind).length - cap]? with
  | some e => if (ev.filter fun e => e.kind = kind).length < cap then 0 else e.t + plugWindowUs
  | none => 0

/-- The latest of the three. -/
def reopensAt (ev : List PlugEvent) : ℕ :=
  max (backoffEnd ev) (max (capEnd ev .fail failsPerHour) (capEnd ev .plug plugsPerHour))

/-- A rule on top of the ones before: it counts when it closes the gate for longer. -/
def orLater (now : ℕ) (verdict : GateVerdict) (t : ℕ) (g : GateVerdict × ℕ) : GateVerdict × ℕ :=
  if t > now ∧ t > g.2 then (verdict, t) else g

/-- The maximum of the rules, as `plug_gate` forms it. -/
def combine (now b f p : ℕ) : GateVerdict × ℕ :=
  orLater now .plugCap p (orLater now .failCap f (if now < b then (.backoff, b) else (.opened, 0)))

section Moments

variable {ev log hist : List PlugEvent} {now : ℕ}

lemma gateRules_eq (ev : List PlugEvent) (now : ℕ) :
    ((gateRules ev now).verdict, (gateRules ev now).untilUs) =
      combine now (backoffEnd ev) (windowFreeAt ev .fail now failsPerHour)
        (windowFreeAt ev .plug now plugsPerHour) := by
  unfold gateRules combine orLater backoffEnd
  dsimp only
  by_cases hrun : (failRun ev).1 > selfhealBudget
  · simp only [hrun, true_and, if_true, gt_iff_lt]
    split_ifs <;> simp_all
  · simp only [hrun, false_and, if_false, Nat.not_lt_zero, gt_iff_lt]
    split_ifs <;> simp_all

lemma orLater_congr {now t t' : ℕ} (h : t = t' ∨ t ≤ now ∧ t' ≤ now) (v : GateVerdict)
    (g : GateVerdict × ℕ) : orLater now v t g = orLater now v t' g := by
  obtain rfl | ⟨ht, ht'⟩ := h
  · rfl
  · rw [orLater, orLater, if_neg (by omega), if_neg (by omega)]

/-- Only moments that are still to come matter. -/
lemma combine_congr {now b b' f f' p p' : ℕ} (hb : b = b' ∨ b ≤ now ∧ b' ≤ now)
    (hf : f = f' ∨ f ≤ now ∧ f' ≤ now) (hp : p = p' ∨ p ≤ now ∧ p' ≤ now) :
    combine now b f p = combine now b' f' p' := by
  have hback : (if now < b then (GateVerdict.backoff, b) else (.opened, 0)) =
      if now < b' then (GateVerdict.backoff, b') else (.opened, 0) := by
    obtain rfl | ⟨h, h'⟩ := hb
    · rfl
    · rw [if_neg (by omega), if_neg (by omega)]
  rw [combine, combine, orLater_congr hp, orLater_congr hf, hback]

/-- **The maximum.** -/
lemma combine_closed (now b f p : ℕ) :
    ((combine now b f p).1 ≠ .opened ↔ now < max b (max f p)) ∧
      ((combine now b f p).1 ≠ .opened → (combine now b f p).2 = max b (max f p)) := by
  unfold combine orLater
  split_ifs <;> simp_all <;> omega

/-- In a chronological log the window holds an end of the events of a kind. -/
lemma windowFreeAt_eq (h : Chrono ev) (kind : PlugKind) (now : ℕ) {cap : ℕ} (hcap : 0 < cap) :
    windowFreeAt ev kind now cap = capEnd ev kind cap ∨
      windowFreeAt ev kind now cap ≤ now ∧ capEnd ev kind cap ≤ now := by
  set l := ev.filter fun e => e.kind = kind with hl
  have hchrono : Chrono l := h.filter _
  obtain ⟨old, recent, hsplit, hold, hrecent⟩ := hchrono.split now
  have hinside : (ev.filter fun e => e.kind = kind ∧ e.inWindow now = true) = recent := by
    have hfilter : (ev.filter fun e => e.kind = kind ∧ e.inWindow now = true) =
        l.filter (·.inWindow now) := by
      rw [hl, List.filter_filter]
      apply List.filter_congr
      intro e _
      simp [Bool.and_comm]
    rw [hfilter, hsplit, List.filter_append, List.filter_eq_self.mpr hrecent,
      List.filter_eq_nil_iff.mpr fun e he => by simp [hold e he], List.nil_append]
  unfold windowFreeAt capEnd
  rw [← hl, hinside, hsplit]
  dsimp only
  rw [List.length_append]
  by_cases hfew : recent.length < cap
  · -- the deciding event, if there is one, has aged out
    right
    rw [if_pos hfew]
    refine ⟨Nat.zero_le _, ?_⟩
    split <;> rename_i hat
    · split
      · exact Nat.zero_le _
      · rename_i e hlong
        rw [List.getElem?_append_left (by omega)] at hat
        have hout := hold e (List.mem_of_getElem? hat)
        have hlt : ¬ now - plugWindowUs ≤ e.t := fun hle => by
          simp [inWindow_iff.mpr hle] at hout
        omega
    · exact Nat.zero_le _
  · left
    have hidx : old.length + recent.length - cap - old.length = recent.length - cap := by omega
    rw [if_neg hfew, List.getElem?_append_right (by omega), hidx]
    have hlt : recent.length - cap < recent.length := by omega
    rw [List.getElem?_eq_getElem hlt]
    dsimp only
    rw [if_neg (by omega)]

/-- **When the gate is closed**, in a chronological log. -/
lemma gateRules_closed_iff (h : Chrono ev) (now : ℕ) :
    ((gateRules ev now).verdict ≠ .opened ↔ now < reopensAt ev) ∧
      ((gateRules ev now).verdict ≠ .opened → (gateRules ev now).untilUs = reopensAt ev) := by
  have heq : ((gateRules ev now).verdict, (gateRules ev now).untilUs) =
      combine now (backoffEnd ev) (capEnd ev .fail failsPerHour) (capEnd ev .plug plugsPerHour) := by
    rw [gateRules_eq]
    exact combine_congr (.inl rfl) (windowFreeAt_eq h .fail now (by decide))
      (windowFreeAt_eq h .plug now (by decide))
  have hclosed := combine_closed now (backoffEnd ev) (capEnd ev .fail failsPerHour)
    (capEnd ev .plug plugsPerHour)
  rw [← heq] at hclosed
  exact hclosed

/-! ## The pruned history -/

lemma Retains.windowFreeAt (h : Retains now log hist) (kind : PlugKind) (cap : ℕ) :
    windowFreeAt hist kind now cap = windowFreeAt log kind now cap := by
  obtain ⟨old, kept, recent, rfl, rfl, ho, hk, -⟩ := h
  have hnone : ∀ l : List PlugEvent, (∀ e ∈ l, e.inWindow now = false) →
      (l.filter fun e => e.kind = kind ∧ e.inWindow now = true) = [] := by
    intro l hl
    rw [List.filter_eq_nil_iff]
    intro e he
    simp [hl e he]
  unfold Sremfb.windowFreeAt
  rw [List.filter_append, List.filter_append, hnone old ho, hnone kept fun e he => (hk e he).1]

/-- A backoff whose last failure left the window is over. -/
lemma backoffEnd_le {ev : List PlugEvent}
    (h : (failRun ev).1 > selfhealBudget → (failRun ev).2 + plugWindowUs ≤ now) :
    backoffEnd ev ≤ now := by
  unfold backoffEnd
  split <;> rename_i hrun
  · have hle := backoffDelay_le (failRun ev).1
    have hmax : backoffMaxS * gUsecPerSec ≤ plugWindowUs := by decide
    have := h hrun
    omega
  · exact Nat.zero_le _

/-- The last failure of a run is not in the window when no recent event is one. -/
lemma last_fail_le {l r : List PlugEvent} (hl : ∀ e ∈ l, e.inWindow now = false)
    (hr : r.any (·.kind = .fail) = false) (hrun : (failRun (l ++ r)).1 > selfhealBudget) :
    (failRun (l ++ r)).2 + plugWindowUs ≤ now := by
  have hnone : ∀ e ∈ r, e.kind ≠ .fail := by simpa using hr
  have hcount : r.countP (·.kind = .fail) = 0 := by
    rw [List.countP_eq_zero]
    intro e he hk
    exact hnone e he (by simpa using hk)
  have hpos : 0 < (failRun l).1 := by
    rw [failRun_append] at hrun
    split at hrun
    · obtain ⟨e, he, hk, -⟩ := failRun_pos (Nat.zero_lt_of_lt hrun)
      exact absurd hk (hnone e he)
    · rw [hcount] at hrun
      exact Nat.zero_lt_of_lt hrun
  obtain ⟨e, he, -, ht⟩ := failRun_pos hpos
  have hout : ¬ now - plugWindowUs ≤ e.t := fun hle =>
    absurd (hl e he) (by simp [inWindow_iff.mpr hle])
  rw [failRun_append_snd, if_neg (by simpa using hr), ← ht]
  omega

lemma Retains.backoffEnd (h : Retains now log hist) :
    backoffEnd hist = backoffEnd log ∨ backoffEnd hist ≤ now ∧ backoffEnd log ≤ now := by
  obtain ⟨old, kept, recent, rfl, rfl, ho, hk, -, hlen⟩ := h
  cases hfail : recent.any (·.kind = .fail) with
  | false =>
      exact .inr ⟨backoffEnd_le (last_fail_le (fun e he => (hk e he).1) hfail),
        backoffEnd_le (last_fail_le ho hfail)⟩
  | true =>
      -- the last failure is the same, and the runs are, or both are long
      left
      unfold Sremfb.backoffEnd
      rw [failRun_append_snd, failRun_append_snd, if_pos hfail, if_pos hfail, failRun_append,
        failRun_append, failRun_of_fails fun e he => (hk e he).2]
      cases hlit : anyLit recent with
      | true => rfl
      | false =>
          simp only [Bool.false_eq_true, if_false]
          obtain heq | ⟨hkept, hold⟩ := hlen hlit
          · rw [heq]
          · have hbudget : selfhealBudget < manyFails := by decide
            rw [if_pos (by omega), if_pos (by omega), backoffDelay_of_many (by omega),
              backoffDelay_of_many (by omega)]

/-- **Pruning changes no verdict.** -/
lemma Retains.gateRules (h : Retains now log hist) :
    (gateRules hist now).verdict = (gateRules log now).verdict ∧
      (gateRules hist now).untilUs = (gateRules log now).untilUs := by
  have heq : ((Sremfb.gateRules hist now).verdict, (Sremfb.gateRules hist now).untilUs) =
      ((Sremfb.gateRules log now).verdict, (Sremfb.gateRules log now).untilUs) := by
    rw [gateRules_eq, gateRules_eq, h.windowFreeAt, h.windowFreeAt]
    exact combine_congr h.backoffEnd (.inl rfl) (.inl rfl)
  exact Prod.mk.inj heq

end Moments

namespace EvdiServer

/-! ## Since gnome-shell changed -/

/-- The server with the log from its `n`-th event on, and without what the history still has of
another gnome-shell. -/
def since (n : ℕ) (s : EvdiServer) : EvdiServer :=
  { s with
    log := s.log.drop n
    plugs := if s.plugs.shell = s.shell then s.plugs else { events := [], shell := s.plugs.shell } }

section Since

variable {s t : EvdiServer} {n : ℕ}

lemma prune_since (n : ℕ) (s : EvdiServer) (now : ℕ) :
    (s.since n).plugs.prune s.shell now = s.plugs.prune s.shell now := by
  simp only [since]
  split <;> rename_i h
  · rfl
  · simp only [PlugHistory.prune, Ne.symm h, ne_eq, not_false_eq_true, if_true]

lemma shell_prune (s : EvdiServer) (now : ℕ) : (s.plugs.prune s.shell now).shell = s.shell := by
  unfold PlugHistory.prune
  split <;> rename_i h
  · rfl
  · exact (not_not.mp h).symm

/-- When the history is of this gnome-shell only the log changes. -/
lemma since_eq (h : s.plugs.shell = s.shell) (n : ℕ) :
    s.since n = { s with log := s.log.drop n } := by
  simp only [since, h, if_true]

lemma gate_since (n d : ℕ) (s : EvdiServer) :
    (s.since n).gate d = ((s.gate d).1.since n, (s.gate d).2) := by
  have hgate : (s.gate d).1.plugs.shell = (s.gate d).1.shell := shell_prune s _
  have hpruned : (s.since n).gate d =
      ({ (s.since n).wait d with plugs := (s.since n).plugs.prune s.shell (s.now + d) },
        gateRules ((s.since n).plugs.prune s.shell (s.now + d)).events (s.now + d)) := rfl
  rw [since_eq hgate, hpruned, prune_since]
  rfl

lemma record_since (hn : n ≤ s.log.length) (d : ℕ) (kind : PlugKind) (made : ℕ → ℕ) :
    (s.since n).record d kind made = (s.record d kind made).since n := by
  have hrec : (s.record d kind made).plugs.shell = (s.record d kind made).shell := shell_prune s _
  set e : PlugEvent := ⟨s.now + d, kind, made (s.now + d)⟩ with he
  have hpruned : (s.since n).record d kind made =
      { (s.since n).wait d with
        log := s.log.drop n ++ [e]
        plugs := { (s.since n).plugs.prune s.shell (s.now + d) with
          events := ((s.since n).plugs.prune s.shell (s.now + d)).events ++ [e] } } := rfl
  rw [since_eq hrec, hpruned, prune_since, ← List.drop_append_of_le_length hn]
  rfl

lemma acquirePooled_since (n id : ℕ) (allow : Bool) (s : EvdiServer) :
    (s.since n).acquirePooled id allow =
      (s.acquirePooled id allow).map fun r => (r.1.since n, r.2) := by
  unfold acquirePooled
  rw [Option.map_map]
  rfl

lemma acquireCard_since (n id card : ℕ) (a : Attempt) (s : EvdiServer) :
    (s.since n).acquireCard id a card =
      (s.acquireCard id a card).map fun r => (r.1.since n, r.2) := by
  unfold acquireCard
  have hdev : (s.since n).devices = s.devices := rfl
  rw [hdev]
  split <;> rfl

lemma selfHealAdd_since (n : ℕ) (a : Attempt) (s : EvdiServer) :
    (s.since n).selfHealAdd a = ((s.selfHealAdd a).1.since n, (s.selfHealAdd a).2) := by
  unfold selfHealAdd
  rw [gate_since]
  dsimp only
  split <;> rfl

lemma acquireFresh_since (n id : ℕ) (a : Attempt) (s : EvdiServer) :
    (s.since n).acquireFresh id a = ((s.acquireFresh id a).1.since n, (s.acquireFresh id a).2) := by
  unfold acquireFresh
  have hwedge : (s.since n).wedgeSeen = s.wedgeSeen := rfl
  rw [hwedge, selfHealAdd_since]
  split
  · dsimp only
    have hbind : ((s.selfHealAdd a).2.bind fun card =>
          ((s.selfHealAdd a).1.since n).acquireCard id a card) =
        ((s.selfHealAdd a).2.bind fun card => (s.selfHealAdd a).1.acquireCard id a card).map
          fun r => (r.1.since n, r.2) := by
      cases (s.selfHealAdd a).2 with
      | none => rfl
      | some card => exact acquireCard_since n id card a _
    rw [hbind]
    cases (s.selfHealAdd a).2.bind fun card => (s.selfHealAdd a).1.acquireCard id a card <;> rfl
  · rfl

lemma evdiAcquire_since (n id : ℕ) (a : Attempt) (s : EvdiServer) :
    (s.since n).evdiAcquire id a = ((s.evdiAcquire id a).1.since n, (s.evdiAcquire id a).2) := by
  unfold evdiAcquire
  rw [acquirePooled_since]
  cases s.acquirePooled id false with
  | some r => rfl
  | none =>
      simp only [Option.map_none]
      rw [acquireFresh_since]
      generalize s.acquireFresh id a = r
      obtain ⟨t, found⟩ := r
      cases found with
      | some i => rfl
      | none =>
          dsimp only
          have hscan : ((List.range evdiMaxCards).findSome? fun i =>
                if a.usable i then (t.since n).acquireCard id a i else none) =
              ((List.range evdiMaxCards).findSome? fun i =>
                if a.usable i then t.acquireCard id a i else none).map
                  fun r => (r.1.since n, r.2) := by
            rw [List.map_findSome?]
            congr 1
            funext i
            rw [Function.comp_apply, acquireCard_since]
            split <;> rfl
          rw [hscan, acquirePooled_since]
          cases (List.range evdiMaxCards).findSome? fun i =>
            if a.usable i then t.acquireCard id a i else none with
          | some r => rfl
          | none => cases t.acquirePooled id true <;> rfl

/-- Looking for a device records nothing. -/
lemma evdiAcquire_log (id : ℕ) (a : Attempt) (s : EvdiServer) :
    (s.evdiAcquire id a).1.log = s.log := by
  obtain ⟨t, ht, hnone | ⟨ds, i, hsome, -⟩⟩ := evdiAcquire_cases id a s
  · obtain ⟨m, ps, rfl⟩ := ht.eq
    rw [hnone]
  · obtain ⟨m, ps, rfl⟩ := ht.eq
    rw [hsome]

lemma sourceAcquire_since (hn : n ≤ s.log.length) (id : ℕ) (a : Attempt) :
    (s.since n).sourceAcquire id a =
      ((s.sourceAcquire id a).1.since n, (s.sourceAcquire id a).2) := by
  unfold sourceAcquire
  rw [gate_since]
  dsimp only
  split
  · rfl
  · rw [evdiAcquire_since]
    have hlog := evdiAcquire_log id a (s.gate a.dGate).1
    generalize (s.gate a.dGate).1.evdiAcquire id a = r at hlog
    obtain ⟨t, found⟩ := r
    cases found with
    | none => rfl
    | some dev =>
        have hnt : n ≤ (t.wait a.dPlug).log.length := by
          have hlen : t.log.length = s.log.length := congrArg List.length hlog
          exact hn.trans hlen.ge
        have hplug := record_since hnt a.dRecord .plug fun _ => (t.wait a.dPlug).now
        exact Prod.ext hplug rfl

lemma replace_since (n : ℕ) (mac : Mac) (s : EvdiServer) :
    (s.since n).replace mac = (s.replace mac).since n := by
  unfold replace
  have hcs : (s.since n).clients = s.clients := rfl
  rw [hcs]
  split
  · rfl
  · cases s.clients.find? fun c => c.mac = mac <;> rfl

lemma onListenReady_since (hn : n ≤ s.log.length) (a : Attempt) :
    (s.since n).onListenReady a = (s.onListenReady a).since n := by
  unfold onListenReady
  split
  · rfl
  · rw [replace_since]
    have hlog : n ≤ (s.replace a.mac).log.length := by
      obtain ⟨cs, ds, heq⟩ := replace_eq a.mac s
      rwa [heq]
    generalize s.replace a.mac = t at hlog
    have hcs : (t.since n).clients = t.clients := rfl
    dsimp only
    rw [hcs, gate_since]
    split
    · rfl
    · dsimp only
      split
      · rfl
      · have hid : ((t.gate a.dAdmit).1.since n).nextId = (t.gate a.dAdmit).1.nextId := rfl
        have hlog' : n ≤ (t.gate a.dAdmit).1.log.length := hlog
        rw [hid, sourceAcquire_since hlog']
        generalize (t.gate a.dAdmit).1.sourceAcquire (t.gate a.dAdmit).1.nextId a = r
        obtain ⟨u, found⟩ := r
        cases found <;> rfl

lemma onModeTimeout_since (hn : n ≤ s.log.length) (id : ℕ) (ps : ℤ) (d dRecord : ℕ) :
    (s.since n).onModeTimeout id ps d dRecord = (s.onModeTimeout id ps d dRecord).since n := by
  unfold onModeTimeout
  have hcs : (s.since n).clients = s.clients := rfl
  rw [hcs]
  cases s.clients.find? fun c => c.id = id ∧ c.state = .modeWait with
  | none => rfl
  | some c =>
      dsimp only
      have hnow : ((s.since n).wait d).now = (s.wait d).now := rfl
      rw [hnow]
      generalize (if ps > 0 then (s.wait d).now else c.psSeen) = seen
      split
      · rfl
      · have hwedged : n ≤ (s.wedged c.dev d).log.length := hn
        exact congrArg (fun t => t.clientLost c) (record_since hwedged dRecord .fail _)

lemma onModeChanged_since (hn : n ≤ s.log.length) (i : ℕ) (usable : Bool) (dGate dRecord : ℕ) :
    (s.since n).onModeChanged i usable dGate dRecord =
      (s.onModeChanged i usable dGate dRecord).since n := by
  unfold onModeChanged
  have hdev : (s.since n).devices = s.devices := rfl
  have hcs : (s.since n).clients = s.clients := rfl
  rw [hdev]
  cases (s.devices[i]?).bind (·.owner) with
  | none => rfl
  | some id =>
      dsimp only [modifyDevice]
      rw [hcs]
      split
      · rfl
      · split
        · have hlit : n ≤ (s.lighted i id dGate).log.length := hn
          have hgate := congrArg Prod.fst (gate_since n dGate
            ((s.modifyDevice i fun d => { d with suspect := false }).modifyClient id
              fun c => { c with state := .streaming }))
          have hrec := record_since hlit dRecord .lit fun t => t
          exact (congrArg (fun t => t.record dRecord .lit fun t => t) hgate).trans hrec
        · rfl

/-- **No step sees what was logged before.** -/
lemma step_since (hn : n ≤ s.log.length) {e : Event} (he : e.sameShell = true) :
    (s.since n).step e = (s.step e).since n := by
  cases e with
  | listen a => exact onListenReady_since hn a
  | lost id =>
      have hcs : (s.since n).clients = s.clients := rfl
      simp only [EvdiServer.step, hcs]
      cases s.clients.find? fun c => c.id = id <;> rfl
  | modeTimeout id ps d dRecord => exact onModeTimeout_since hn id ps d dRecord
  | modeChanged i usable dGate dRecord => exact onModeChanged_since hn i usable dGate dRecord
  | relogin pid => cases he

/-- The log only grows. -/
lemma log_step (s : EvdiServer) (e : Event) : ∃ l, (s.step e).log = s.log ++ l := by
  cases e with
  | listen a =>
      have hrep : (s.replace a.mac).log = s.log := by
        obtain ⟨cs, ds, heq⟩ := replace_eq a.mac s
        rw [heq]
      obtain ⟨-, he⟩ | ⟨u, m, hu, -, he⟩ | ⟨-, u, v, ds, dev, rfl, -, hv, -, he⟩ :=
        onListenReady_cases a s
      · rw [EvdiServer.step, he]
        exact ⟨[], (List.append_nil _).symm⟩
      · obtain ⟨k, ps, rfl⟩ := hu.eq
        rw [EvdiServer.step, he, ← hrep]
        exact ⟨[], (List.append_nil _).symm⟩
      · have hlog : v.log = s.log := by
          obtain ⟨k, ps, heq⟩ := hv.eq
          rw [← hrep, heq]
          rfl
        rw [EvdiServer.step, he, ← hlog]
        exact ⟨_, rfl⟩
  | lost id =>
      simp only [EvdiServer.step]
      split
      · exact ⟨[], (List.append_nil _).symm⟩
      · exact ⟨[], (List.append_nil _).symm⟩
  | modeTimeout id ps d dRecord =>
      obtain he | ⟨c, -, -, -, ⟨seen, he⟩ | he⟩ := onModeTimeout_cases id ps d dRecord s
      · rw [EvdiServer.step, he]
        exact ⟨[], (List.append_nil _).symm⟩
      · rw [EvdiServer.step, he]
        exact ⟨[], (List.append_nil _).symm⟩
      · rw [EvdiServer.step, he]
        exact ⟨_, rfl⟩
  | modeChanged i usable dGate dRecord =>
      obtain he | he | ⟨c, -, -, he⟩ := onModeChanged_cases i usable dGate dRecord s
      · rw [EvdiServer.step, he]
        exact ⟨[], (List.append_nil _).symm⟩
      · rw [EvdiServer.step, he]
        exact ⟨[], (List.append_nil _).symm⟩
      · rw [EvdiServer.step, he]
        exact ⟨_, rfl⟩
  | relogin pid => exact ⟨[], (List.append_nil _).symm⟩

lemma run_since (hn : n ≤ s.log.length) {es : List Event} (hes : ∀ e ∈ es, e.sameShell = true) :
    run step (s.since n) es = (run step s es).since n := by
  induction es generalizing s with
  | nil => rfl
  | cons e es ih =>
      obtain ⟨he, hes⟩ := List.forall_mem_cons.mp hes
      obtain ⟨l, hlog⟩ := log_step s e
      have hlen : n ≤ (s.step e).log.length := by
        rw [hlog, List.length_append]
        omega
      rw [run_cons, run_cons, step_since hn he]
      exact ih hlen hes

end Since

/-! ## Exactness -/

/-- The moment a history starts: nothing has happened yet, or another gnome-shell runs than the one
the history is of. -/
def Starts (shell now : ℕ) (es : List Event) : Prop :=
  es = [] ∨ (run step (init shell now) es).plugs.shell ≠ (run step (init shell now) es).shell

section Exact

variable {shell now : ℕ} {es₀ es : List Event} {s t : EvdiServer}

lemma sound_run (shell now : ℕ) (es : List Event) : (run step (init shell now) es).Sound :=
  run_keeps (P := EvdiServer.Sound) (fun _ e h => h.step e) (sound_init shell now) es

/-- Where a history starts, the log is in order from there on. -/
lemma Starts.logged (h : Starts shell now es₀) (hs : s = run step (init shell now) es₀) :
    (s.since s.log.length).Sound ∧ (s.since s.log.length).Logged := by
  have hsound : s.Sound := hs ▸ sound_run shell now es₀
  have hsince : (s.since s.log.length).Sound := hsound.ext rfl rfl le_rfl
  have hlog : (s.since s.log.length).log = [] := List.drop_length
  have hevents : (s.since s.log.length).plugs.events = [] := by
    obtain rfl | hne := h
    · subst hs
      simp only [since]
      split <;> rfl
    · rw [← hs] at hne
      simp only [since, hne, if_false]
  refine ⟨hsince, ?_⟩
  refine ⟨?_, ?_, .inr hlog, ⟨s.now, le_rfl, ?_⟩, ?_, ?_, ?_⟩
  · rw [hlog]
    exact List.Pairwise.nil
  · rw [hlog]
    exact fun _ he => (List.not_mem_nil he).elim
  · rw [hlog, hevents]
    exact ⟨[], [], [], rfl, rfl, by simp, by simp, by simp, fun _ => .inl rfl⟩
  · rw [hlog, hevents]
  · rw [hlog]
    exact always_nil _
  · intro pre post hpre
    rw [hlog] at hpre
    obtain ⟨-, rfl⟩ := List.append_eq_nil_iff.mp hpre.symm
    simpa using waiting_le_room hsince

lemma Starts.logged_run (h : Starts shell now es₀) (hs : s = run step (init shell now) es₀)
    (hes : ∀ e ∈ es, e.sameShell = true) :
    ((run step s es).since s.log.length).Logged := by
  rw [← run_since le_rfl hes]
  exact (run_invariant (P := fun s : EvdiServer => s.Sound ∧ s.Logged)
    (fun s e he hs => ⟨hs.1.step e, (hs.2.step hs.1 he).1⟩) (h.logged hs)
    (along_of_forall hes)).2

/-- What the gate says is what the log says. -/
lemma Logged.gate_eq (h : s.Logged) (d : ℕ) :
    (s.gate d).2.verdict = (gateRules s.log (s.now + d)).verdict ∧
      (s.gate d).2.untilUs = (gateRules s.log (s.now + d)).untilUs := by
  obtain ⟨hr, -⟩ := (h.wait d).prune
  exact hr.gateRules

/-- Looking at the gate records nothing, and lets the rest of the history follow. -/
lemma Looked.since {u : EvdiServer} (h : Looked s u) (n : ℕ) : Looked (s.since n) (u.since n) := by
  induction h with
  | refl => exact .refl
  | tail _ hstep ih =>
      obtain ⟨d, rfl⟩ := hstep
      exact ih.tail ⟨d, by rw [gate_since]⟩

end Exact

/-- **The gate is exact.**  From where a history starts, under one gnome-shell, the gate on the
pruned history answers as it would on the whole one, and a closed gate stays closed until the time
it gave and is open from then on, however often it is looked at in between. -/
theorem gate_exact (shell now : ℕ) {es₀ es : List Event} (hstart : Starts shell now es₀)
    (hes : ∀ e ∈ es, e.sameShell = true) (d : ℕ) :
    let s := run step (init shell now) es₀
    let t := run step s es
    let log := t.log.drop s.log.length
    let g := (t.gate d).2
    g.verdict = (gateRules log (t.now + d)).verdict ∧
      g.untilUs = (gateRules log (t.now + d)).untilUs ∧
      (g.verdict ≠ .opened → ∀ u, Looked (t.gate d).1 u → ∀ d',
        ((u.gate d').2.verdict ≠ .opened ↔ u.now + d' < g.untilUs)) := by
  intro s t log g
  have hlogged : (t.since s.log.length).Logged := hstart.logged_run rfl hes
  have hgate : ((t.since s.log.length).gate d).2 = g := by rw [gate_since]
  obtain ⟨hverdict, huntil⟩ := hlogged.gate_eq d
  rw [hgate] at hverdict huntil
  refine ⟨hverdict, huntil, ?_⟩
  intro hclosed u hu d'
  have hchrono : Chrono log := hlogged.chrono
  have hreopens : g.untilUs = reopensAt log := by
    rw [huntil]
    exact (gateRules_closed_iff hchrono _).2 (hverdict ▸ hclosed)
  have hlooked : Looked (t.since s.log.length) (u.since s.log.length) := by
    have hfirst : Looked (t.since s.log.length) ((t.gate d).1.since s.log.length) := by
      refine .single ⟨d, ?_⟩
      rw [gate_since]
    exact hfirst.trans (hu.since _)
  have hulog : (u.since s.log.length).log = log := by
    obtain ⟨m, ps, heq⟩ := hlooked.eq
    rw [heq]
    rfl
  have hugate : ((u.since s.log.length).gate d').2 = (u.gate d').2 := by rw [gate_since]
  have huverdict := ((hlogged.looked hlooked).gate_eq d').1
  rw [hugate, hulog] at huverdict
  rw [huverdict, hreopens]
  exact (gateRules_closed_iff hchrono _).1

/-- Nine timeouts under one gnome-shell, then under the next one: the backoff of the second history
ends a minute after its last timeout. -/
theorem gate_exact_relogin :
    let s := run step (init 1 0) (crowd 8 0 0 ++ crowd 1 8 0 ++ [.relogin 2])
    let t := run step s (crowd 8 9 5 ++ crowd 1 17 5)
    (t.gate 0).2.verdict = .backoff ∧
      (t.gate 0).2.untilUs = (gateRules (t.log.drop s.log.length) (t.now + 0)).untilUs := by
  refine ⟨by decide +kernel, ?_⟩
  exact (gate_exact 1 0 (.inr (by decide +kernel)) (by decide +kernel) 0).2.1

end EvdiServer

end Sremfb
