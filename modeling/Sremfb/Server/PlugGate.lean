import Sremfb.Lib.Window
import Mathlib.Data.List.Pairwise
import Mathlib.Tactic.Linarith

/-!
# The plug gate (`evdi.c`)

Every EDID plug is a hotplug for the compositor.  The server decides about the next one from a
short history of timestamps: plugs, connectors that lit up and mode timeouts.  What is older than
an hour is dropped, except the timeouts since the last connector that lit up, which the backoff
counts.

The log is the history with nothing dropped.  `Retains` relates the two: the last hour of the log
is in the history, before it the history has the timeouts of the failure run, all of them or so
many that the delay does not depend on how many.  So the gate, which reads the history, decides as
if it read the log (`gate_of_open`).
-/

namespace Sremfb

open Lib

/-! ## The history -/

/-- `SREMFB_PLUG_EV_*`. -/
inductive PlugKind
  | plug
  | lit
  | fail
  deriving DecidableEq, Repr

/-- `SremfbPlugEvent`.  `made` is not in the struct: it is the time of the event itself, which for
a plug lies before the time it is recorded with. -/
structure PlugEvent where
  t : ℕ
  kind : PlugKind
  made : ℕ
  deriving DecidableEq, Repr

/-- `GATE_*`. -/
inductive GateVerdict
  | opened
  | backoff
  | failCap
  | plugCap
  deriving DecidableEq, Repr

/-- `PlugGate`. -/
structure PlugGate where
  verdict : GateVerdict
  untilUs : ℕ
  failRun : ℕ
  deriving DecidableEq, Repr

/-- `plug_events` and `plug_shell`. -/
structure PlugHistory where
  events : List PlugEvent := []
  shell : ℕ := 0
  deriving DecidableEq, Repr

def selfhealBudget : ℕ := 8
def backoffMinS : ℕ := 60
def backoffMaxS : ℕ := 30 * 60
def failsPerHour : ℕ := 16
def plugsPerHour : ℕ := 60
def gUsecPerSec : ℕ := 1000000
def plugWindowUs : ℕ := 3600 * gUsecPerSec
def plugEventsMax : ℕ := 1024

/-- Some connector lit up. -/
def anyLit (ev : List PlugEvent) : Bool := ev.any fun e => e.kind = .lit

/-- The event lies in the sliding window, whose oldest moment counts. -/
def PlugEvent.inWindow (now : ℕ) (e : PlugEvent) : Bool := decide (now - plugWindowUs ≤ e.t)

/-- The loop of `plug_prune` that keeps the last hour and the timeouts after the last lit
connector, that is, those with no lit connector after them. -/
def plugKeep (now : ℕ) : List PlugEvent → List PlugEvent
  | [] => []
  | e :: rest =>
      if e.inWindow now = true ∨ e.kind = .fail ∧ anyLit rest = false then
        e :: plugKeep now rest
      else plugKeep now rest

namespace PlugHistory

/-- `plug_prune`; `shell` is what `compositor_pid` returns. -/
def prune (shell now : ℕ) (h : PlugHistory) : PlugHistory :=
  if shell ≠ h.shell then { events := [], shell := shell }
  else
    let ev := plugKeep now h.events
    { h with events := if ev.length > plugEventsMax then ev.drop (ev.length - plugEventsMax) else ev }

/-- `plug_record`. -/
def record (shell : ℕ) (e : PlugEvent) (h : PlugHistory) : PlugHistory :=
  let h := h.prune shell e.t
  { h with events := h.events ++ [e] }

end PlugHistory

/-- `window_free_at`. -/
def windowFreeAt (ev : List PlugEvent) (kind : PlugKind) (now cap : ℕ) : ℕ :=
  let inside := ev.filter fun e => e.kind = kind ∧ e.inWindow now = true
  if inside.length < cap then 0
  else
    -- the (n - cap + 1)-th oldest in the window has to age out
    match inside[inside.length - cap]? with
    | some e => e.t + plugWindowUs
    | none => 0

/-- One round of the loop of `plug_gate`, on `fail_run` and `last_fail`. -/
def failScan (a : ℕ × ℕ) (e : PlugEvent) : ℕ × ℕ :=
  match e.kind with
  | .lit => (0, a.2)
  | .fail => (a.1 + 1, e.t)
  | .plug => a

/-- The failure run, and the time of the last failure. -/
def failRun (ev : List PlugEvent) : ℕ × ℕ := ev.foldl failScan (0, 0)

/-- The delay after the last failure of a run that has spent the budget. -/
def backoffDelay (run : ℕ) : ℕ :=
  min (backoffMinS <<< min (run - selfhealBudget - 1) 16) backoffMaxS * gUsecPerSec

/-- The three rules of `plug_gate`, on a pruned history. -/
def gateRules (ev : List PlugEvent) (now : ℕ) : PlugGate :=
  let (run, lastFail) := failRun ev
  let g : PlugGate := { verdict := .opened, untilUs := 0, failRun := run }
  let g :=
    if run > selfhealBudget ∧ lastFail + backoffDelay run > now then
      { g with verdict := .backoff, untilUs := lastFail + backoffDelay run }
    else g
  let t := windowFreeAt ev .fail now failsPerHour
  let g := if t > now ∧ t > g.untilUs then { g with verdict := .failCap, untilUs := t } else g
  let t := windowFreeAt ev .plug now plugsPerHour
  if t > now ∧ t > g.untilUs then { g with verdict := .plugCap, untilUs := t } else g

/-- `plug_gate`. -/
def plugGate (shell now : ℕ) (h : PlugHistory) : PlugHistory × PlugGate :=
  let h := h.prune shell now
  (h, gateRules h.events now)

/-! ## The rules -/

lemma inWindow_iff {now : ℕ} {e : PlugEvent} :
    e.inWindow now = true ↔ now - plugWindowUs ≤ e.t := decide_eq_true_iff


@[simp] lemma failRun_snoc (l : List PlugEvent) (e : PlugEvent) :
    failRun (l ++ [e]) = failScan (failRun l) e := by
  simp [failRun]

/-- An open gate: no rule is in force. -/
lemma gateRules_opened {ev : List PlugEvent} {now : ℕ} (h : (gateRules ev now).verdict = .opened) :
    ((failRun ev).1 > selfhealBudget →
      (failRun ev).2 + backoffDelay (failRun ev).1 ≤ now) ∧
    windowFreeAt ev .fail now failsPerHour ≤ now ∧
    windowFreeAt ev .plug now plugsPerHour ≤ now := by
  unfold gateRules at h
  dsimp only at h
  by_cases hb : (failRun ev).1 > selfhealBudget ∧
      (failRun ev).2 + backoffDelay (failRun ev).1 > now
  · rw [if_pos hb] at h
    split_ifs at h
  · rw [if_neg hb] at h
    refine ⟨fun hr => ?_, ?_⟩
    · by_contra hlt
      exact hb ⟨hr, by omega⟩
    · dsimp only at h
      split_ifs at h
      dsimp only at *
      omega

/-- Fewer than `cap` events of the kind lie in the last hour once `window_free_at` has passed; the
one that is exactly an hour old does not count. -/
lemma countP_of_windowFreeAt {ev : List PlugEvent} {kind : PlugKind} {now cap : ℕ} (hcap : 0 < cap)
    (hs : ev.Pairwise fun a b => a.t ≤ b.t) (h : windowFreeAt ev kind now cap ≤ now) :
    (ev.countP fun e => e.kind = kind ∧ now < e.t + plugWindowUs) < cap := by
  set inside := ev.filter fun e => e.kind = kind ∧ e.inWindow now = true with hin
  have hcount : (ev.countP fun e => e.kind = kind ∧ now < e.t + plugWindowUs) =
      inside.countP fun e => now < e.t + plugWindowUs := by
    rw [hin, List.countP_filter]
    apply List.countP_congr
    intro e _
    simp only [decide_eq_true_eq, Bool.and_eq_true, inWindow_iff]
    constructor
    · rintro ⟨hk, ht⟩
      exact ⟨ht, hk, by omega⟩
    · rintro ⟨ht, hk, -⟩
      exact ⟨hk, ht⟩
  rw [hcount]
  unfold windowFreeAt at h
  rw [← hin] at h
  dsimp only at h
  by_cases hlen : inside.length < cap
  · exact lt_of_le_of_lt List.countP_le_length hlen
  · rw [if_neg hlen] at h
    have hi : inside.length - cap < inside.length := by omega
    rw [List.getElem?_eq_getElem hi] at h
    -- the ones up to that index have aged out
    have hsorted : inside.Pairwise fun a b => a.t ≤ b.t := hs.filter _
    have hold : (inside.take (inside.length - cap + 1)).countP
        (fun e => now < e.t + plugWindowUs) = 0 := by
      rw [List.countP_eq_zero]
      intro e he
      obtain ⟨j, hj, rfl⟩ := List.mem_take_iff_getElem.mp he
      have hle : inside[j].t ≤ inside[inside.length - cap].t := by
        rcases Nat.lt_or_ge j (inside.length - cap) with hlt | hge
        · exact List.pairwise_iff_getElem.mp hsorted j _ (by omega) hi hlt
        · have : j = inside.length - cap := by omega
          subst this
          exact le_rfl
      simp only [decide_eq_true_eq]
      simp only at h
      omega
    rw [← List.take_append_drop (inside.length - cap + 1) inside, List.countP_append, hold,
      Nat.zero_add]
    refine lt_of_le_of_lt List.countP_le_length ?_
    rw [List.length_drop]
    omega

/-! ## What the history retains -/

/-- The lists are chronological. -/
def Chrono (ev : List PlugEvent) : Prop := ev.Pairwise fun a b => a.t ≤ b.t

/-- So many failures that the delay is the longest one. -/
def manyFails : ℕ := 700

/-- The history `hist` retains what matters of the log at the last pruning, `p`: the same events
since an hour before `p`, and before these nothing but timeouts, which are as many as the failure
run unless both are many. -/
def Retains (p : ℕ) (log hist : List PlugEvent) : Prop :=
  ∃ old kept recent, log = old ++ recent ∧ hist = kept ++ recent ∧
    (∀ e ∈ old, e.inWindow p = false) ∧
    (∀ e ∈ kept, e.inWindow p = false ∧ e.kind = .fail) ∧
    (∀ e ∈ recent, e.inWindow p = true) ∧
    (anyLit recent = false → kept.length = (failRun old).1 ∨
      manyFails ≤ kept.length ∧ manyFails ≤ (failRun old).1)

section Retention

variable {now p : ℕ} {log hist l r : List PlugEvent}

lemma anyLit_append (l r : List PlugEvent) : anyLit (l ++ r) = (anyLit l || anyLit r) := by
  simp [anyLit]

/-- What is kept of a piece depends on the rest only by a lit connector in it. -/
lemma plugKeep_append (now : ℕ) (l r : List PlugEvent) : plugKeep now (l ++ r) =
    (if anyLit r then l.filter (·.inWindow now) else plugKeep now l) ++ plugKeep now r := by
  induction l with
  | nil => cases anyLit r <;> rfl
  | cons e l ih =>
      rw [List.cons_append, plugKeep, plugKeep, ih, anyLit_append]
      cases hr : anyLit r with
      | false =>
          simp only [Bool.or_false, Bool.false_eq_true, if_false]
          split_ifs <;> rfl
      | true => by_cases ht : e.inWindow now = true <;> simp [ht]

lemma plugKeep_recent (h : ∀ e ∈ l, e.inWindow now = true) : plugKeep now l = l := by
  induction l with
  | nil => rfl
  | cons e l ih =>
      rw [plugKeep, if_pos (.inl (h e (List.mem_cons_self ..))),
        ih fun x hx => h x (List.mem_cons_of_mem _ hx)]

/-- Of old events only the timeouts of the failure run are kept, in their number. -/
lemma plugKeep_old (h : ∀ e ∈ l, e.inWindow now = false) :
    (∀ e ∈ plugKeep now l, e.inWindow now = false ∧ e.kind = .fail) ∧
      (plugKeep now l).length = (failRun l).1 := by
  induction l using List.reverseRecOn with
  | nil => simp [plugKeep, failRun]
  | append_singleton l e ih =>
      obtain ⟨hk, hlen⟩ := ih fun x hx => h x (List.mem_append_left _ hx)
      have he : e.inWindow now = false := h e (by simp)
      have hnone : l.filter (·.inWindow now) = [] := by
        rw [List.filter_eq_nil_iff]
        intro x hx
        simp [h x (List.mem_append_left _ hx)]
      rw [plugKeep_append, failRun_snoc]
      cases hkind : e.kind with
      | plug => simpa [anyLit, plugKeep, failScan, hkind, he, hlen] using hk
      | lit => simp [anyLit, plugKeep, failScan, hkind, he, hnone]
      | fail =>
          have hkeep : plugKeep now [e] = [e] := by simp [plugKeep, hkind, anyLit]
          rw [hkeep, if_neg (by simp [anyLit, hkind])]
          refine ⟨?_, by simp [hlen, failScan, hkind]⟩
          intro x hx
          rcases List.mem_append.mp hx with hx | hx
          · exact hk x hx
          · obtain rfl := List.mem_singleton.mp hx
            exact ⟨he, hkind⟩

lemma failRun_append (l r : List PlugEvent) : (failRun (l ++ r)).1 =
    if anyLit r then (failRun r).1 else (failRun l).1 + r.countP (·.kind = .fail) := by
  induction r using List.reverseRecOn with
  | nil => simp [anyLit]
  | append_singleton r e ih =>
      rw [← List.append_assoc, failRun_snoc, failRun_snoc, anyLit_append, List.countP_append]
      cases hkind : e.kind with
      | plug => simpa [failScan, hkind, anyLit] using ih
      | lit => simp [failScan, hkind, anyLit]
      | fail =>
          have hlit : anyLit [e] = false := by simp [anyLit, hkind]
          simp only [failScan, hkind, ih, hlit, Bool.or_false, List.countP_singleton]
          split
          · rfl
          · simp only [decide_true, if_true]
            omega

/-- A failure run has a last failure. -/
lemma failRun_pos (h : 0 < (failRun l).1) :
    ∃ e ∈ l, e.kind = .fail ∧ e.t = (failRun l).2 := by
  induction l using List.reverseRecOn with
  | nil => simp [failRun] at h
  | append_singleton l e ih =>
      rw [failRun_snoc] at h ⊢
      cases hkind : e.kind with
      | fail => exact ⟨e, by simp, hkind, by simp [failScan, hkind]⟩
      | lit => simp [failScan, hkind] at h
      | plug =>
          simp only [failScan, hkind] at h ⊢
          obtain ⟨x, hx, hk, ht⟩ := ih h
          exact ⟨x, List.mem_append_left _ hx, hk, ht⟩

/-- The last failure is found in the last piece that has one. -/
lemma failRun_append_snd (l r : List PlugEvent) : (failRun (l ++ r)).2 =
    if r.any (·.kind = .fail) then (failRun r).2 else (failRun l).2 := by
  induction r using List.reverseRecOn with
  | nil => simp
  | append_singleton r e ih =>
      rw [← List.append_assoc, failRun_snoc, failRun_snoc, List.any_append]
      cases hkind : e.kind with
      | fail => simp [failScan, hkind]
      | plug => simpa [failScan, hkind] using ih
      | lit => simpa [failScan, hkind] using ih

lemma failRun_of_fails (h : ∀ e ∈ l, e.kind = .fail) : (failRun l).1 = l.length := by
  induction l using List.reverseRecOn with
  | nil => rfl
  | append_singleton l e ih =>
      rw [failRun_snoc, failScan, h e (by simp), ih fun x hx => h x (List.mem_append_left _ hx)]
      simp

lemma Chrono.split (h : Chrono l) (now : ℕ) : ∃ a b, l = a ++ b ∧
    (∀ e ∈ a, e.inWindow now = false) ∧ ∀ e ∈ b, e.inWindow now = true := by
  induction l with
  | nil => exact ⟨[], [], rfl, by simp, by simp⟩
  | cons e l ih =>
      obtain ⟨he, hl⟩ := List.pairwise_cons.mp h
      by_cases hw : e.inWindow now = true
      · refine ⟨[], e :: l, rfl, by simp, ?_⟩
        intro x hx
        rcases List.mem_cons.mp hx with rfl | hx
        · exact hw
        · exact inWindow_iff.mpr ((inWindow_iff.mp hw).trans (he x hx))
      · obtain ⟨a, b, rfl, ha, hb⟩ := ih hl
        refine ⟨e :: a, b, rfl, ?_, hb⟩
        intro x hx
        rcases List.mem_cons.mp hx with rfl | hx
        · simpa using hw
        · exact ha x hx

lemma inWindow_mono {e : PlugEvent} (hp : p ≤ now) (h : e.inWindow p = false) :
    e.inWindow now = false := by
  by_contra hc
  have hc : now - plugWindowUs ≤ e.t := inWindow_iff.mp (by simpa using hc)
  have hn : ¬p - plugWindowUs ≤ e.t := fun hle => by simp [inWindow_iff.mpr hle] at h
  omega

lemma plugKeep_sublist (now : ℕ) (l : List PlugEvent) : (plugKeep now l).Sublist l := by
  induction l with
  | nil => exact List.Sublist.refl _
  | cons e l ih =>
      rw [plugKeep]
      split
      · exact ih.cons_cons e
      · exact ih.cons e

lemma prune_sublist (shell now : ℕ) (h : PlugHistory) :
    (h.prune shell now).events.Sublist h.events := by
  unfold PlugHistory.prune
  split
  · exact List.nil_sublist _
  · dsimp only
    split
    · exact (List.drop_sublist _ _).trans (plugKeep_sublist now _)
    · exact plugKeep_sublist now _

/-- Recording an event that is not older than the last pruning. -/
lemma Retains.snoc (h : Retains p log hist) {e : PlugEvent} (he : p ≤ e.t) :
    Retains p (log ++ [e]) (hist ++ [e]) := by
  obtain ⟨old, kept, recent, rfl, rfl, ho, hk, hr, hrun⟩ := h
  refine ⟨old, kept, recent ++ [e], by simp, by simp, ho, hk, ?_, ?_⟩
  · intro x hx
    rcases List.mem_append.mp hx with hx | hx
    · exact hr x hx
    · obtain rfl := List.mem_singleton.mp hx
      exact inWindow_iff.mpr (by omega)
  · intro hlit
    rw [anyLit_append, Bool.or_eq_false_iff] at hlit
    exact hrun hlit.1

/-- Dropping what no rule looks at any more.  The kept timeouts of an hour ago are `plugKeep`
again, so their number is the failure run as before. -/
lemma Retains.keep (h : Retains p log hist) (hp : p ≤ now) (hlog : Chrono log) :
    Retains now log (plugKeep now hist) := by
  obtain ⟨old, kept, recent, rfl, rfl, ho, hk, hr, hrun⟩ := h
  have hrecent : Chrono recent := (List.pairwise_append.mp hlog).2.1
  obtain ⟨a, b, rfl, ha, hb⟩ := hrecent.split now
  have hold : ∀ e ∈ kept ++ a, e.inWindow now = false := by
    intro e he
    rcases List.mem_append.mp he with he | he
    · exact inWindow_mono hp (hk e he).1
    · exact ha e he
  obtain ⟨hkeep, hlen⟩ := plugKeep_old hold
  have hnone : (kept ++ a).filter (·.inWindow now) = [] := by
    rw [List.filter_eq_nil_iff]
    intro e he
    simp [hold e he]
  rw [← List.append_assoc kept, plugKeep_append, plugKeep_recent hb, hnone]
  refine ⟨old ++ a, _, b, by simp, rfl, ?_, ?_, hb, ?_⟩
  · intro e he
    rcases List.mem_append.mp he with he | he
    · exact inWindow_mono hp (ho e he)
    · exact ha e he
  · split
    · simp
    · exact hkeep
  · intro hlit
    rw [if_neg (by simp [hlit]), hlen, failRun_append, failRun_append,
      failRun_of_fails fun e he => (hk e he).2]
    cases hla : anyLit a with
    | true => simp
    | false =>
        have := hrun (by simp [anyLit_append, hla, hlit])
        simp only [Bool.false_eq_true, if_false]
        omega

/-- The cut to `PLUG_EVENTS_MAX` events only meets old timeouts, and leaves many. -/
lemma Retains.cut (h : Retains now log hist)
    (hc : log.countP (·.inWindow now) + manyFails ≤ plugEventsMax) :
    Retains now log (hist.drop (hist.length - plugEventsMax)) := by
  obtain ⟨old, kept, recent, rfl, rfl, ho, hk, hr, hrun⟩ := h
  have hlen : recent.length + manyFails ≤ plugEventsMax := by
    rw [List.countP_append, List.countP_eq_zero.mpr (by simpa using ho),
      List.countP_eq_length.mpr hr, Nat.zero_add] at hc
    exact hc
  simp only [plugEventsMax, manyFails] at hlen hrun ⊢
  rw [List.length_append, List.drop_append_of_le_length (by omega)]
  refine ⟨old, _, recent, rfl, rfl, ho, fun e he => hk e (List.mem_of_mem_drop he), hr, ?_⟩
  intro hlit
  have := hrun hlit
  simp only [List.length_drop, manyFails]
  omega

lemma Retains.prune {h : PlugHistory} {shell : ℕ} (hr : Retains p log h.events)
    (hs : h.shell = shell) (hp : p ≤ now) (hlog : Chrono log)
    (hc : log.countP (·.inWindow now) + manyFails ≤ plugEventsMax) :
    Retains now log (h.prune shell now).events ∧ (h.prune shell now).shell = shell := by
  unfold PlugHistory.prune
  rw [if_neg (by simp [hs])]
  refine ⟨?_, hs⟩
  have hk := hr.keep hp hlog
  dsimp only
  split
  · exact hk.cut hc
  · exact hk

/-! ## The gate reads the log -/

/-- What lies in the last hour is counted alike. -/
lemma Retains.countP (h : Retains now log hist) (kind : PlugKind) :
    (hist.countP fun e => e.kind = kind ∧ now < e.t + plugWindowUs) =
      log.countP fun e => e.kind = kind ∧ now < e.t + plugWindowUs := by
  obtain ⟨old, kept, recent, rfl, rfl, ho, hk, -⟩ := h
  have hzero : ∀ l : List PlugEvent, (∀ e ∈ l, e.inWindow now = false) →
      (l.countP fun e => e.kind = kind ∧ now < e.t + plugWindowUs) = 0 := by
    intro l hl
    rw [List.countP_eq_zero]
    intro e he hc
    have hw : e.inWindow now = true := inWindow_iff.mpr (by
      simp only [decide_eq_true_eq] at hc
      omega)
    simp [hl e he] at hw
  rw [List.countP_append, List.countP_append, hzero kept fun e he => (hk e he).1, hzero old ho]

lemma backoffDelay_le (run : ℕ) : backoffDelay run ≤ backoffMaxS * gUsecPerSec :=
  Nat.mul_le_mul_right _ (min_le_right _ _)

/-- After many failures the delay is the longest one. -/
lemma backoffDelay_of_many {run : ℕ} (h : manyFails ≤ run) :
    backoffDelay run = backoffMaxS * gUsecPerSec := by
  unfold backoffDelay
  congr 1
  apply min_eq_right
  have h5 : 5 ≤ min (run - selfhealBudget - 1) 16 := by
    simp only [manyFails, selfhealBudget] at *
    omega
  calc backoffMaxS ≤ backoffMinS <<< 5 := by decide
    _ ≤ backoffMinS <<< min (run - selfhealBudget - 1) 16 := by
        rw [Nat.shiftLeft_eq, Nat.shiftLeft_eq]
        exact Nat.mul_le_mul_left _ (Nat.pow_le_pow_right (by decide) h5)

/-- The backoff read from the history is that of the log, or both are over. -/
lemma Retains.backoff (h : Retains now log hist) (hrun : (failRun log).1 > selfhealBudget)
    (hb : (failRun hist).1 > selfhealBudget →
      (failRun hist).2 + backoffDelay (failRun hist).1 ≤ now) :
    (failRun log).2 + backoffDelay (failRun log).1 ≤ now := by
  obtain ⟨old, kept, recent, rfl, rfl, ho, hk, -, hlen⟩ := h
  have hle := backoffDelay_le (failRun (old ++ recent)).1
  by_cases hf : recent.any (·.kind = .fail) = true
  · -- the last failure is a recent one
    rw [failRun_append_snd, if_pos hf] at hb ⊢
    rw [failRun_append] at hrun hb ⊢
    rw [failRun_of_fails fun e he => (hk e he).2] at hb
    by_cases hlit : anyLit recent = true
    · rw [if_pos hlit] at hrun hb ⊢
      exact hb hrun
    · rw [if_neg hlit] at hrun hb ⊢
      rcases hlen (by simpa using hlit) with he | ⟨h1, h2⟩
      · rw [← he] at hrun ⊢
        exact hb hrun
      · rw [backoffDelay_of_many (by omega)] at hb ⊢
        apply hb
        have : selfhealBudget < manyFails := by decide
        omega
  · -- the last failure is more than an hour old
    rw [failRun_append_snd, if_neg hf]
    have hlit : anyLit recent = false := by
      by_contra hlit
      rw [failRun_append, if_pos (by simpa using hlit)] at hrun
      obtain ⟨e, he, hk, -⟩ := failRun_pos (Nat.zero_lt_of_lt hrun)
      exact hf (List.any_eq_true.mpr ⟨e, he, by simpa using hk⟩)
    have hnone : recent.countP (·.kind = .fail) = 0 := by
      rw [List.countP_eq_zero]
      intro e he hke
      exact hf (List.any_eq_true.mpr ⟨e, he, hke⟩)
    have hrun' : 0 < (failRun old).1 := by
      rw [failRun_append, if_neg (by simp [hlit]), hnone] at hrun
      exact Nat.zero_lt_of_lt hrun
    obtain ⟨e, he, -, ht⟩ := failRun_pos hrun'
    have hw : ¬now - plugWindowUs ≤ e.t := fun hc =>
      absurd (inWindow_iff.mpr hc) (by simp [ho e he])
    have : backoffMaxS * gUsecPerSec ≤ plugWindowUs := by decide
    omega

/-- **What an open gate means**, in terms of the log: the caps leave room for one more, and a
failure run past the budget has waited for its delay. -/
lemma gate_of_open {shell : ℕ} {h : PlugHistory} (hr : Retains now log (h.prune shell now).events)
    (hs : Chrono (h.prune shell now).events) (ho : (plugGate shell now h).2.verdict = .opened) :
    (log.countP fun e => e.kind = .fail ∧ now < e.t + plugWindowUs) < failsPerHour ∧
    (log.countP fun e => e.kind = .plug ∧ now < e.t + plugWindowUs) < plugsPerHour ∧
    ((failRun log).1 > selfhealBudget →
      (failRun log).2 + backoffDelay (failRun log).1 ≤ now) := by
  obtain ⟨hb, hf, hp⟩ := gateRules_opened ho
  refine ⟨?_, ?_, fun hrun => hr.backoff hrun hb⟩
  · rw [← hr.countP]
    exact countP_of_windowFreeAt (by decide) hs hf
  · rw [← hr.countP]
    exact countP_of_windowFreeAt (by decide) hs hp

end Retention

end Sremfb
