import Mathlib.Data.Nat.Notation
import Mathlib.Logic.Function.Basic
import Mathlib.Order.Basic

/-!
# Event sources and the handles that name them

A main loop holds armed sources, each with an id, a kind and the object its callback gets.  An
object keeps, for each kind, the id of the source it armed, or `0`.  The loop dispatches one source
at a time: while its callback runs the source is `current` and not armed, and what the callback
returns decides whether it is armed again.

`Sound` ties the two sides together, for a notion of the objects that are alive: an armed source
belongs to a live object that names it, so there is at most one of a kind (`Sound.unique`) and none
for an object that is gone; and a handle that is set names a source that is armed or running.  The
operations below keep it under the condition that each of them states.
-/

namespace Lib

variable {κ ι : Type*}

/-- A main loop, and the handles of the objects. -/
structure Loop (κ ι : Type*) where
  next : ℕ := 1
  armed : ℕ → Option (κ × ι) := fun _ => none
  current : Option (ℕ × κ × ι) := none
  handle : ι → κ → ℕ := fun _ _ => 0

namespace Loop

/-- The loop dispatches a source. -/
def enter (l : Loop κ ι) (id : ℕ) : Loop κ ι :=
  match l.armed id with
  | none => l
  | some (k, o) => { l with
      armed := Function.update l.armed id none
      current := some (id, k, o) }

/-- The callback returns; `again` keeps the source. -/
def leave (l : Loop κ ι) (again : Bool) : Loop κ ι :=
  match l.current with
  | none => l
  | some (id, k, o) =>
      if again then { l with armed := Function.update l.armed id (some (k, o)), current := none }
      else { l with current := none }

/-- **Soundness**, for the objects that are alive. -/
structure Sound (alive : ι → Prop) (l : Loop κ ι) : Prop where
  fresh : ∀ id, l.next ≤ id → l.armed id = none
  zero : 0 < l.next ∧ l.armed 0 = none
  running : ∀ id k o, l.current = some (id, k, o) → l.armed id = none ∧ 0 < id ∧ id < l.next
  owned : ∀ id k o, l.armed id = some (k, o) → alive o ∧ l.handle o k = id
  kept : ∀ o k, alive o → l.handle o k ≠ 0 →
    l.armed (l.handle o k) = some (k, o) ∨ l.current = some (l.handle o k, k, o)

variable {alive : ι → Prop} {l : Loop κ ι}

/-- At most one armed source of each kind for an object. -/
lemma Sound.unique (h : l.Sound alive) {id id' : ℕ} {k : κ} {o : ι}
    (hid : l.armed id = some (k, o)) (hid' : l.armed id' = some (k, o)) : id = id' :=
  (h.owned id k o hid).2.symm.trans (h.owned id' k o hid').2

/-- An object without a handle has no armed source. -/
lemma Sound.not_armed (h : l.Sound alive) {o : ι} {k : κ} (hz : l.handle o k = 0) (id : ℕ) :
    l.armed id ≠ some (k, o) := by
  intro hid
  obtain ⟨-, heq⟩ := h.owned id k o hid
  rw [hz] at heq
  rw [← heq, h.zero.2] at hid
  cases hid

lemma handle_enter (l : Loop κ ι) (id : ℕ) : (l.enter id).handle = l.handle := by
  unfold Loop.enter
  split <;> rfl

lemma handle_leave (l : Loop κ ι) (again : Bool) : (l.leave again).handle = l.handle := by
  unfold Loop.leave
  split
  · rfl
  · split <;> rfl

/-- A dispatch, when none is running. -/
lemma Sound.enter (h : l.Sound alive) (hc : l.current = none) (id : ℕ) :
    (l.enter id).Sound alive := by
  unfold Loop.enter
  split
  · exact h
  rename_i k o hid
  have hpos : id ≠ 0 := by
    intro he
    rw [he, h.zero.2] at hid
    cases hid
  have hlt : id < l.next := by
    by_contra hge
    rw [h.fresh id (by omega)] at hid
    cases hid
  have hnone : ∀ i, l.armed i = none → Function.update l.armed id none i = none := by
    intro i hi
    by_cases he : i = id
    · rw [he]
      exact Function.update_self ..
    · exact (Function.update_of_ne he ..).trans hi
  refine ⟨fun i hi => hnone i (h.fresh i hi), ⟨h.zero.1, hnone 0 h.zero.2⟩, fun i k' o' hr => ?_,
    fun i k' o' hi => ?_, fun o' k' ho' hne => ?_⟩
  · obtain ⟨rfl, -⟩ := Prod.mk.inj (Option.some.inj hr)
    exact ⟨Function.update_self id none l.armed, by omega, hlt⟩
  · by_cases he : i = id
    · rw [he] at hi
      have hi' := (Function.update_self id none l.armed).symm.trans hi
      cases hi'
    · exact h.owned i k' o' ((Function.update_of_ne he ..).symm.trans hi)
  · rcases h.kept o' k' ho' hne with ha | hr
    · by_cases he : l.handle o' k' = id
      · rw [he, hid] at ha
        obtain ⟨rfl, rfl⟩ := Prod.mk.inj (Option.some.inj ha)
        refine .inr ?_
        dsimp only
        rw [he]
      · exact .inl ((Function.update_of_ne he ..).trans ha)
    · rw [hc] at hr
      cases hr

/-- The end of a callback: it keeps its source exactly if its object still names it. -/
lemma Sound.leave (h : l.Sound alive) {again : Bool}
    (ha : ∀ id k o, l.current = some (id, k, o) → (again = true ↔ alive o ∧ l.handle o k = id)) :
    (l.leave again).Sound alive ∧ (l.leave again).current = none := by
  unfold Loop.leave
  cases hc : l.current with
  | none => exact ⟨h, hc⟩
  | some s =>
      obtain ⟨id, k, o⟩ := s
      obtain ⟨hnone, hpos, hlt⟩ := h.running id k o hc
      have hkeep := ha id k o hc
      cases again with
      | false =>
          refine ⟨⟨h.fresh, h.zero, fun _ _ _ hr => absurd hr (by simp), h.owned,
            fun o' k' ho' hne => ?_⟩, rfl⟩
          rcases h.kept o' k' ho' hne with hka | hr
          · exact .inl hka
          · rw [hc] at hr
            obtain ⟨hid, hko⟩ := Prod.mk.inj (Option.some.inj hr)
            obtain ⟨rfl, rfl⟩ := Prod.mk.inj hko
            exact absurd (hkeep.mpr ⟨ho', hid.symm⟩) (by decide)
      | true =>
          obtain ⟨ho, hname⟩ := hkeep.mp rfl
          refine ⟨⟨fun i hi => ?_, ⟨h.zero.1, ?_⟩, fun _ _ _ hr => absurd hr (by simp),
            fun i k' o' hi => ?_, fun o' k' ho' hne => ?_⟩, rfl⟩
          · have hi' : l.next ≤ i := hi
            exact (Function.update_of_ne (by omega) ..).trans (h.fresh i hi)
          · exact (Function.update_of_ne (by omega) ..).trans h.zero.2
          · by_cases he : i = id
            · have hi' : some (k, o) = some (k', o') := by
                rw [← hi, he]
                exact (Function.update_self id (some (k, o)) l.armed).symm
              obtain ⟨rfl, rfl⟩ := Prod.mk.inj (Option.some.inj hi')
              exact ⟨ho, hname.trans he.symm⟩
            · exact h.owned i k' o' ((Function.update_of_ne he ..).symm.trans hi)
          · refine .inl ?_
            rcases h.kept o' k' ho' hne with hka | hr
            · by_cases he : l.handle o' k' = id
              · rw [he, hnone] at hka
                cases hka
              · exact (Function.update_of_ne he ..).trans hka
            · rw [hc] at hr
              obtain ⟨hid, hko⟩ := Prod.mk.inj (Option.some.inj hr)
              obtain ⟨rfl, rfl⟩ := Prod.mk.inj hko
              change Function.update l.armed id _ (l.handle _ _) = _
              rw [← hid]
              exact Function.update_self ..

/-- Objects come and go without a handle. -/
lemma Sound.alive_congr {alive' : ι → Prop} (h : l.Sound alive)
    (hz : ∀ o, (alive o ↔ alive' o) ∨ ∀ k, l.handle o k = 0) : l.Sound alive' := by
  refine ⟨h.fresh, h.zero, h.running, fun id k o hid => ?_, fun o k ho hne => ?_⟩
  · obtain ⟨ho, heq⟩ := h.owned id k o hid
    refine ⟨?_, heq⟩
    rcases hz o with hiff | hzero
    · exact hiff.mp ho
    · exact absurd hid (h.not_armed (hzero k) id)
  · rcases hz o with hiff | hzero
    · exact h.kept o k (hiff.mpr ho) hne
    · exact absurd (hzero k) hne

variable [DecidableEq κ] [DecidableEq ι]

/-- The object `o` notes `id` as its handle of the kind `k`. -/
def setHandle (l : Loop κ ι) (o : ι) (k : κ) (id : ℕ) : Loop κ ι :=
  { l with handle := fun o' k' => if o' = o ∧ k' = k then id else l.handle o' k' }

/-- A new source, noted by its object. -/
def arm (l : Loop κ ι) (o : ι) (k : κ) : Loop κ ι :=
  { l with
    next := l.next + 1
    armed := Function.update l.armed l.next (some (k, o)) }.setHandle o k l.next

/-- The source that the handle names is removed, also if it is running, and the handle cleared. -/
def clear (l : Loop κ ι) (o : ι) (k : κ) : Loop κ ι :=
  if l.handle o k = 0 then l
  else { l with
    armed := Function.update l.armed (l.handle o k) none
    current := l.current.filter fun s => s.1 ≠ l.handle o k }.setHandle o k 0

/-- The handle is cleared and the source left alone. -/
def forget (l : Loop κ ι) (o : ι) (k : κ) : Loop κ ι := l.setHandle o k 0

lemma handle_setHandle_self (l : Loop κ ι) (o : ι) (k : κ) (id : ℕ) :
    (l.setHandle o k id).handle o k = id := if_pos ⟨rfl, rfl⟩

lemma handle_setHandle_of_ne (l : Loop κ ι) {o o' : ι} {k k' : κ} (id : ℕ)
    (h : ¬(o' = o ∧ k' = k)) : (l.setHandle o k id).handle o' k' = l.handle o' k' := if_neg h

lemma handle_arm (l : Loop κ ι) (o o' : ι) (k k' : κ) :
    (l.arm o k).handle o' k' = if o' = o ∧ k' = k then l.next else l.handle o' k' := rfl

lemma handle_forget (l : Loop κ ι) (o o' : ι) (k k' : κ) :
    (l.forget o k).handle o' k' = if o' = o ∧ k' = k then 0 else l.handle o' k' := rfl

lemma handle_clear (l : Loop κ ι) (o o' : ι) (k k' : κ) :
    (l.clear o k).handle o' k' = if o' = o ∧ k' = k then 0 else l.handle o' k' := by
  unfold Loop.clear
  split
  · rename_i hz
    split
    · rename_i he
      rw [he.1, he.2, hz]
    · rfl
  · rfl

lemma current_clear (l : Loop κ ι) (o : ι) (k : κ) :
    (l.clear o k).current = l.current ∨ (l.clear o k).current = none := by
  unfold Loop.clear
  split
  · exact .inl rfl
  · cases hc : l.current with
    | none => exact .inr (by simp [setHandle])
    | some s =>
        by_cases he : s.1 = l.handle o k
        · exact .inr (by simp [setHandle, Option.filter, he])
        · exact .inl (by simp [setHandle, Option.filter, he])

lemma next_clear (l : Loop κ ι) (o : ι) (k : κ) : (l.clear o k).next = l.next := by
  unfold Loop.clear
  split <;> rfl

/-- A live object arms a source of a kind it has none of. -/
lemma Sound.arm (h : l.Sound alive) {o : ι} {k : κ} (ho : alive o) (hz : l.handle o k = 0) :
    (l.arm o k).Sound alive := by
  have hnext := h.fresh l.next (Nat.le_refl _)
  refine ⟨fun id hid => ?_, ⟨Nat.succ_pos _, ?_⟩, fun id k' o' hc => ?_, fun id k' o' hid => ?_,
    fun o' k' ho' hne => ?_⟩
  · have hlt : l.next + 1 ≤ id := hid
    exact (Function.update_of_ne (by omega) ..).trans (h.fresh id (by omega))
  · have hpos := h.zero.1
    exact (Function.update_of_ne (by omega) ..).trans h.zero.2
  · obtain ⟨hnone, hpos, hlt⟩ := h.running id k' o' hc
    refine ⟨(Function.update_of_ne (by omega) ..).trans hnone, hpos, ?_⟩
    exact Nat.lt_succ_of_lt hlt
  · by_cases he : id = l.next
    · have hid' : some (k, o) = some (k', o') := by
        rw [← hid, he]
        exact (Function.update_self l.next (some (k, o)) l.armed).symm
      obtain ⟨rfl, rfl⟩ := Prod.mk.inj (Option.some.inj hid')
      exact ⟨ho, (handle_setHandle_self _ _ _ _).trans he.symm⟩
    · have hid' : l.armed id = some (k', o') := (Function.update_of_ne he ..).symm.trans hid
      obtain ⟨ho', heq⟩ := h.owned id k' o' hid'
      refine ⟨ho', (handle_setHandle_of_ne _ _ ?_).trans heq⟩
      rintro ⟨rfl, rfl⟩
      exact h.not_armed hz id hid'
  · by_cases he : o' = o ∧ k' = k
    · obtain ⟨rfl, rfl⟩ := he
      have hself : (l.arm o' k').handle o' k' = l.next := handle_setHandle_self _ _ _ _
      rw [hself]
      exact .inl (Function.update_self ..)
    · have hother : (l.arm o k).handle o' k' = l.handle o' k' := handle_setHandle_of_ne _ _ he
      rw [hother] at hne ⊢
      rcases h.kept o' k' ho' hne with ha | hc
      · refine .inl ((Function.update_of_ne ?_ ..).trans ha)
        intro hid
        rw [hid, hnext] at ha
        cases ha
      · exact .inr hc

/-- Clearing a handle removes its source. -/
lemma Sound.clear (h : l.Sound alive) (o : ι) (ho : alive o) (k : κ) :
    (l.clear o k).Sound alive := by
  unfold Loop.clear
  split
  · exact h
  rename_i hne
  -- nobody else names the source
  have huniq : ∀ o' k', alive o' → l.handle o' k' = l.handle o k → o' = o ∧ k' = k := by
    intro o' k' ho' heq
    have hne' : l.handle o' k' ≠ 0 := heq.symm ▸ hne
    rcases h.kept o k ho hne with ha | hc
    · rcases h.kept o' k' ho' hne' with ha' | hc'
      · rw [heq, ha] at ha'
        obtain ⟨rfl, rfl⟩ := Prod.mk.inj (Option.some.inj ha')
        exact ⟨rfl, rfl⟩
      · rw [← heq, (h.running _ _ _ hc').1] at ha
        cases ha
    · rcases h.kept o' k' ho' hne' with ha' | hc'
      · rw [heq, (h.running _ _ _ hc).1] at ha'
        cases ha'
      · rw [hc] at hc'
        obtain ⟨-, hko⟩ := Prod.mk.inj (Option.some.inj hc')
        obtain ⟨rfl, rfl⟩ := Prod.mk.inj hko
        exact ⟨rfl, rfl⟩
  have harmed : ∀ id s, Function.update l.armed (l.handle o k) none id = some s →
      id ≠ l.handle o k ∧ l.armed id = some s := by
    intro id s hid
    by_cases he : id = l.handle o k
    · rw [he, Function.update_self] at hid
      cases hid
    · exact ⟨he, (Function.update_of_ne he ..).symm.trans hid⟩
  have hnone : ∀ id, l.armed id = none →
      Function.update l.armed (l.handle o k) none id = none := by
    intro id hid
    by_cases he : id = l.handle o k
    · rw [he]
      exact Function.update_self ..
    · exact (Function.update_of_ne he ..).trans hid
  refine ⟨fun id hid => hnone id (h.fresh id hid), ⟨h.zero.1, hnone 0 h.zero.2⟩,
    fun id k' o' hc => ?_, fun id k' o' hid => ?_, fun o' k' ho' hne' => ?_⟩
  · obtain ⟨hc', -⟩ := Option.filter_eq_some_iff.mp hc
    obtain ⟨hn, hpos, hlt⟩ := h.running id k' o' hc'
    exact ⟨hnone id hn, hpos, hlt⟩
  · obtain ⟨hid₁, hid₂⟩ := harmed id _ hid
    obtain ⟨ho', heq⟩ := h.owned id k' o' hid₂
    refine ⟨ho', (handle_setHandle_of_ne _ _ ?_).trans heq⟩
    rintro ⟨rfl, rfl⟩
    exact hid₁ heq.symm
  · by_cases he : o' = o ∧ k' = k
    · obtain ⟨rfl, rfl⟩ := he
      exact absurd (handle_setHandle_self _ _ _ _) hne'
    · rw [handle_setHandle_of_ne _ _ he] at hne' ⊢
      have hother : l.handle o' k' ≠ l.handle o k := fun heq => he (huniq o' k' ho' heq)
      rcases h.kept o' k' ho' hne' with ha | hc
      · exact .inl ((Function.update_of_ne hother ..).trans ha)
      · refine .inr (Option.filter_eq_some_iff.mpr ⟨hc, ?_⟩)
        simpa using hother

/-- The callback that runs takes note that its source will go. -/
lemma Sound.forget (h : l.Sound alive) {o : ι} {k : κ}
    (hc : l.current = some (l.handle o k, k, o)) : (l.forget o k).Sound alive := by
  obtain ⟨hnone, -, -⟩ := h.running _ _ _ hc
  refine ⟨h.fresh, h.zero, h.running, fun id k' o' hid => ?_, fun o' k' ho' hne => ?_⟩
  · obtain ⟨ho', heq⟩ := h.owned id k' o' hid
    refine ⟨ho', (handle_setHandle_of_ne _ _ ?_).trans heq⟩
    rintro ⟨rfl, rfl⟩
    have hid' : l.armed id = some (k', o') := hid
    rw [← heq, hnone] at hid'
    cases hid'
  · by_cases he : o' = o ∧ k' = k
    · obtain ⟨rfl, rfl⟩ := he
      exact absurd (handle_setHandle_self _ _ _ _) hne
    · have hother : (l.forget o k).handle o' k' = l.handle o' k' := handle_setHandle_of_ne _ _ he
      rw [hother] at hne ⊢
      exact h.kept o' k' ho' hne

end Loop

end Lib
