import Sremfb.Lib.Run

/-!
# A doorbell between two threads

A producer changes shared work in critical sections and then rings: it exchanges a flag for `true`,
and posts an event only if the flag was down.  A consumer sleeps on its queue of events; once it has
an event it lowers the flag and then, in a critical section, takes all the work there is.  The flag
is what keeps the queue short, and the order of the last two steps is what keeps it honest: a change
that comes between them rings again.

Every step is atomic and the two threads interleave in any way.  The invariant is a count: the flag
is up exactly when one event is somewhere, with the producer that posts it, in the queue, or with
the consumer that has popped it (`Sound.one`).  So a consumer that sleeps with an empty queue, next
to a producer that has rung, has taken all the work (`Sound.fresh_of_asleep`).

A queue can refuse an event.  The producer then lowers the flag again, so the next ring makes up for
it; until then the wake-up is lost, which the ghost `lost` remembers.
-/

namespace Lib

/-- Where the producer is. -/
inductive Ringer
  /-- Nothing has changed since it rang. -/
  | quiet
  /-- Something has changed, and it is yet to ring. -/
  | due
  /-- It has raised the flag, and is yet to post the event. -/
  | posting
  /-- The queue refused the event, and the flag is yet to be lowered. -/
  | refused
  deriving DecidableEq

/-- The events a producer has in hand. -/
@[simp] def Ringer.carries : Ringer → ℕ
  | .quiet | .due => 0
  | .posting | .refused => 1

/-- Where the consumer is. -/
inductive Answerer
  /-- Asleep, or about to ask the queue. -/
  | asleep
  /-- It has popped an event. -/
  | called
  /-- It has lowered the flag, and is yet to take the work. -/
  | lowered
  deriving DecidableEq

/-- The events a consumer has in hand. -/
@[simp] def Answerer.carries : Answerer → ℕ
  | .asleep | .lowered => 0
  | .called => 1

/-- The two threads and what they share. -/
structure Doorbell (σ : Type*) where
  work : σ
  flag : Bool := false
  /-- The events in the queue. -/
  queue : ℕ := 0
  ringer : Ringer := .quiet
  answerer : Answerer := .asleep
  /-- Ghost: the last event was refused, and nothing has made up for it. -/
  lost : Bool := false

namespace Doorbell

variable {σ ι κ α : Type*}

/-- The atomic steps. -/
inductive Act (ι κ α : Type*)
  /-- A critical section of the producer. -/
  | change (i : ι)
  /-- The exchange of the flag. -/
  | ring
  | post (taken : Bool)
  /-- The flag is lowered after a refusal. -/
  | giveUp
  | pop
  /-- The consumer lowers the flag. -/
  | lower
  /-- The critical section of the consumer. -/
  | take (k : κ)
  /-- What the consumer does while it has no event, with what it took before. -/
  | aside (a : α)

/-- What the critical sections, and the consumer by itself, do to the work. -/
structure Parts (σ ι κ α : Type*) where
  change : σ → ι → σ
  take : σ → κ → σ
  aside : σ → α → σ

/-- One step; a thread that is elsewhere does nothing. -/
def step (p : Parts σ ι κ α) (d : Doorbell σ) : Act ι κ α → Doorbell σ
  | .change i =>
      if d.ringer = .quiet ∨ d.ringer = .due then
        { d with work := p.change d.work i, ringer := .due }
      else d
  | .ring =>
      if d.ringer = .due then
        { d with flag := true, ringer := if d.flag then .quiet else .posting }
      else d
  | .post taken =>
      if d.ringer = .posting then
        if taken then { d with queue := d.queue + 1, ringer := .quiet, lost := false }
        else { d with ringer := .refused }
      else d
  | .giveUp =>
      if d.ringer = .refused then { d with flag := false, ringer := .quiet, lost := true } else d
  | .pop =>
      if d.answerer = .asleep ∧ 0 < d.queue then
        { d with queue := d.queue - 1, answerer := .called }
      else d
  | .lower => if d.answerer = .called then { d with flag := false, answerer := .lowered } else d
  | .take k =>
      if d.answerer = .lowered then
        { d with work := p.take d.work k, answerer := .asleep, lost := false }
      else d
  | .aside a => if d.answerer = .asleep then { d with work := p.aside d.work a } else d

/-- The events on their way: with the producer, in the queue, with the consumer. -/
def events (d : Doorbell σ) : ℕ := d.ringer.carries + d.queue + d.answerer.carries

/-- **The invariant.**  One event when the flag is up, none when it is down; and work that was not
taken has someone who knows of it. -/
structure Sound (J Fresh : σ → Prop) (d : Doorbell σ) : Prop where
  one : d.events = d.flag.toNat
  known : Fresh d.work ∨ d.flag = true ∨ d.ringer = .due ∨ d.answerer = .lowered ∨ d.lost = true
  work : J d.work

/-- What is asked of the critical sections: `J` is what they all keep, `Fresh` is what the consumer's
brings about. -/
structure Keeps (p : Parts σ ι κ α) (ok : σ → ι → Prop) (J Fresh : σ → Prop) : Prop where
  change : ∀ s i, ok s i → J s → J (p.change s i)
  take : ∀ s k, J s → J (p.take s k) ∧ Fresh (p.take s k)
  aside : ∀ s a, J s → J (p.aside s a) ∧ (Fresh s → Fresh (p.aside s a))

/-- The condition on the work, as one on the steps. -/
def Allowed (ok : σ → ι → Prop) (d : Doorbell σ) : Act ι κ α → Prop
  | .change i => ok d.work i
  | _ => True

variable {p : Parts σ ι κ α} {ok : σ → ι → Prop} {J Fresh : σ → Prop} {d : Doorbell σ}

lemma sound_start {s : σ} (hj : J s) (hf : Fresh s) : Sound J Fresh { work := s } where
  one := rfl
  known := .inl hf
  work := hj

/-- **No lost wake-up.**  A consumer that sleeps on an empty queue has taken all the work of a
producer that has rung. -/
lemma Sound.fresh_of_asleep (h : d.Sound J Fresh) (hquiet : d.ringer = .quiet)
    (hasleep : d.answerer = .asleep) (hqueue : d.queue = 0) (hlost : d.lost = false) :
    Fresh d.work := by
  have hone := h.one
  rw [events, hquiet, hasleep, hqueue] at hone
  obtain hfresh | hflag | hdue | hlowered | hlost' := h.known
  · exact hfresh
  · rw [hflag] at hone
    cases hone
  · rw [hquiet] at hdue
    cases hdue
  · rw [hasleep] at hlowered
    cases hlowered
  · rw [hlost] at hlost'
    cases hlost'

/-- An event changes hands, or comes and goes with the flag. -/
lemma events_step (hone : d.events = d.flag.toNat) (a : Act ι κ α) :
    (d.step p a).events = (d.step p a).flag.toNat := by
  unfold events at hone ⊢
  cases a with
  | change i =>
      simp only [Doorbell.step]
      split <;> rename_i hat
      · rw [← hone]
        obtain hat | hat := hat
        · rw [hat]
          rfl
        · rw [hat]
      · exact hone
  | ring =>
      simp only [Doorbell.step]
      split <;> rename_i hat
      · rw [hat] at hone
        cases hflag : d.flag <;> rw [hflag] at hone <;> simp at hone ⊢ <;> omega
      · exact hone
  | post taken =>
      simp only [Doorbell.step]
      split <;> rename_i hat
      · rw [hat] at hone
        cases taken <;> simp at hone ⊢ <;> omega
      · exact hone
  | giveUp =>
      simp only [Doorbell.step]
      split <;> rename_i hat
      · have hflag : d.flag.toNat ≤ 1 := d.flag.toNat_le
        rw [hat] at hone
        simp at hone ⊢
        omega
      · exact hone
  | pop =>
      simp only [Doorbell.step]
      split <;> rename_i hat
      · rw [hat.1] at hone
        simp at hone ⊢
        omega
      · exact hone
  | lower =>
      simp only [Doorbell.step]
      split <;> rename_i hat
      · have hflag : d.flag.toNat ≤ 1 := d.flag.toNat_le
        rw [hat] at hone
        simp at hone ⊢
        omega
      · exact hone
  | take k =>
      simp only [Doorbell.step]
      split <;> rename_i hat
      · rw [hat] at hone
        exact hone
      · exact hone
  | aside a =>
      simp only [Doorbell.step]
      split <;> exact hone

/-- A flag that is up stays known until the work is taken: whoever lowers it takes the work next, or
remembers the loss. -/
lemma Sound.step (h : d.Sound J Fresh) (hp : Keeps p ok J Fresh) (a : Act ι κ α)
    (ha : Allowed ok d a) : (d.step p a).Sound J Fresh := by
  have hone := events_step (p := p) h.one a
  obtain ⟨hold, hknown, hwork⟩ := h
  cases a with
  | change i =>
      refine ⟨hone, ?_, ?_⟩ <;> simp only [Doorbell.step] <;> split
      · exact .inr (.inr (.inl rfl))
      · exact hknown
      · exact hp.change d.work i ha hwork
      · exact hwork
  | ring =>
      refine ⟨hone, ?_, ?_⟩ <;> simp only [Doorbell.step] <;> split
      · exact .inr (.inl rfl)
      · exact hknown
      · exact hwork
      · exact hwork
  | post taken =>
      refine ⟨hone, ?_, ?_⟩ <;> simp only [Doorbell.step] <;> split
      · -- the producer has the event in hand: the flag is up
        rename_i hat
        have hup : d.flag = true := by
          cases hflag : d.flag with
          | false =>
              rw [events, hat, hflag] at hold
              simp at hold
          | true => rfl
        cases taken <;> exact .inr (.inl hup)
      · exact hknown
      · cases taken <;> exact hwork
      · exact hwork
  | giveUp =>
      refine ⟨hone, ?_, ?_⟩ <;> simp only [Doorbell.step] <;> split
      · exact .inr (.inr (.inr (.inr rfl)))
      · exact hknown
      · exact hwork
      · exact hwork
  | pop =>
      refine ⟨hone, ?_, ?_⟩ <;> simp only [Doorbell.step] <;> split
      · rename_i hat
        obtain hfresh | hflag | hdue | hlowered | hlost := hknown
        · exact .inl hfresh
        · exact .inr (.inl hflag)
        · exact .inr (.inr (.inl hdue))
        · rw [hat.1] at hlowered
          cases hlowered
        · exact .inr (.inr (.inr (.inr hlost)))
      · exact hknown
      · exact hwork
      · exact hwork
  | lower =>
      refine ⟨hone, ?_, ?_⟩ <;> simp only [Doorbell.step] <;> split
      · exact .inr (.inr (.inr (.inl rfl)))
      · exact hknown
      · exact hwork
      · exact hwork
  | take k =>
      obtain ⟨hj, hfresh⟩ := hp.take d.work k hwork
      refine ⟨hone, ?_, ?_⟩ <;> simp only [Doorbell.step] <;> split
      · exact .inl hfresh
      · exact hknown
      · exact hj
      · exact hwork
  | aside a =>
      obtain ⟨hj, hkeep⟩ := hp.aside d.work a hwork
      refine ⟨hone, ?_, ?_⟩ <;> simp only [Doorbell.step] <;> split
      · exact hknown.imp_left hkeep
      · exact hknown
      · exact hj
      · exact hwork

/-- The invariant of every run. -/
lemma Sound.run (h : d.Sound J Fresh) (hp : Keeps p ok J Fresh) {as : List (Act ι κ α)}
    (has : Along (Allowed ok) (Doorbell.step p) d as) :
    (Lib.run (Doorbell.step p) d as).Sound J Fresh :=
  run_invariant (fun _ a ha hd => hd.step hp a ha) h has

/-- The producer finishes its ring, and the consumer goes round twice. -/
def settling (k : κ) : List (Act ι κ α) :=
  [.ring, .post true, .lower, .take k, .pop, .lower, .take k]

/-- **It comes to rest.**  Unless an event was refused, two rounds of the consumer leave it asleep
with all the work taken, whatever had happened before. -/
lemma Sound.settles (h : d.Sound J Fresh) (hp : Keeps p ok J Fresh) (k : κ)
    (hrefused : d.ringer ≠ .refused) (hlost : d.lost = false) :
    let d' := Lib.run (Doorbell.step p) d (settling k)
    d'.ringer = .quiet ∧ d'.answerer = .asleep ∧ d'.queue = 0 ∧ Fresh d'.work := by
  intro d'
  have hsound : d'.Sound J Fresh := h.run hp (by
    unfold settling
    exact ⟨trivial, trivial, trivial, trivial, trivial, trivial, trivial, trivial⟩)
  obtain ⟨hq, ha, hempty, hl⟩ : d'.ringer = .quiet ∧ d'.answerer = .asleep ∧ d'.queue = 0 ∧
      d'.lost = false := by
    have hone := h.one
    obtain ⟨work, flag, queue, ringer, answerer, lost⟩ := d
    unfold events at hone
    dsimp only at hone hrefused hlost
    subst hlost
    have hqueue : queue = 0 ∨ queue = 1 := by
      have := flag.toNat_le
      omega
    cases ringer <;> cases answerer <;> cases flag <;> obtain rfl | rfl := hqueue <;>
      simp [d', settling, Doorbell.step] at hone hrefused ⊢
  exact ⟨hq, ha, hempty, hsound.fresh_of_asleep hq ha hempty hl⟩

end Doorbell

end Lib
