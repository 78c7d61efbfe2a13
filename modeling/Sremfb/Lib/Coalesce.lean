import Sremfb.Lib.Run

/-!
# Coalesced reads of a remote state

A client keeps what it has made of a remote state, and reads it anew whenever it is told that the
state has changed or has a reason of its own.  One read is under way at a time: a reason that comes
meanwhile sets `again`, and the read is repeated once it has ended, well or badly.  A client that
wants nothing does not read at all.

Announcements and replies come in any order and at any time; the remote side may change between its
answer and the reply.  The invariant `Sound` says that what is not seen yet will be: an
announcement is on its way, or a read is under way that will see it or be repeated.  So with
nothing on its way the client has seen the state as it is (`Sound.settled`), unless its last read
failed.
-/

namespace Lib

/-- A read that is under way. -/
inductive Inquiry (S : Type*)
  | asked
  /-- The remote side has answered with its state of that moment. -/
  | answered (s : S)
  deriving DecidableEq

/-- The remote state, and a client that reads it. -/
structure Reader (S C : Type*) where
  truth : S
  /-- Announcements on their way. -/
  signals : ℕ := 0
  call : Option (Inquiry S) := none
  again : Bool := false
  client : C
  /-- Ghost: the last read failed, or there was none, and no other is under way. -/
  failed : Bool := true

namespace Reader

variable {S C π α : Type*}

/-- What the client does. -/
structure Use (S C π α : Type*) where
  wants : C → Bool
  /-- What it makes of a reply. -/
  take : C → S → C
  /-- What changes with a reason of its own to read, if there is one. -/
  poke : C → π → Option C
  /-- What it does without reading. -/
  aside : C → α → C

inductive Act (S π α : Type*)
  /-- The remote state changes, which is announced. -/
  | change (s : S)
  | answer
  /-- An announcement arrives. -/
  | signal
  | reply
  /-- The read ends without a reply. -/
  | fail
  | poke (p : π)
  | aside (a : α)

variable (u : Use S C π α)

/-- A reason to read. -/
def ask (r : Reader S C) : Reader S C :=
  if u.wants r.client then
    if r.call.isSome then { r with again := true }
    else { r with call := some .asked, failed := false }
  else r

/-- The end of a read. -/
def finish (r : Reader S C) : Reader S C :=
  let r := { r with call := none }
  if r.again then ask u { r with again := false } else r

def step (r : Reader S C) : Act S π α → Reader S C
  | .change s => { r with truth := s, signals := r.signals + 1 }
  | .answer =>
      match r.call with
      | some .asked => { r with call := some (.answered r.truth) }
      | _ => r
  | .signal => if 0 < r.signals then ask u { r with signals := r.signals - 1 } else r
  | .reply =>
      match r.call with
      | some (.answered s) => finish u { r with client := u.take r.client s }
      | _ => r
  | .fail => if r.call.isSome then finish u { r with failed := true } else r
  | .poke p =>
      match u.poke r.client p with
      | none => r
      | some c => ask u { r with client := c }
  | .aside a => { r with client := u.aside r.client a }

variable {u} {Seen : C → S → Prop} {J : C → Prop} {r : Reader S C}

/-- What is asked of the client: `J` is what it keeps, `Seen` what a reply brings about. -/
structure Keeps (u : Use S C π α) (J : C → Prop) (Seen : C → S → Prop) : Prop where
  take : ∀ c s, J c → J (u.take c s) ∧ Seen (u.take c s) s
  poke : ∀ c p c', J c → u.poke c p = some c' → J c'
  aside : ∀ c a, J c → J (u.aside c a) ∧ ∀ s, Seen c s → Seen (u.aside c a) s
  /-- A client that wants nothing has seen everything, and keeps wanting nothing by itself. -/
  idle : ∀ c, u.wants c = false → (∀ s, Seen c s) ∧ (∀ s, u.wants (u.take c s) = false) ∧
    ∀ a, u.wants (u.aside c a) = false

/-- **The invariant.** -/
structure Sound (u : Use S C π α) (J : C → Prop) (Seen : C → S → Prop) (r : Reader S C) :
    Prop where
  client : J r.client
  /-- A read is repeated only after one that is under way. -/
  one : r.again = true → r.call.isSome = true
  /-- An answer that is no longer true is followed by something. -/
  late : ∀ s, r.call = some (.answered s) →
    s = r.truth ∨ 0 < r.signals ∨ r.again = true ∨ u.wants r.client = false
  known : Seen r.client r.truth ∨ 0 < r.signals ∨ r.again = true ∨ r.call = some .asked ∨
    r.call = some (.answered r.truth) ∨ r.failed = true

lemma sound_start {s : S} {c : C} (h : J c) : Sound u J Seen { truth := s, client := c } where
  client := h
  one := fun h => by cases h
  late := fun s h => by cases h
  known := .inr (.inr (.inr (.inr (.inr rfl))))

/-- **Nothing on its way, nothing missed.** -/
lemma Sound.settled (h : r.Sound u J Seen) (hsignals : r.signals = 0) (hcall : r.call = none)
    (hfailed : r.failed = false) : Seen r.client r.truth := by
  have hagain : r.again ≠ true := by
    intro hyes
    have := h.one hyes
    rw [hcall] at this
    cases this
  obtain hseen | hs | ha | hc | hc | hf := h.known
  · exact hseen
  · omega
  · exact absurd ha hagain
  · rw [hcall] at hc
    cases hc
  · rw [hcall] at hc
    cases hc
  · rw [hfailed] at hf
    cases hf

/-- **What a step does to the client**: nothing, or what its part of the use says. -/
lemma client_step (u : Use S C π α) (r : Reader S C) (a : Act S π α) :
    (r.step u a).client = r.client ∨
      (∃ s, a = .reply ∧ r.call = some (.answered s) ∧
        (r.step u a).client = u.take r.client s) ∨
      (∃ p c, a = .poke p ∧ u.poke r.client p = some c ∧ (r.step u a).client = c) ∨
      ∃ x, a = .aside x ∧ (r.step u a).client = u.aside r.client x := by
  have hask : ∀ r : Reader S C, (ask u r).client = r.client := by
    intro r
    unfold ask
    split
    · split <;> rfl
    · rfl
  have hfinish : ∀ r : Reader S C, (finish u r).client = r.client := by
    intro r
    unfold finish
    dsimp only
    split
    · exact hask _
    · rfl
  cases a with
  | change s => exact .inl rfl
  | answer =>
      unfold Reader.step
      dsimp only
      split <;> exact .inl rfl
  | signal =>
      unfold Reader.step
      dsimp only
      split
      · exact .inl (hask _)
      · exact .inl rfl
  | reply =>
      unfold Reader.step
      dsimp only
      split
      · rename_i s hanswered
        exact .inr (.inl ⟨s, rfl, hanswered, hfinish _⟩)
      · exact .inl rfl
  | fail =>
      unfold Reader.step
      dsimp only
      split
      · exact .inl (hfinish _)
      · exact .inl rfl
  | poke p =>
      unfold Reader.step
      dsimp only
      split
      · exact .inl rfl
      · rename_i c hpoke
        exact .inr (.inr (.inl ⟨p, c, rfl, hpoke, hask _⟩))
  | aside x => exact .inr (.inr (.inr ⟨x, rfl, rfl⟩))

/-- A reason to read makes up for everything. -/
lemma sound_ask (hu : Keeps u J Seen) (hclient : J r.client)
    (hone : r.again = true → r.call.isSome = true) : (ask u r).Sound u J Seen := by
  unfold ask
  by_cases hwants : u.wants r.client = true
  · rw [if_pos hwants]
    by_cases hcall : r.call.isSome = true
    · rw [if_pos hcall]
      exact ⟨hclient, fun _ => hcall, fun s _ => .inr (.inr (.inl rfl)), .inr (.inr (.inl rfl))⟩
    · rw [if_neg hcall]
      refine ⟨hclient, fun _ => rfl, fun s h => ?_, .inr (.inr (.inr (.inl rfl)))⟩
      cases Option.some.inj h
  · rw [if_neg hwants]
    have hidle : u.wants r.client = false := by simpa using hwants
    exact ⟨hclient, hone, fun s _ => .inr (.inr (.inr hidle)), .inl ((hu.idle _ hidle).1 _)⟩

/-- A read ends: it is repeated, or its end has made up for everything. -/
lemma sound_finish (hu : Keeps u J Seen) (hclient : J r.client)
    (hknown : r.again = false → Seen r.client r.truth ∨ 0 < r.signals ∨ r.failed = true) :
    (finish u r).Sound u J Seen := by
  unfold finish
  dsimp only
  split
  · exact sound_ask hu hclient fun h => by cases h
  · rename_i hagain
    refine ⟨hclient, fun h => absurd h hagain, fun s h => (by cases h), ?_⟩
    obtain hseen | hsignals | hfailed := hknown (by simpa using hagain)
    · exact .inl hseen
    · exact .inr (.inl hsignals)
    · exact .inr (.inr (.inr (.inr (.inr hfailed))))

lemma Sound.step (h : r.Sound u J Seen) (hu : Keeps u J Seen) (a : Act S π α) :
    (r.step u a).Sound u J Seen := by
  obtain ⟨hclient, hone, hlate, hknown⟩ := h
  cases a with
  | change s =>
      exact ⟨hclient, hone, fun _ _ => .inr (.inl (Nat.succ_pos _)), .inr (.inl (Nat.succ_pos _))⟩
  | answer =>
      simp only [Reader.step]
      split
      · rename_i hasked
        refine ⟨hclient, fun _ => rfl, fun s hs => .inl ?_, .inr (.inr (.inr (.inr (.inl rfl))))⟩
        cases Option.some.inj hs
        rfl
      · exact ⟨hclient, hone, hlate, hknown⟩
  | signal =>
      simp only [Reader.step]
      split
      · exact sound_ask hu hclient hone
      · exact ⟨hclient, hone, hlate, hknown⟩
  | reply =>
      simp only [Reader.step]
      split
      · rename_i s hanswered
        obtain ⟨hj, hseen⟩ := hu.take r.client s hclient
        refine sound_finish hu hj fun hagain => ?_
        obtain htrue | hsignals | hyes | hidle := hlate s hanswered
        · exact .inl (htrue ▸ hseen)
        · exact .inr (.inl hsignals)
        · exact absurd hyes (by rw [show r.again = false from hagain]; decide)
        · exact .inl ((hu.idle _ ((hu.idle _ hidle).2.1 s)).1 _)
      · exact ⟨hclient, hone, hlate, hknown⟩
  | fail =>
      simp only [Reader.step]
      split
      · exact sound_finish hu hclient fun _ => .inr (.inr rfl)
      · exact ⟨hclient, hone, hlate, hknown⟩
  | poke p =>
      simp only [Reader.step]
      split
      · exact ⟨hclient, hone, hlate, hknown⟩
      · rename_i c hpoke
        exact sound_ask hu (hu.poke _ p c hclient hpoke) hone
  | aside a =>
      obtain ⟨hj, hkeep⟩ := hu.aside r.client a hclient
      exact ⟨hj, hone, fun s hs => (hlate s hs).imp_right (Or.imp_right (Or.imp_right fun hidle =>
        (hu.idle _ hidle).2.2 a)), hknown.imp_left (hkeep _)⟩

/-- The invariant of every run. -/
lemma Sound.run (h : r.Sound u J Seen) (hu : Keeps u J Seen) (as : List (Act S π α)) :
    (Lib.run (Reader.step u) r as).Sound u J Seen :=
  run_keeps (fun _ a hr => hr.step hu a) h as

end Reader

end Lib
