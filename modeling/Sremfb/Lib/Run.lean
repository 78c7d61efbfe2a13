import Mathlib.Data.Nat.Notation
import Mathlib.Logic.Relation

/-!
# Runs of an event-driven machine

A machine is a total step function `step : σ → ε → σ`; a run feeds it a list of events.
`Along ok step s es` says that every step of the run from `s` meets `ok`, a condition on the
state *before* the step and the event, which is how a result that needs the environment to
behave is stated about whole runs.

`run_invariant` is the induction every safety result uses: an invariant that holds at the
start and that each allowed step preserves holds after every run of allowed steps.  Since a
prefix of an allowed run is an allowed run, this is a statement about every
state reached.

`chain_invariant` is the same rule for a relation: it lets a step be cut into finer actions,
each of which keeps the invariant.
-/

namespace Lib

variable {σ ε : Type*}

/-- The state after a run. -/
def run (step : σ → ε → σ) (s : σ) (es : List ε) : σ := es.foldl step s

@[simp] lemma run_nil (step : σ → ε → σ) (s : σ) : run step s [] = s := rfl

@[simp] lemma run_cons (step : σ → ε → σ) (s : σ) (e : ε) (es : List ε) :
    run step s (e :: es) = run step (step s e) es := rfl

lemma run_append (step : σ → ε → σ) (s : σ) (es es' : List ε) :
    run step s (es ++ es') = run step (run step s es) es' := List.foldl_append

/-- Every step of the run meets `ok`, which sees the state before the step and the event. -/
def Along (ok : σ → ε → Prop) (step : σ → ε → σ) : σ → List ε → Prop
  | _, [] => True
  | s, e :: es => ok s e ∧ Along ok step (step s e) es

/-- **The invariant rule.**  What one allowed step preserves, an allowed run preserves. -/
lemma run_invariant {ok : σ → ε → Prop} {step : σ → ε → σ} {P : σ → Prop}
    (hstep : ∀ s e, ok s e → P s → P (step s e)) {s : σ} {es : List ε}
    (hs : P s) (hes : Along ok step s es) : P (run step s es) := by
  induction es generalizing s with
  | nil => exact hs
  | cons e es ih =>
      obtain ⟨he, hes⟩ := hes
      exact ih (hstep s e he hs) hes

/-- A condition on events alone holds along a run as soon as it holds of every event. -/
lemma along_of_forall {P : ε → Prop} {step : σ → ε → σ} {s : σ} {es : List ε}
    (h : ∀ e ∈ es, P e) : Along (fun _ e => P e) step s es := by
  induction es generalizing s with
  | nil => trivial
  | cons e es ih =>
      exact ⟨h e (List.mem_cons_self ..), ih (fun x hx => h x (List.mem_cons_of_mem _ hx))⟩

/-- What every step preserves, every run preserves. -/
lemma run_keeps {step : σ → ε → σ} {P : σ → Prop} (hstep : ∀ s e, P s → P (step s e)) {s : σ}
    (hs : P s) (es : List ε) : P (run step s es) :=
  run_invariant (fun s e _ => hstep s e) hs (along_of_forall (P := fun _ => True) fun _ _ => trivial)

/-- What an invariant and the event give holds along a run. -/
lemma along_of_invariant {Q : ε → Prop} {P : σ → Prop} {ok : σ → ε → Prop} {step : σ → ε → σ}
    (hstep : ∀ s e, Q e → P s → P (step s e)) (hok : ∀ s e, Q e → P s → ok s e) {s : σ}
    {es : List ε} (hs : P s) (hes : ∀ e ∈ es, Q e) : Along ok step s es := by
  induction es generalizing s with
  | nil => trivial
  | cons e es ih =>
      obtain ⟨he, hes⟩ := List.forall_mem_cons.mp hes
      exact ⟨hok s e he hs, ih (hstep s e he hs) hes⟩

/-- Under an invariant one condition can be read as another. -/
lemma along_iff_of_invariant {Q : ε → Prop} {J : σ → Prop} {P ok : σ → ε → Prop}
    {step : σ → ε → σ} (hJ : ∀ s e, Q e → J s → ok s e → J (step s e))
    (hP : ∀ s e, Q e → J s → (P s e ↔ ok s e)) {s : σ} {es : List ε} (hs : J s)
    (hes : ∀ e ∈ es, Q e) : Along P step s es ↔ Along ok step s es := by
  induction es generalizing s with
  | nil => exact Iff.rfl
  | cons e es ih =>
      obtain ⟨he, hes⟩ := List.forall_mem_cons.mp hes
      rw [Along, Along, hP s e he hs]
      exact and_congr_right fun hok => ih (hJ s e he hs hok) hes

lemma Along.mono {ok ok' : σ → ε → Prop} {step : σ → ε → σ} (h : ∀ s e, ok s e → ok' s e) {s : σ}
    {es : List ε} (hes : Along ok step s es) : Along ok' step s es := by
  induction es generalizing s with
  | nil => trivial
  | cons e es ih => exact ⟨h s e hes.1, ih hes.2⟩

lemma along_append {ok : σ → ε → Prop} {step : σ → ε → σ} {s : σ} {es es' : List ε} :
    Along ok step s (es ++ es') ↔ Along ok step s es ∧ Along ok step (run step s es) es' := by
  induction es generalizing s with
  | nil => exact (true_and _).symm.to_iff
  | cons e es ih =>
      rw [List.cons_append, run_cons]
      simp only [Along, ih, and_assoc]

/-- A prefix of an allowed run is one. -/
lemma Along.take {ok : σ → ε → Prop} {step : σ → ε → σ} {s : σ} {es : List ε}
    (h : Along ok step s es) (n : ℕ) : Along ok step s (es.take n) := by
  rw [← List.take_append_drop n es, along_append] at h
  exact h.1

lemma along_and {ok ok' : σ → ε → Prop} {step : σ → ε → σ} {s : σ} {es : List ε}
    (h : Along ok step s es) (h' : Along ok' step s es) :
    Along (fun s e => ok s e ∧ ok' s e) step s es := by
  induction es generalizing s with
  | nil => trivial
  | cons e es ih => exact ⟨⟨h.1, h'.1⟩, ih h.2 h'.2⟩

/-- Conditions that are met one by one are met together. -/
lemma along_forall {ι : Type*} {ok : ι → σ → ε → Prop} {step : σ → ε → σ} {s : σ} {es : List ε} :
    Along (fun s e => ∀ i, ok i s e) step s es ↔ ∀ i, Along (ok i) step s es := by
  induction es generalizing s with
  | nil => exact ⟨fun _ _ => trivial, fun _ => trivial⟩
  | cons e es ih => simp only [Along, ih, forall_and]

/-- What one event brings about, and every allowed step keeps, holds after each allowed run that
has the event. -/
lemma run_of_mem {ok : σ → ε → Prop} {step : σ → ε → σ} {P Q : σ → Prop} {e : ε}
    (hP : ∀ s e', ok s e' → P s → P (step s e')) (hmake : ∀ s, ok s e → P s → Q (step s e))
    (hkeep : ∀ s e', ok s e' → P s → Q s → Q (step s e')) {s : σ} {es : List ε}
    (hs : P s) (hes : Along ok step s es) (he : e ∈ es) : Q (run step s es) := by
  induction es generalizing s with
  | nil => cases he
  | cons e' es ih =>
      obtain ⟨he', hes⟩ := hes
      rcases List.mem_cons.mp he with rfl | hmem
      · have hboth : P (step s e) ∧ Q (step s e) := ⟨hP s e he' hs, hmake s he' hs⟩
        exact (run_invariant (P := fun t => P t ∧ Q t)
          (fun t x hx ht => ⟨hP t x hx ht.1, hkeep t x hx ht.1 ht.2⟩) hboth hes).2
      · exact ih (hP s e' he' hs) hes hmem

/-- **Lockstep.**  What one event keeps between two machines, a run keeps. -/
lemma run_related {σ' : Type*} {Q : ε → Prop} {R : σ → σ' → Prop} {step : σ → ε → σ}
    {step' : σ' → ε → σ'} (hstep : ∀ s t e, Q e → R s t → R (step s e) (step' t e)) {s : σ} {t : σ'}
    {es : List ε} (h : R s t) (hes : ∀ e ∈ es, Q e) : R (run step s es) (run step' t es) := by
  induction es generalizing s t with
  | nil => exact h
  | cons e es ih =>
      obtain ⟨he, hes⟩ := List.forall_mem_cons.mp hes
      exact ih (hstep s t e he h) hes

/-- **Exactly the good runs.**  When `ok` says of each step whether it keeps `P`, a run is through
states with `P` exactly when all its steps are `ok`.  `J` is what holds anyway. -/
lemma forall_run_iff_along {Q : ε → Prop} {J P : σ → Prop} {ok : σ → ε → Prop}
    {step : σ → ε → σ} (hJ : ∀ s e, Q e → J s → J (step s e))
    (hP : ∀ s e, Q e → J s → P s → (P (step s e) ↔ ok s e)) {s : σ} {es : List ε} (hj : J s)
    (hp : P s) (hes : ∀ e ∈ es, Q e) : (∀ n, P (run step s (es.take n))) ↔ Along ok step s es := by
  induction es generalizing s with
  | nil => exact ⟨fun _ => trivial, fun _ n => by simpa using hp⟩
  | cons e es ih =>
      obtain ⟨he, hes⟩ := List.forall_mem_cons.mp hes
      have hiff := hP s e he hj hp
      constructor
      · intro h
        have hnext : P (step s e) := h 1
        exact ⟨hiff.mp hnext, (ih (hJ s e he hj) hnext hes).mp fun n => h (n + 1)⟩
      · rintro ⟨hok, hrest⟩ n
        cases n with
        | zero => exact hp
        | succ n => exact (ih (hJ s e he hj) (hiff.mpr hok) hes).mpr hrest n

/-- Two machines that are fed the same events. -/
lemma run_prod {σ' : Type*} (step : σ → ε → σ) (step' : σ' → ε → σ') (s : σ) (s' : σ')
    (es : List ε) :
    run (fun p e => (step p.1 e, step' p.2 e)) (s, s') es = (run step s es, run step' s' es) := by
  induction es generalizing s s' with
  | nil => rfl
  | cons e es ih => exact ih _ _

lemma along_prod {σ' : Type*} {ok : σ → ε → Prop} {step : σ → ε → σ} (step' : σ' → ε → σ') {s : σ}
    (s' : σ') {es : List ε} :
    Along (fun p e => ok p.1 e) (fun p e => (step p.1 e, step' p.2 e)) (s, s') es ↔
      Along ok step s es := by
  induction es generalizing s s' with
  | nil => exact Iff.rfl
  | cons e es ih => exact and_congr_right fun _ => ih _

/-- **Pre- and postconditions.**  From every state with `P` the events are allowed, and they lead
to a state with `Q`. -/
def Leads (ok : σ → ε → Prop) (step : σ → ε → σ) (P : σ → Prop) (es : List ε) (Q : σ → Prop) :
    Prop :=
  ∀ s, P s → Along ok step s es ∧ Q (run step s es)

section Leads

variable {ok : σ → ε → Prop} {step : σ → ε → σ} {P Q R : σ → Prop} {e : ε} {es es' : List ε}

lemma Leads.nil (h : ∀ s, P s → Q s) : Leads ok step P [] Q := fun s hs => ⟨trivial, h s hs⟩

lemma Leads.append (h : Leads ok step P es R) (h' : Leads ok step R es' Q) :
    Leads ok step P (es ++ es') Q := by
  intro s hs
  obtain ⟨hes, hr⟩ := h s hs
  obtain ⟨hes', hq⟩ := h' _ hr
  rw [run_append]
  exact ⟨along_append.mpr ⟨hes, hes'⟩, hq⟩

lemma Leads.one (h : ∀ s, P s → ok s e ∧ Q (step s e)) : Leads ok step P [e] Q := by
  intro s hs
  obtain ⟨he, hq⟩ := h s hs
  exact ⟨⟨he, trivial⟩, hq⟩

lemma Leads.cons (h : ∀ s, P s → ok s e ∧ R (step s e)) (h' : Leads ok step R es Q) :
    Leads ok step P (e :: es) Q :=
  (Leads.one h).append h'

/-- A list of events that each keep `P`. -/
lemma Leads.all (h : ∀ e ∈ es, ∀ s, P s → ok s e ∧ P (step s e)) : Leads ok step P es P := by
  induction es with
  | nil => exact Leads.nil fun _ hs => hs
  | cons e es ih =>
      obtain ⟨he, hes⟩ := List.forall_mem_cons.mp h
      exact Leads.cons he (ih hes)

end Leads

/-- What each action of a relation preserves, a chain of actions preserves. -/
lemma chain_invariant {r : σ → σ → Prop} {P : σ → Prop}
    (hstep : ∀ {a b}, r a b → P a → P b) {a b : σ}
    (h : Relation.ReflTransGen r a b) (ha : P a) : P b := by
  induction h with
  | refl => exact ha
  | tail _ hab ih => exact hstep hab ih

end Lib
