import Mathlib.Tactic.ByContra
import Sremfb.Lib.Run

/-!
# Signals that are reported by samples

A signal is a level that goes up and down, and a recorder that takes samples of it now and then;
at a `sync` it takes one if it has anything to say.  The log of a signal has its edges, what each
sample showed, and the syncs.  `Mark.Seen` asks of a log that no edge is lost: a sample shows the new
level before the next edge and before the next sync.

A log can be read one mark at a time by keeping the edge that is still owed a sample
(`seen_iff_along`).  A recorder that samples before a falling edge whose rise it has not shown, and
keeps track of being dirty (`Signal.Ok`), loses an edge exactly when a rise comes while the last
sample still shows the signal up: `seen_iff_fresh`.
-/

namespace Lib

/-- What is written down about a signal. -/
inductive Mark
  | edge (on : Bool)
  | shown (on : Bool)
  | sync
  /-- The signal is taken down by force. -/
  | reset
  deriving DecidableEq

namespace Mark

/-- Marks by which an edge before them has to be shown. -/
def Deadline : Mark → Prop
  | edge _ | sync => True
  | shown _ | reset => False

/-- The level `on` is shown before the first deadline, unless a reset comes first. -/
def Shows (on : Bool) (log : List Mark) : Prop :=
  ∀ mid e after, log = mid ++ e :: after → e.Deadline → reset ∉ mid → shown on ∈ mid

/-- **No edge is lost**: each is shown before the next edge and before the next sync. -/
def Seen (log : List Mark) : Prop :=
  ∀ past on future, log = past ++ edge on :: future → Shows on future

/-- The edge that is still to be shown. -/
def owed : Option Bool → Mark → Option Bool
  | _, edge on => some on
  | o, shown on => if o = some on then none else o
  | o, sync => o
  | _, reset => none

/-- Nothing is owed at a deadline. -/
def Due (o : Option Bool) (m : Mark) : Prop := m.Deadline → o = none

lemma seen_nil : Seen [] := by
  intro past on future h
  simp at h

lemma seen_cons {m : Mark} {log : List Mark} :
    Seen (m :: log) ↔ (∀ on, m = edge on → Shows on log) ∧ Seen log := by
  constructor
  · intro h
    refine ⟨?_, fun past on future hlog => h (m :: past) on future (by rw [hlog]; rfl)⟩
    rintro on rfl
    exact h [] on log rfl
  · rintro ⟨hm, hlog⟩ past on future h
    cases past with
    | nil =>
        obtain ⟨rfl, rfl⟩ := List.cons.inj h
        exact hm on rfl
    | cons x past => exact hlog past on future (List.cons.inj h).2

/-- The first mark of what follows an edge. -/
lemma shows_cons {on : Bool} {m : Mark} {log : List Mark} : Shows on (m :: log) ↔
    ¬m.Deadline ∧ (m = shown on ∨ m = reset ∨ Shows on log) := by
  constructor
  · intro h
    refine ⟨fun hm => by simpa using h [] m log rfl hm, ?_⟩
    by_cases hm : m = shown on ∨ m = reset
    · exact hm.imp_right .inl
    · rw [not_or] at hm
      refine .inr (.inr fun mid e after hlog he hreset => ?_)
      have hmem := h (m :: mid) e after (by rw [hlog]; rfl) he
        fun hmid => (List.mem_cons.mp hmid).elim (fun heq => hm.2 heq.symm) hreset
      exact (List.mem_cons.mp hmem).elim (fun heq => absurd heq.symm hm.1) id
  · rintro ⟨hm, hlog⟩ mid e after h he hreset
    cases mid with
    | nil =>
        obtain ⟨rfl, -⟩ := List.cons.inj h
        exact absurd he hm
    | cons x mid =>
        obtain ⟨rfl, h'⟩ := List.cons.inj h
        rw [List.mem_cons, not_or] at hreset
        rcases hlog with rfl | rfl | hlog
        · exact List.mem_cons_self
        · exact absurd rfl hreset.1
        · exact List.mem_cons_of_mem _ (hlog mid e after h' he hreset.2)

/-- Reading on from an edge that may still be owed. -/
lemma along_due_iff {log : List Mark} {o : Option Bool} :
    Along Due owed o log ↔ (∀ on, o = some on → Shows on log) ∧ Seen log := by
  induction log generalizing o with
  | nil =>
      refine iff_of_true trivial ⟨fun on _ mid e after h => ?_, seen_nil⟩
      simp at h
  | cons m log ih =>
      rw [Along, ih, seen_cons]
      cases o with
      | none => cases m <;> simp [Due, owed]
      | some a =>
          cases m with
          | edge on => simp [Due, Deadline, shows_cons]
          | shown on =>
              by_cases ha : a = on
              · simp [Due, Deadline, owed, shows_cons, ha]
              · simp [Due, Deadline, owed, shows_cons, ha, Ne.symm ha]
          | sync => simp [Due, Deadline, shows_cons]
          | reset => simp [Due, Deadline, owed, shows_cons]

/-- **A log is read one mark at a time.** -/
lemma seen_iff_along (log : List Mark) : Seen log ↔ Along Due owed none log := by
  simp [along_due_iff]

/-- Without edges there is nothing to lose. -/
lemma seen_of_no_edge {log : List Mark} (h : ∀ on, edge on ∉ log) : Seen log := by
  rintro past on future rfl
  exact absurd (by simp) (h on)

end Mark

/-- A signal, what the last sample showed, and whether there is anything to say. -/
structure Signal where
  now : Bool := false
  last : Bool := false
  dirty : Bool := false

namespace Signal

/-- What happens to a signal.  A sample may be sent several times over. -/
inductive Act
  | sample (more : ℕ)
  | edge (on : Bool)
  | touch
  | sync
  | reset (samples : ℕ)

def act (s : Signal) : Act → Signal
  | .sample _ => { s with last := s.now, dirty := false }
  | .edge on => { s with now := on, dirty := true }
  | .touch => { s with dirty := true }
  | .sync => s
  | .reset _ => {}

/-- What an act writes down. -/
def marks (s : Signal) : Act → List Mark
  | .sample more => List.replicate (more + 1) (.shown s.now)
  | .edge on => [.edge on]
  | .touch => []
  | .sync => [.sync]
  | .reset samples => .reset :: List.replicate samples (.shown false)

/-- The log of some acts. -/
def log : Signal → List Act → List Mark
  | _, [] => []
  | s, a :: as => s.marks a ++ log (s.act a) as

/-- What a recorder takes care of: a rise is sampled before the fall, and a sync finds nothing to
say. -/
def Ok (s : Signal) : Act → Prop
  | .edge on => s.now = !on ∧ (on = false → s.last = true)
  | .sync => s.dirty = false ∨ s.last = s.now
  | .sample _ | .touch | .reset _ => True

/-- A rise comes when the last sample showed the signal down. -/
def Fresh (s : Signal) : Act → Prop
  | .edge true => s.last = false
  | .edge false | .sample _ | .touch | .sync | .reset _ => True

lemma log_append (s : Signal) (as bs : List Act) :
    s.log (as ++ bs) = s.log as ++ (run act s as).log bs := by
  induction as generalizing s with
  | nil => rfl
  | cons a as ih => rw [List.cons_append, log, log, ih, List.append_assoc, run_cons]

/-- What is owed is what the last sample did not show. -/
structure Owes (s : Signal) (o : Option Bool) : Prop where
  pending : ∀ on, o = some on → s.now = on ∧ s.last = !on ∧ s.dirty = true
  fall : s.last = true → s.now = false → o = some false

lemma run_owed_replicate (o : Option Bool) (on : Bool) (n : ℕ) :
    run Mark.owed o (List.replicate (n + 1) (.shown on)) = if o = some on then none else o := by
  induction n with
  | zero => rfl
  | succ n ih =>
      rw [List.replicate_succ', run_append, ih]
      by_cases ho : o = some on
      · rw [if_pos ho]
        rfl
      · rw [if_neg ho]
        exact if_neg ho

lemma along_due_replicate (o : Option Bool) (on : Bool) (n : ℕ) :
    Along Mark.Due Mark.owed o (List.replicate n (.shown on)) := by
  induction n generalizing o with
  | zero => trivial
  | succ n ih => exact ⟨fun h => h.elim, ih _⟩

/-- **One act** writes down nothing that is due too early exactly when it is fresh, and what it
leaves owed is right again. -/
lemma Owes.act {s : Signal} {o : Option Bool} (h : s.Owes o) {a : Act} (hok : s.Ok a) :
    (Along Mark.Due Mark.owed o (s.marks a) ↔ s.Fresh a) ∧
      (s.Fresh a → (s.act a).Owes (run Mark.owed o (s.marks a))) := by
  cases a with
  | sample more =>
      have hnone : run Mark.owed o (s.marks (.sample more)) = none := by
        rw [marks, run_owed_replicate]
        cases o with
        | none => rfl
        | some on => rw [(h.pending on rfl).1, if_pos rfl]
      refine ⟨iff_of_true (along_due_replicate _ _ _) trivial, fun _ => ?_⟩
      rw [hnone]
      exact ⟨nofun, fun hlast hnow => absurd (hlast.symm.trans hnow) nofun⟩
  | edge on =>
      obtain ⟨hnow, hfall⟩ := hok
      have hdue : Along Mark.Due Mark.owed o (s.marks (.edge on)) ↔ o = none :=
        ⟨fun hdue => hdue.1 trivial, fun ho => ⟨fun _ => ho, trivial⟩⟩
      rw [hdue]
      cases on with
      | true =>
          refine ⟨⟨fun ho => ?_, fun hfresh => ?_⟩, fun hfresh => ?_⟩
          · by_contra hlast
            exact absurd ((h.fall ((Bool.not_eq_false _).mp hlast) hnow).symm.trans ho) nofun
          · cases o with
            | none => rfl
            | some on =>
                obtain ⟨hon, hlast, -⟩ := h.pending on rfl
                rw [← hon, hnow] at hlast
                exact absurd (hlast.symm.trans hfresh) nofun
          · refine ⟨fun on hon => ?_, fun hlast => absurd (hlast.symm.trans hfresh) nofun⟩
            obtain rfl := Option.some_inj.mp hon
            exact ⟨rfl, hfresh, rfl⟩
      | false =>
          have hlast := hfall rfl
          refine ⟨iff_of_true ?_ trivial, fun _ => ⟨fun on hon => ?_, fun _ _ => rfl⟩⟩
          · cases o with
            | none => rfl
            | some on =>
                obtain ⟨hon, hlast', -⟩ := h.pending on rfl
                rw [← hon, hnow, hlast] at hlast'
                exact absurd hlast' nofun
          · obtain rfl := Option.some_inj.mp hon
            exact ⟨rfl, hlast, rfl⟩
  | touch =>
      refine ⟨iff_of_true trivial trivial, fun _ => ⟨fun on hon => ?_, h.fall⟩⟩
      obtain ⟨hnow, hlast, -⟩ := h.pending on hon
      exact ⟨hnow, hlast, rfl⟩
  | sync =>
      refine ⟨iff_of_true ⟨fun _ => ?_, trivial⟩ trivial, fun _ => h⟩
      cases o with
      | none => rfl
      | some on =>
          obtain ⟨hnow, hlast, hdirty⟩ := h.pending on rfl
          rcases hok with hclean | hsame
          · exact absurd (hclean.symm.trans hdirty) nofun
          · rw [hnow, hlast] at hsame
            cases on <;> exact absurd hsame nofun
  | reset samples =>
      have hnone : run Mark.owed o (s.marks (.reset samples)) = none := by
        rw [marks, run_cons]
        cases samples with
        | zero => rfl
        | succ n => exact run_owed_replicate _ _ n
      refine ⟨iff_of_true ⟨fun hd => hd.elim, along_due_replicate _ _ _⟩ trivial, fun _ => ?_⟩
      rw [hnone]
      exact ⟨nofun, fun hlast => absurd hlast nofun⟩

lemma along_due_log {as : List Act} {s : Signal} {o : Option Bool} (h : s.Owes o)
    (hok : Along Ok act s as) :
    Along Mark.Due Mark.owed o (s.log as) ↔ Along Fresh act s as := by
  induction as generalizing s o with
  | nil => exact Iff.rfl
  | cons a as ih =>
      obtain ⟨ha, has⟩ := hok
      obtain ⟨hdue, howes⟩ := h.act ha
      rw [log, along_append, hdue, Along]
      exact and_congr_right fun hfresh => ih (howes hfresh) has

/-- **A recorder that takes care** loses an edge exactly when a rise is not fresh. -/
lemma seen_iff_fresh {as : List Act} (hok : Along Ok act {} as) :
    Mark.Seen (log {} as) ↔ Along Fresh act {} as := by
  rw [Mark.seen_iff_along]
  exact along_due_log ⟨nofun, nofun⟩ hok

end Signal

end Lib
