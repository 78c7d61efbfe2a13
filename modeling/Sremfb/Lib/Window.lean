import Sremfb.Lib.Trace

/-!
# Sliding windows

A trace of events, each with the time it happened and the time it was noted.  A limiter looks at
what was noted in the last `W` units of time before it lets the next event happen; `Capped` says
that it found fewer than `n` events each time.  Then any set of events that lie within `W` of each
other has at most `n` members (`Capped.countP_le`), in particular every window of length `W`.
-/

namespace Lib

variable {α : Type*}

/-- At each event, fewer than `n` of the earlier ones were noted less than `W` ago. -/
def Capped (happened noted : α → ℕ) (W n : ℕ) : List α → Prop :=
  Always fun past e => (past.countP fun x => happened e < noted x + W) < n

variable {happened noted : α → ℕ} {W n : ℕ}

lemma capped_snoc {l : List α} {e : α} : Capped happened noted W n (l ++ [e]) ↔
    Capped happened noted W n l ∧ (l.countP fun x => happened e < noted x + W) < n :=
  always_snoc

/-- **The window rule.**  Events that are all less than `W` apart are at most `n`. -/
lemma Capped.countP_le {l : List α} (h : Capped happened noted W n l) {Q : α → Bool}
    (hQ : ∀ e ∈ l, ∀ x ∈ l, Q e = true → Q x = true → happened e < noted x + W) :
    l.countP Q ≤ n := by
  induction l using List.reverseRecOn with
  | nil => simp
  | append_singleton l e ih =>
      obtain ⟨hl, he⟩ := capped_snoc.mp h
      have hmem : ∀ x ∈ l, x ∈ l ++ [e] := fun x hx => List.mem_append_left _ hx
      rw [List.countP_append, List.countP_singleton]
      by_cases hq : Q e = true
      · -- the newest one counts, and all the others were seen when it was let through
        have hle : l.countP Q ≤ l.countP fun x => happened e < noted x + W := by
          apply List.countP_mono_left
          intro x hx hqx
          simpa using hQ e (by simp) x (hmem x hx) hq hqx
        rw [if_pos hq]
        omega
      · rw [if_neg hq]
        exact ih hl fun a ha x hx => hQ a (hmem a ha) x (hmem x hx)

/-- Every window of length `W` holds at most `n` events. -/
lemma Capped.window {l : List α} (h : Capped happened noted W n l)
    (hn : ∀ x ∈ l, happened x ≤ noted x) (t : ℕ) :
    (l.countP fun x => t < happened x + W ∧ happened x ≤ t) ≤ n := by
  apply h.countP_le
  intro e _ x hx he hx'
  have := hn x hx
  simp only [decide_eq_true_eq] at he hx'
  omega

end Lib
