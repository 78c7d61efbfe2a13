import Mathlib.Algebra.Order.Monoid.Defs
import Mathlib.Order.Lattice

/-!
# Buffers with hysteresis

A buffer takes what it is offered until its level is above `high`; from then on it takes nothing
until the level is down to `low`.  Whatever happened before, a buffer that is open after an offer is
at most one offer above `high` (`Gauge.settled_fill`), and an offer takes no level over a bound above
that (`Gauge.level_fill_le_iff`).
-/

namespace Lib

/-- A level, and whether the input is cut off. -/
@[ext]
structure Gauge (K : Type*) where
  level : K
  cut : Bool

namespace Gauge

variable {K : Type*} [AddCommMonoid K] [LinearOrder K] {low high a bound x : K}
  {g : Gauge K}

/-- An offer of `x`. -/
def fill (low high : K) (g : Gauge K) (x : K) : Gauge K :=
  if (g.cut = true ∨ high < g.level) ∧ low < g.level then { g with cut := true }
  else ⟨g.level + x, false⟩

/-- An open buffer is at most one offer above `high`. -/
def Settled (high a : K) (g : Gauge K) : Prop := g.cut = false → g.level ≤ high + a

omit [AddCommMonoid K] in
lemma level_le_of_open (hlow : low ≤ high)
    (hopen : ¬((g.cut = true ∨ high < g.level) ∧ low < g.level)) : g.level ≤ high := by
  rw [not_and_or, not_or, not_lt, not_lt] at hopen
  exact hopen.elim And.right fun h => h.trans hlow

variable [IsOrderedAddMonoid K]

lemma settled_fill (hlow : low ≤ high) (hx : x ≤ a) (g : Gauge K) :
    (g.fill low high x).Settled high a := by
  intro hcut
  rw [fill] at hcut ⊢
  split at hcut
  · exact nomatch hcut
  · rename_i hopen
    rw [if_neg hopen]
    exact add_le_add (level_le_of_open hlow hopen) hx

/-- Above one offer over `high`, only what is in the buffer counts. -/
lemma level_fill_le_iff (hlow : low ≤ high) (hx : 0 ≤ x) (hxa : x ≤ a) (hbound : high + a ≤ bound)
    (g : Gauge K) : (g.fill low high x).level ≤ bound ↔ g.level ≤ bound := by
  rw [fill]
  split
  · exact Iff.rfl
  · rename_i hopen
    have hnext : g.level + x ≤ bound :=
      (add_le_add (level_le_of_open hlow hopen) hxa).trans hbound
    exact iff_of_true hnext ((le_add_of_nonneg_right hx).trans hnext)

end Gauge

end Lib
