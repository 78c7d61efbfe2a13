import Mathlib.Data.Nat.Basic
import Mathlib.Data.Int.Basic
import Mathlib.Tactic.Linarith

/-!
# Little-endian words and narrowing conversions

Two pieces of machine arithmetic that a byte protocol between C programs rests on.

`leBytes k n` writes the low `k` bytes of `n`, least significant first, and `ofLe` reads a
byte string back; `ofLe_leBytes` is the round trip, and it is modular, because a field holds
only the low bits of the value stored in it.

`intOfSize n` is the C conversion of an unsigned size to a 32-bit `int`: the low 32 bits,
read as a two's complement number.  Below `2 ^ 31` it is `n` itself (`intOfSize_of_lt`), and
in the next half of the range it is negative (`intOfSize_neg`).
-/

namespace Lib

/-! ## Little-endian bytes -/

/-- The low `k` bytes of `n`, least significant first. -/
def leBytes : ℕ → ℕ → List UInt8
  | 0, _ => []
  | k + 1, n => UInt8.ofNat (n % 256) :: leBytes k (n / 256)

/-- The number a byte string denotes, least significant byte first. -/
def ofLe : List UInt8 → ℕ
  | [] => 0
  | b :: bs => b.toNat + 256 * ofLe bs

@[simp] lemma length_leBytes (k n : ℕ) : (leBytes k n).length = k := by
  induction k generalizing n with
  | zero => rfl
  | succ k ih => simp [leBytes, ih]

/-- Writing `k` bytes and reading them back keeps the value modulo `256 ^ k`. -/
lemma ofLe_leBytes (k n : ℕ) : ofLe (leBytes k n) = n % 256 ^ k := by
  induction k generalizing n with
  | zero => simp [leBytes, ofLe, Nat.mod_one]
  | succ k ih =>
      have hb : (UInt8.ofNat (n % 256)).toNat = n % 256 := by
        rw [UInt8.toNat_ofNat']
        exact Nat.mod_eq_of_lt (Nat.mod_lt _ (by norm_num))
      rw [leBytes, ofLe, hb, ih, Nat.pow_succ, Nat.mul_comm (256 ^ k) 256, Nat.mod_mul]

lemma ofLe_leBytes_of_lt {k n : ℕ} (h : n < 256 ^ k) : ofLe (leBytes k n) = n := by
  rw [ofLe_leBytes, Nat.mod_eq_of_lt h]

/-! ## Narrowing an unsigned size to `int` -/

/-- The C conversion `(int) n` of an unsigned size. -/
def intOfSize (n : ℕ) : ℤ := Int.bmod n (2 ^ 32)

lemma intOfSize_of_lt {n : ℕ} (h : n < 2 ^ 31) : intOfSize n = n := by
  unfold intOfSize
  norm_num at h
  rw [Int.bmod_def]
  norm_num
  split <;> omega

/-- From `2 ^ 31` up to `2 ^ 32` the conversion gives a negative number. -/
lemma intOfSize_neg {n : ℕ} (h₁ : 2 ^ 31 ≤ n) (h₂ : n < 2 ^ 32) : intOfSize n < 0 := by
  unfold intOfSize
  rw [Int.bmod_def]
  norm_num at *
  split <;> omega

/-- A 32-bit value is read back from its two's complement. -/
lemma intOfSize_emod {v : ℤ} (h₁ : -2 ^ 31 ≤ v) (h₂ : v < 2 ^ 31) :
    intOfSize (v % 2 ^ 32).toNat = v := by
  unfold intOfSize
  norm_num at *
  rw [Int.bmod_def, max_eq_left (by omega)]
  norm_num
  split <;> omega

end Lib
