import Sremfb.Lib.Words

/-!
# LZ4 as the server and the clients use it

LZ4 is a library outside the repository, so compression and decompression are parameters.
`Lz4.Documented` is what its documentation promises of them and all that the results rely on.

The promises can be met: `Lz4.literal` writes every block as one run of literals in the LZ4
block format, which is what LZ4 itself does with inputs too short to hold a match, and
`literal_documented` proves that it is documented behaviour.
-/

namespace Sremfb

open Lib

/-- `LZ4_compress_fast` and `LZ4_decompress_safe`.  The first gets the source buffer, the `int`
source size and the `int` capacity and gives the block, or `none` for a result of `0`; the
second gets a block and the `int` capacity. -/
structure Lz4 where
  compressFast : List UInt8 → ℤ → ℤ → Option (List UInt8)
  decompressSafe : List UInt8 → ℤ → Option (List UInt8)

/-- `LZ4_MAX_INPUT_SIZE`. -/
def lz4MaxInputSize : ℤ := 0x7E000000

/-- `LZ4_compressBound`. -/
def lz4CompressBound (n : ℤ) : ℤ :=
  if 0 ≤ n ∧ n ≤ lz4MaxInputSize then n + n / 255 + 16 else 0

/-- What the documentation of LZ4 promises. -/
structure Lz4.Documented (z : Lz4) : Prop where
  /-- A block is never longer than the capacity it was given. -/
  fits : ∀ {src n cap out}, z.compressFast src n cap = some out → (out.length : ℤ) ≤ cap
  /-- Sizes outside the supported range fail. -/
  range : ∀ {src n cap}, n < 0 ∨ lz4MaxInputSize < n → z.compressFast src n cap = none
  /-- Decompressing a block gives back the bytes it was made from. -/
  roundTrip : ∀ {src n cap out}, z.compressFast src n cap = some out → 0 ≤ n →
    n ≤ src.length → z.decompressSafe out n = some (src.take n.toNat)

/-! ## A codec of literals -/

namespace Lz4

/-- The length field of a literal run, as it follows the token: `255` as often as it fits,
then the rest. -/
def runLength (n : ℕ) : List UInt8 := List.replicate (n / 255) 255 ++ [UInt8.ofNat (n % 255)]

/-- A block that is one run of literals. -/
def literalBlock (src : List UInt8) : List UInt8 :=
  if src.length < 15 then UInt8.ofNat (src.length * 16) :: src
  else 0xF0 :: (runLength (src.length - 15) ++ src)

/-- The literals of a block that is one run of them. -/
def literals : List UInt8 → Option (List UInt8)
  | [] => none
  | token :: rest =>
      if token < 0xF0 then
        if token.toNat = 16 * rest.length then some rest else none
      else
        let n := (rest.takeWhile (· == 255)).length
        match rest.drop n with
        | [] => none
        | b :: lits => if 15 + 255 * n + b.toNat = lits.length then some lits else none

/-- LZ4 without matches. -/
def literal : Lz4 where
  compressFast src n cap :=
    let out := literalBlock (src.take n.toNat)
    if 0 ≤ n ∧ n ≤ lz4MaxInputSize ∧ (out.length : ℤ) ≤ cap then some out else none
  decompressSafe block cap :=
    match literals block with
    | none => none
    | some l => if (l.length : ℤ) ≤ cap then some l else none

lemma literals_literalBlock (src : List UInt8) : literals (literalBlock src) = some src := by
  unfold literalBlock
  by_cases h : src.length < 15
  · have ht : (UInt8.ofNat (src.length * 16)).toNat = 16 * src.length := by
      rw [UInt8.toNat_ofNat']
      omega
    have hlt : UInt8.ofNat (src.length * 16) < 0xF0 := by
      rw [UInt8.lt_iff_toNat_lt, ht, show (0xF0 : UInt8).toNat = 240 from rfl]
      omega
    rw [if_pos h, literals, if_pos hlt, if_pos ht]
  · set m := src.length - 15 with hm
    have hb : (UInt8.ofNat (m % 255)).toNat = m % 255 := by
      rw [UInt8.toNat_ofNat']
      omega
    have hne : (UInt8.ofNat (m % 255) == 255) = false := by
      rw [beq_eq_false_iff_ne]
      intro hc
      have := congrArg UInt8.toNat hc
      rw [hb, show (255 : UInt8).toNat = 255 from rfl] at this
      omega
    have htw : ((runLength m ++ src).takeWhile (· == 255)).length = m / 255 := by
      rw [runLength, List.append_assoc, List.takeWhile_append_of_pos (by simp)]
      simp [hne]
    have hdrop : (runLength m ++ src).drop (m / 255) = UInt8.ofNat (m % 255) :: src := by
      rw [runLength, List.append_assoc, List.drop_left' (by simp)]
      rfl
    rw [if_neg h, literals, if_neg (by decide)]
    simp only [htw, hdrop, hb]
    rw [if_pos (by omega)]

theorem literal_documented : literal.Documented where
  fits := by
    intro src n cap out h
    simp only [literal] at h
    split_ifs at h with hc
    obtain rfl := Option.some.inj h
    exact hc.2.2
  range := by
    intro src n cap h
    simp only [literal]
    rw [if_neg (by omega)]
  roundTrip := by
    intro src n cap out h hn hlen
    simp only [literal] at h ⊢
    split_ifs at h with hc
    obtain rfl := Option.some.inj h
    rw [literals_literalBlock]
    simp only [List.length_take]
    rw [if_pos (by omega)]

end Lz4

end Sremfb
