import Mathlib.Data.List.Infix

/-!
# Byte streams of NAL units

In the byte stream format of H.264 (its Annex B) every NAL unit is preceded by a start code, two or
more zero bytes and a one.  A unit never holds the bytes `0, 0, 1` and does not end in a zero, so a
reader that looks for `0, 0, 1` finds the units and nothing else.

`headers` is such a reader: from each start code it notes the byte that follows, the header of a
unit, and goes on behind it.  On a stream of units it notes the header of each, once and in order
(`headers_stream`).
-/

namespace Lib

/-- The byte behind each start code, as a scan from the front finds them. -/
def headers : List UInt8 → List UInt8
  | a :: b :: c :: d :: rest =>
      if a = 0 ∧ b = 0 ∧ c = 1 then d :: headers rest else headers (b :: c :: d :: rest)
  | _ => []

/-- A NAL unit: the header, and bytes that neither hide a start code nor run into one. -/
structure Nal where
  header : UInt8
  body : List UInt8
  clean : ¬[0, 0, 1] <:+: body
  closed : body.getLast? ≠ some 0

namespace Nal

/-- A unit with its start code, of `2 + zeros` zeros and a one. -/
def bytes (zeros : ℕ) (n : Nal) : List UInt8 :=
  List.replicate (zeros + 2) 0 ++ 1 :: n.header :: n.body

/-- Units one behind the other, each with the zeros it has in front. -/
def stream (us : List (ℕ × Nal)) : List UInt8 := us.flatMap fun u => u.2.bytes u.1

end Nal

/-- Where no start code begins, the scan moves by one byte. -/
lemma headers_cons {a : UInt8} {l : List UInt8} (h : ¬[0, 0, 1] <+: a :: l) :
    headers (a :: l) = headers l := by
  match l with
  | [] | [_] | [_, _] => rfl
  | b :: c :: d :: rest =>
      rw [headers, if_neg]
      rintro ⟨rfl, rfl, rfl⟩
      exact h ⟨d :: rest, rfl⟩

/-- A start code, however many zeros it has. -/
lemma headers_start (zeros : ℕ) (d : UInt8) (l : List UInt8) :
    headers (List.replicate (zeros + 2) 0 ++ 1 :: d :: l) = d :: headers l := by
  induction zeros with
  | zero => rfl
  | succ zeros ih =>
      rw [show zeros + 1 + 2 = (zeros + 2) + 1 from rfl, List.replicate_succ, List.cons_append,
        headers_cons, ih]
      -- the third of the zeros is not the one
      rintro ⟨t, ht⟩
      rw [List.replicate_succ, List.replicate_succ] at ht
      simp at ht

/-- Bytes of a unit are passed over, whatever follows. -/
lemma headers_body {body : List UInt8} (hclean : ¬[0, 0, 1] <:+: body)
    (hclosed : body.getLast? ≠ some 0) (l : List UInt8) : headers (body ++ l) = headers l := by
  induction body with
  | nil => rfl
  | cons a body ih =>
      have hrest : ¬[0, 0, 1] <:+: body := fun h => hclean (h.trans (List.infix_cons_iff.mpr (.inr
        List.infix_rfl)))
      have hstart : ¬[0, 0, 1] <+: a :: (body ++ l) := by
        rintro ⟨t, ht⟩
        -- the one of a start code that begins here lies in the unit, since this does not end in 0
        match body with
        | [] =>
            obtain ⟨rfl, -⟩ := List.cons.inj ht
            exact hclosed rfl
        | [b] =>
            obtain ⟨rfl, ht'⟩ := List.cons.inj ht
            obtain ⟨rfl, -⟩ := List.cons.inj ht'
            exact hclosed rfl
        | b :: c :: rest =>
            obtain ⟨rfl, ht'⟩ := List.cons.inj ht
            obtain ⟨rfl, ht''⟩ := List.cons.inj ht'
            obtain ⟨rfl, -⟩ := List.cons.inj ht''
            exact hclean (List.infix_cons_iff.mpr (.inl ⟨rest, rfl⟩))
      rw [List.cons_append, headers_cons hstart]
      cases body with
      | nil => rfl
      | cons b rest => exact ih hrest hclosed

lemma headers_zeros (n : ℕ) : headers (List.replicate n 0) = [] := by
  induction n with
  | zero => rfl
  | succ n ih =>
      rw [List.replicate_succ, headers_cons, ih]
      rintro ⟨t, ht⟩
      match n with
      | 0 | 1 => simp at ht
      | n + 2 => simp [List.replicate_succ] at ht

/-- **The scan finds the units.**  Zeros may trail. -/
lemma headers_stream (us : List (ℕ × Nal)) (trailing : ℕ) :
    headers (Nal.stream us ++ List.replicate trailing 0) = us.map fun u => u.2.header := by
  induction us with
  | nil => exact headers_zeros trailing
  | cons u us ih =>
      obtain ⟨zeros, n⟩ := u
      rw [Nal.stream, List.flatMap_cons, Nal.bytes, List.append_assoc, List.append_assoc,
        List.cons_append, List.cons_append, headers_start, headers_body n.clean n.closed]
      exact congrArg _ ih

end Lib
