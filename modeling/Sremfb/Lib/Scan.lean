import Mathlib.Data.List.Basic
import Mathlib.Data.List.Flatten

/-!
# Resumable scanners

A scanner looks at the unread bytes with a small state and decides: wait for `more`, `take`
some bytes (possibly emitting an item), or `stop` for good.  Two laws make it resumable: it
only takes bytes that are there, and a decision made on some bytes is still the decision when
more bytes follow.

`scan` iterates the scanner until it waits or stops.  `scan_append` is the law of chunking:
scanning a concatenation is scanning the first part and then resuming with what it left
over, so that feeding a stream in pieces gives the items and the stop of one scan over the whole.
-/

namespace Lib

/-- What a scanner decides at the cursor. -/
inductive Verdict (σ β : Type*)
  /-- Not enough bytes to decide. -/
  | more
  /-- Consume `n` bytes, go on in the given state, emit the item if there is one. -/
  | take (n : ℕ) (s : σ) (out : Option β)
  /-- Give up on the stream. -/
  | stop

/-- A resumable scanner over bytes `α`, with state `σ` and items `β`. -/
structure Scanner (α σ β : Type*) where
  look : σ → List α → Verdict σ β
  take_pos : ∀ {s l n s' out}, look s l = .take n s' out → 0 < n ∧ n ≤ l.length
  stable : ∀ {s l}, look s l ≠ .more → ∀ l', look s (l ++ l') = look s l

namespace Scanner

variable {α σ β : Type*} (m : Scanner α σ β)

/-- Runs the scanner over `l`: the items, and the state and unread bytes when it waits, or
`none` when it stopped. -/
def scan (s : σ) (l : List α) : List β × Option (σ × List α) :=
  match _h : m.look s l with
  | .more => ([], some (s, l))
  | .stop => ([], none)
  | .take n s' out =>
      let r := scan s' (l.drop n)
      (out.toList ++ r.1, r.2)
termination_by l.length
decreasing_by
  have := m.take_pos _h
  rw [List.length_drop]
  omega

lemma scan_more {s : σ} {l : List α} (h : m.look s l = .more) :
    m.scan s l = ([], some (s, l)) := by
  rw [scan]
  split <;> simp_all

lemma scan_stop {s : σ} {l : List α} (h : m.look s l = .stop) : m.scan s l = ([], none) := by
  rw [scan]
  split <;> simp_all

lemma scan_take {s s' : σ} {l : List α} {n : ℕ} {out : Option β}
    (h : m.look s l = .take n s' out) :
    m.scan s l = (out.toList ++ (m.scan s' (l.drop n)).1, (m.scan s' (l.drop n)).2) := by
  rw [scan]
  split
  · simp_all
  · simp_all
  · rename_i n' s'' out' h'
    rw [h] at h'
    obtain ⟨rfl, rfl, rfl⟩ := h'
    rfl

/-- Resumes a scan that waits; a stopped one stays stopped. -/
def resume (r : List β × Option (σ × List α)) (l : List α) : List β × Option (σ × List α) :=
  match r with
  | (out, none) => (out, none)
  | (out, some (s, rest)) => (out ++ (m.scan s (rest ++ l)).1, (m.scan s (rest ++ l)).2)

/-- **Chunking.**  Scanning `l ++ l'` is scanning `l` and resuming with `l'`. -/
lemma scan_append (s : σ) (l l' : List α) :
    m.scan s (l ++ l') = m.resume (m.scan s l) l' := by
  induction hn : l.length using Nat.strongRecOn generalizing s l with
  | ind n ih =>
      cases h : m.look s l with
      | more => simp [m.scan_more h, resume]
      | stop =>
          have h' : m.look s (l ++ l') = .stop := by
            rw [m.stable (by simp [h]), h]
          simp [m.scan_stop h, m.scan_stop h', resume]
      | take k s' out =>
          have h' : m.look s (l ++ l') = .take k s' out := by
            rw [m.stable (by simp [h]), h]
          obtain ⟨hk, hkl⟩ := m.take_pos h
          have hd : (l ++ l').drop k = l.drop k ++ l' := List.drop_append_of_le_length hkl
          have hlen : (l.drop k).length < n := by
            rw [List.length_drop]
            omega
          rw [m.scan_take h', m.scan_take h, hd, ih _ hlen s' (l.drop k) rfl]
          rcases m.scan s' (l.drop k) with ⟨out', _ | ⟨s'', rest⟩⟩
          · simp [resume]
          · simp [resume, List.append_assoc]

/-- **Framing.**  What a scanner takes whole, one after another, comes out in order. -/
lemma scan_flatMap {γ : Type*} {s₀ : σ} {enc : γ → List α} {item : γ → β}
    (h : ∀ b rest, m.look s₀ (enc b ++ rest) = .take (enc b).length s₀ (some (item b)))
    (bs : List γ) (rest : List α) :
    m.scan s₀ (bs.flatMap enc ++ rest) =
      (bs.map item ++ (m.scan s₀ rest).1, (m.scan s₀ rest).2) := by
  induction bs with
  | nil => rfl
  | cons b bs ih =>
      rw [List.flatMap_cons, List.append_assoc, m.scan_take (h b _), List.drop_left, ih]
      rfl

/-- A scan waits only where the scanner has nothing to decide. -/
lemma look_of_scan {s s' : σ} {l rest : List α} {out : List β}
    (h : m.scan s l = (out, some (s', rest))) : m.look s' rest = .more := by
  induction hn : l.length using Nat.strongRecOn generalizing s l out with
  | ind n ih =>
      cases hl : m.look s l with
      | more =>
          rw [m.scan_more hl] at h
          obtain ⟨-, rfl, rfl⟩ : [] = out ∧ s = s' ∧ l = rest := by simpa using h
          exact hl
      | stop => simp [m.scan_stop hl] at h
      | take k s'' o =>
          obtain ⟨hk, hkl⟩ := m.take_pos hl
          have hlen : (l.drop k).length < n := by
            rw [List.length_drop]
            omega
          rw [m.scan_take hl] at h
          obtain ⟨-, h2⟩ : _ ∧ (m.scan s'' (l.drop k)).2 = some (s', rest) := by
            simpa using h
          exact ih _ hlen (Prod.ext rfl h2) rfl

end Scanner

end Lib
