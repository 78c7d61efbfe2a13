import Mathlib.Data.List.Basic
import Mathlib.Order.Nat

/-!
# A list in a fixed number of slots

`n` slots hold a list of at most `n` entries from the front; the slots behind it are blank.  The
first blank slot is where the next entry goes (`findFinIdx?_blank`, `Holds.set`), an entry is found
where the list has it (`findFinIdx?_mem`), and one that leaves is closed up over
(`Holds.closeUp`).
-/

namespace Lib

variable {α : Type*} {n : ℕ}

/-- The slots hold the list and are blank behind it. -/
structure Holds (slots : Vector α n) (blank : α) (l : List α) : Prop where
  eq : slots.toList = l ++ List.replicate (n - l.length) blank
  room : l.length ≤ n

variable {slots : Vector α n} {blank u : α} {l : List α}

lemma holds_replicate (n : ℕ) (blank : α) : Holds (Vector.replicate n blank) blank [] :=
  ⟨by simp, Nat.zero_le n⟩

namespace Holds

variable (h : Holds slots blank l)

include h

lemma getElem_lt {i : ℕ} (hi : i < l.length) (hs : i < slots.toList.length) :
    slots.toList[i] = l[i] := by
  simp only [h.eq, List.getElem_append_left hi]

lemma getElem_ge {i : ℕ} (hl : l.length ≤ i) (hs : i < slots.toList.length) :
    slots.toList[i] = blank := by
  simp only [h.eq, List.getElem_append_right hl, List.getElem_replicate]

/-- The first blank slot is the one behind the list. -/
lemma findFinIdx?_blank [BEq α] [LawfulBEq α] (hblank : blank ∉ l) :
    slots.findFinIdx? (· == blank) = if hl : l.length < n then some ⟨l.length, hl⟩ else none := by
  have hlist := @Vector.findFinIdx?_toList _ _ (· == blank) slots
  split_ifs with hl
  · have hs : l.length < slots.toList.length := by rwa [Vector.length_toList]
    have hfind : slots.toList.findFinIdx? (· == blank) = some ⟨l.length, hs⟩ := by
      rw [List.findFinIdx?_eq_some_iff]
      refine ⟨by simpa using h.getElem_ge le_rfl hs, fun j hj hjb => ?_⟩
      have hmem : l[j.val] = blank := by
        rw [← h.getElem_lt hj j.isLt]
        simpa using hjb
      exact hblank (hmem ▸ List.getElem_mem hj)
    rw [hfind] at hlist
    obtain ⟨i, hi, hval⟩ := Option.map_eq_some_iff.mp hlist.symm
    have hi' : i.val = l.length := Fin.ext_iff.mp hval
    rw [hi, Option.some_inj]
    exact Fin.ext hi'
  · have hfind : slots.toList.findFinIdx? (· == blank) = none := by
      rw [List.findFinIdx?_eq_none_iff, h.eq, Nat.sub_eq_zero_of_le (not_lt.mp hl),
        List.replicate_zero, List.append_nil]
      exact fun x hx hxb => hblank (eq_of_beq hxb ▸ hx)
    rw [hfind] at hlist
    exact Option.map_eq_none_iff.mp hlist.symm

/-- The next entry goes behind the list. -/
lemma set (hl : l.length < n) : Holds (slots.set l.length u) blank (l ++ [u]) where
  eq := by
    have hlen : (l ++ [u]).length = l.length + 1 := by simp
    have hsplit : n - l.length = n - (l.length + 1) + 1 := by omega
    rw [Vector.toList_set, h.eq, List.set_append_right _ _ le_rfl, Nat.sub_self, hsplit,
      List.replicate_succ, List.set_cons_zero, hlen, List.append_assoc, List.singleton_append]
  room := by rwa [List.length_append, List.length_singleton]

/-- An entry is found where the list has it. -/
lemma findFinIdx?_mem [BEq α] [LawfulBEq α] (hu : u ∈ l) :
    ∃ hl : l.idxOf u < n, slots.findFinIdx? (· == u) = some ⟨l.idxOf u, hl⟩ := by
  have hidx := List.idxOf_lt_length_of_mem hu
  refine ⟨hidx.trans_le h.room, ?_⟩
  have hlist := @Vector.findFinIdx?_toList _ _ (· == u) slots
  have hs : l.idxOf u < slots.toList.length := by
    rw [Vector.length_toList]
    exact hidx.trans_le h.room
  have hfind : slots.toList.findFinIdx? (· == u) = some ⟨l.idxOf u, hs⟩ := by
    rw [List.findFinIdx?_eq_some_iff]
    refine ⟨?_, fun j hj hju => ?_⟩
    · have hget := h.getElem_lt hidx hs
      rw [List.getElem_idxOf hidx] at hget
      exact beq_iff_eq.mpr hget
    · have hj' : j.val < l.idxOf u := hj
      have hjl : j.val < l.length := hj'.trans hidx
      have hget : l[j.val] = u := by
        rw [← h.getElem_lt hjl j.isLt]
        simpa using hju
      exact Bool.false_ne_true ((List.not_of_lt_findIdx hj').symm.trans (beq_iff_eq.mpr hget))
  rw [hfind] at hlist
  obtain ⟨i, hi, hval⟩ := Option.map_eq_some_iff.mp hlist.symm
  have hi' : i.val = l.idxOf u := Fin.ext_iff.mp hval
  rw [hi, Option.some_inj]
  exact Fin.ext hi'

/-- One entry leaves, and those behind it move up. -/
lemma closeUp {i : ℕ} (hi : i < l.length) {slots' : Vector α n}
    (heq : slots'.toList = slots.toList.eraseIdx i ++ [blank]) :
    Holds slots' blank (l.eraseIdx i) where
  eq := by
    have hlen := List.length_eraseIdx_of_lt hi
    have hroom := h.room
    have hsplit : n - (l.length - 1) = n - l.length + 1 := by omega
    rw [heq, h.eq, List.eraseIdx_append_of_lt_length hi, hlen, hsplit, List.append_assoc,
      List.replicate_succ']
  room := by
    have hlen := List.length_eraseIdx_of_lt hi
    have hroom := h.room
    omega

end Holds

end Lib
