import Mathlib.Data.List.Perm.Basic
import Mathlib.Data.Nat.Notation

/-!
# Two lists in one-to-one correspondence

`Matched R as bs` pairs every entry of `as` with one entry of `bs`, and the other way round, so
that `R` holds of each pair; an entry that occurs twice counts twice.

A search that only finds for every `b` some `a` shows less: it may find one `a` twice.  When an
entry `a` is related to one entry of `bs` at most, the search is enough: `exists_chosen` gives
each `b` an `a` of its own, and with as many on both sides nothing is left over
(`matched_of_forall_exists`).  Where the relation is not of this kind, `Matched.countP_eq` is
what tells the two apart.
-/

namespace Lib

variable {α β : Type*} {R : α → β → Prop} {as as' : List α} {bs bs' : List β}

/-- The two lists correspond one to one. -/
def Matched (R : α → β → Prop) (as : List α) (bs : List β) : Prop :=
  ∃ bs', bs'.Perm bs ∧ List.Forall₂ R as bs'

lemma forall₂_of_mem {S : α → β → Prop} (h : List.Forall₂ R as bs)
    (hRS : ∀ a, ∀ b ∈ bs, R a b → S a b) : List.Forall₂ S as bs := by
  induction h with
  | nil => exact .nil
  | cons hab _ ih =>
      obtain ⟨hb, hrest⟩ := List.forall_mem_cons.mp fun b hb a hR => hRS a b hb hR
      exact .cons (hb _ hab) (ih fun a b hb => hrest b hb a)

lemma Matched.of_forall₂ (h : List.Forall₂ R as bs) : Matched R as bs := ⟨bs, .refl _, h⟩

lemma Matched.perm_left (h : Matched R as bs) (hp : as'.Perm as) : Matched R as' bs := by
  obtain ⟨bs', hbs, hR⟩ := h
  obtain ⟨bs'', hR', hbs'⟩ := List.perm_comp_forall₂ hp hR
  exact ⟨bs'', hbs'.trans hbs, hR'⟩

lemma Matched.perm_right (h : Matched R as bs) (hp : bs.Perm bs') : Matched R as bs' := by
  obtain ⟨bs'', hbs, hR⟩ := h
  exact ⟨bs'', hbs.trans hp, hR⟩

lemma Matched.length_eq (h : Matched R as bs) : as.length = bs.length := by
  obtain ⟨bs', hbs, hR⟩ := h
  rw [hR.length_eq, hbs.length_eq]

lemma Matched.exists_left (h : Matched R as bs) {b : β} (hb : b ∈ bs) : ∃ a ∈ as, R a b := by
  obtain ⟨bs', hbs, hR⟩ := h
  have hb' := hbs.mem_iff.mpr hb
  clear hbs hb
  induction hR with
  | nil => exact (List.not_mem_nil hb').elim
  | cons hab _ ih =>
      rcases List.mem_cons.mp hb' with rfl | hrest
      · exact ⟨_, List.mem_cons_self .., hab⟩
      · obtain ⟨a, ha, hR⟩ := ih hrest
        exact ⟨a, List.mem_cons_of_mem _ ha, hR⟩

/-- What corresponds is counted alike. -/
lemma Matched.countP_eq (h : Matched R as bs) {p : α → Bool} {q : β → Bool}
    (hpq : ∀ a b, b ∈ bs → R a b → p a = q b) : as.countP p = bs.countP q := by
  obtain ⟨bs', hbs, hR⟩ := h
  rw [← hbs.countP_eq]
  have hmem : ∀ b ∈ bs', b ∈ bs := fun b => hbs.mem_iff.mp
  clear hbs
  induction hR with
  | nil => rfl
  | cons hab _ ih =>
      obtain ⟨hb, hrest⟩ := List.forall_mem_cons.mp hmem
      rw [List.countP_cons, List.countP_cons, ih hrest, hpq _ _ hb hab]

/-- **Each `b` gets an `a` of its own**, when no `a` is related to two of them. -/
lemma exists_chosen (hnodup : bs.Nodup)
    (hone : ∀ a, ∀ b ∈ bs, ∀ b' ∈ bs, R a b → R a b' → b = b')
    (hall : ∀ b ∈ bs, ∃ a ∈ as, R a b) :
    ∃ chosen rest, as.Perm (chosen ++ rest) ∧ List.Forall₂ R chosen bs := by
  induction bs generalizing as with
  | nil => exact ⟨[], as, .refl _, .nil⟩
  | cons b bs ih =>
      obtain ⟨hb, hnodup⟩ := List.nodup_cons.mp hnodup
      obtain ⟨a, ha, hab⟩ := hall b (List.mem_cons_self ..)
      obtain ⟨before, after, rfl⟩ := List.append_of_mem ha
      -- the others find theirs among the entries that are left
      have hall' : ∀ b' ∈ bs, ∃ a' ∈ before ++ after, R a' b' := by
        intro b' hb'
        obtain ⟨a', ha', hab'⟩ := hall b' (List.mem_cons_of_mem _ hb')
        refine ⟨a', ?_, hab'⟩
        rw [List.mem_append, List.mem_cons] at ha'
        rw [List.mem_append]
        rcases ha' with h | rfl | h
        · exact .inl h
        · have hsame := hone a' b (List.mem_cons_self ..) b' (List.mem_cons_of_mem _ hb') hab hab'
          exact absurd (hsame ▸ hb') hb
        · exact .inr h
      obtain ⟨chosen, rest, hperm, hR⟩ := ih hnodup
        (fun a b hb b' hb' => hone a b (List.mem_cons_of_mem _ hb) b' (List.mem_cons_of_mem _ hb'))
        hall'
      exact ⟨a :: chosen, rest, List.perm_middle.trans (hperm.cons a), .cons hab hR⟩

/-- **With as many on both sides the search is enough.** -/
lemma matched_of_forall_exists (hnodup : bs.Nodup)
    (hone : ∀ a, ∀ b ∈ bs, ∀ b' ∈ bs, R a b → R a b' → b = b') (hlen : as.length = bs.length)
    (hall : ∀ b ∈ bs, ∃ a ∈ as, R a b) : Matched R as bs := by
  obtain ⟨chosen, rest, hperm, hR⟩ := exists_chosen hnodup hone hall
  have hrest : rest = [] := by
    have hlength := hperm.length_eq
    rw [List.length_append, hR.length_eq] at hlength
    exact List.length_eq_zero_iff.mp (by omega)
  rw [hrest, List.append_nil] at hperm
  exact (Matched.of_forall₂ hR).perm_left hperm

end Lib
