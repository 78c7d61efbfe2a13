import Sremfb.Lib.Block

/-!
# Several copies into one buffer

`patch` makes a list of `memcpy`s, in order.  What the copies cover does not depend on the buffer
under them, and what they leave out is the buffer's (`patch_of_not_covers`,
`patch_eq_of_covers`), so two buffers look the same afterwards exactly when they agreed outside
the copies (`patch_eq_patch_iff`).
-/

namespace Lib

variable {α : Type*}

/-- The copies `ws`, each an offset and what goes there, made one after the other. -/
def patch (buf : ℕ → α) (ws : List (ℕ × List α)) : ℕ → α :=
  ws.foldl (fun b w => blit b w.1 w.2) buf

/-- One of the copies goes over the offset. -/
def Covers (ws : List (ℕ × List α)) (i : ℕ) : Prop := ∃ w ∈ ws, w.1 ≤ i ∧ i < w.1 + w.2.length

@[simp] lemma patch_nil (buf : ℕ → α) : patch buf [] = buf := rfl

@[simp] lemma patch_cons (buf : ℕ → α) (w : ℕ × List α) (ws : List (ℕ × List α)) :
    patch buf (w :: ws) = patch (blit buf w.1 w.2) ws := rfl

lemma patch_append (buf : ℕ → α) (ws ws' : List (ℕ × List α)) :
    patch buf (ws ++ ws') = patch (patch buf ws) ws' := List.foldl_append

lemma covers_cons {w : ℕ × List α} {ws : List (ℕ × List α)} {i : ℕ} :
    Covers (w :: ws) i ↔ (w.1 ≤ i ∧ i < w.1 + w.2.length) ∨ Covers ws i := by
  simp [Covers]

/-- Whether a copy goes over an offset, and what it leaves there, is seen at that offset. -/
lemma blit_eq_of_eq {a b : ℕ → α} {i : ℕ} (h : a i = b i) (off : ℕ) (src : List α) :
    blit a off src i = blit b off src i := by
  simp only [blit, h]

lemma blit_eq_of_covers {i off : ℕ} {src : List α} (hle : off ≤ i) (hlt : i < off + src.length)
    (a b : ℕ → α) : blit a off src i = blit b off src i := by
  obtain ⟨j, rfl⟩ := Nat.exists_eq_add_of_le hle
  rw [blit_add (by omega), blit_add (by omega)]

lemma patch_eq_of_eq {a b : ℕ → α} {i : ℕ} (h : a i = b i) (ws : List (ℕ × List α)) :
    patch a ws i = patch b ws i := by
  induction ws generalizing a b with
  | nil => exact h
  | cons w ws ih => exact ih (blit_eq_of_eq h w.1 w.2)

lemma patch_of_not_covers {ws : List (ℕ × List α)} {i : ℕ} (h : ¬Covers ws i) (buf : ℕ → α) :
    patch buf ws i = buf i := by
  induction ws generalizing buf with
  | nil => rfl
  | cons w ws ih =>
      rw [covers_cons, not_or] at h
      rw [patch_cons, ih h.2]
      by_cases hle : w.1 ≤ i
      · exact blit_of_le (by omega)
      · exact blit_of_lt (by omega)

lemma patch_eq_of_covers {ws : List (ℕ × List α)} {i : ℕ} (h : Covers ws i) (a b : ℕ → α) :
    patch a ws i = patch b ws i := by
  induction ws generalizing a b with
  | nil =>
      obtain ⟨w, hw, -⟩ := h
      exact absurd hw List.not_mem_nil
  | cons w ws ih =>
      rcases covers_cons.mp h with ⟨hle, hlt⟩ | hws
      · exact patch_eq_of_eq (blit_eq_of_covers hle hlt a b) ws
      · exact ih hws _ _

/-- **What the copies hide.** -/
theorem patch_eq_patch_iff {a b : ℕ → α} {ws : List (ℕ × List α)} :
    patch a ws = patch b ws ↔ ∀ i, ¬Covers ws i → a i = b i := by
  constructor
  · intro h i hi
    rw [← patch_of_not_covers hi a, h, patch_of_not_covers hi]
  · intro h
    funext i
    by_cases hi : Covers ws i
    · exact patch_eq_of_covers hi a b
    · rw [patch_of_not_covers hi, patch_of_not_covers hi]
      exact h i hi

end Lib
