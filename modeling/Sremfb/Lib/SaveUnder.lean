import Sremfb.Lib.Rect

/-!
# Drawing over a picture and taking it back

A picture gives a value to every pixel.  `overlay` changes the pixels of a rectangle, `save` packs
what the rectangle covers row by row into a linear buffer, and `restore` writes such a buffer back
at a rectangle of the same place.  `restore_overlay` is the protocol: what was saved before
drawing and is written back after it leaves the picture as it was.

`rewrite` is the other kind of change: some rectangles of the picture are replaced by those of
another one.  `rewrite_eq` is the rule of incremental repainting: rectangles that hold every pixel
where the two pictures differ make the second picture out of the first.
-/

namespace Lib

variable {α : Type*}

namespace Rect

/-- The place of a pixel in the packed rows of the rectangle. -/
def offset (r : Rect) (x y : ℤ) : ℕ :=
  (y - r.y1).toNat * (r.x2 - r.x1).toNat + (x - r.x1).toNat

end Rect

/-- The picture with `op` applied to the pixels of the rectangle. -/
def overlay (f : ℤ → ℤ → α) (r : Rect) (op : ℤ → ℤ → α → α) : ℤ → ℤ → α := fun x y =>
  if r.Mem x y then op x y (f x y) else f x y

/-- The buffer after the pixels of the rectangle were packed into it. -/
def save (f : ℤ → ℤ → α) (r : Rect) (buf : ℕ → α) : ℕ → α := fun i =>
  if i < (r.x2 - r.x1).toNat * (r.y2 - r.y1).toNat then
    f (r.x1 + (i % (r.x2 - r.x1).toNat : ℕ)) (r.y1 + (i / (r.x2 - r.x1).toNat : ℕ))
  else buf i

/-- The picture with the packed pixels written back. -/
def restore (f : ℤ → ℤ → α) (r : Rect) (buf : ℕ → α) : ℤ → ℤ → α := fun x y =>
  if r.Mem x y then buf (r.offset x y) else f x y

/-- The picture with the rectangles replaced by those of `g`. -/
def rewrite (f g : ℤ → ℤ → α) (rects : List Rect) : ℤ → ℤ → α := fun x y =>
  if ∃ r ∈ rects, r.Mem x y then g x y else f x y

lemma overlay_of_not_mem {f : ℤ → ℤ → α} {r : Rect} {op : ℤ → ℤ → α → α} {x y : ℤ}
    (h : ¬r.Mem x y) : overlay f r op x y = f x y := if_neg h

lemma rewrite_of_not_mem {f g : ℤ → ℤ → α} {rects : List Rect} {x y : ℤ}
    (h : ¬∃ r ∈ rects, r.Mem x y) : rewrite f g rects x y = f x y := if_neg h

lemma rewrite_nil (f g : ℤ → ℤ → α) : rewrite f g [] = f := by
  funext x y
  exact rewrite_of_not_mem (by simp)

lemma rewrite_cons (f g : ℤ → ℤ → α) (r : Rect) (rects : List Rect) :
    rewrite (rewrite f g [r]) g rects = rewrite f g (r :: rects) := by
  funext x y
  by_cases hr : r.Mem x y
  · simp [rewrite, hr]
  · simp [rewrite, hr]

lemma rewrite_apply_eq {f g : ℤ → ℤ → α} {rects : List Rect} {x y : ℤ}
    (h : f x y ≠ g x y → ∃ r ∈ rects, r.Mem x y) : rewrite f g rects x y = g x y := by
  by_cases hm : ∃ r ∈ rects, r.Mem x y
  · exact if_pos hm
  · rw [rewrite_of_not_mem hm]
    by_contra hne
    exact hm (h hne)

/-- **Incremental repainting.**  Rectangles that hold every difference leave none. -/
theorem rewrite_eq {f g : ℤ → ℤ → α} {rects : List Rect}
    (h : ∀ x y, f x y ≠ g x y → ∃ r ∈ rects, r.Mem x y) : rewrite f g rects = g := by
  funext x y
  exact rewrite_apply_eq (h x y)

/-- The packed rows hold every pixel of the rectangle at its place. -/
lemma save_offset (f : ℤ → ℤ → α) {r : Rect} (buf : ℕ → α) {x y : ℤ} (h : r.Mem x y) :
    save f r buf (r.offset x y) = f x y := by
  obtain ⟨hx₁, hx₂, hy₁, hy₂⟩ := h
  set w := (r.x2 - r.x1).toNat with hw
  set i := (x - r.x1).toNat with hi
  set j := (y - r.y1).toNat with hj
  have hiw : i < w := by omega
  have hjh : j < (r.y2 - r.y1).toNat := by omega
  have hoff : r.offset x y = i + j * w := Nat.add_comm _ _
  have hlt : r.offset x y < w * (r.y2 - r.y1).toNat := by
    calc r.offset x y = j * w + i := rfl
      _ < j * w + w := by omega
      _ = w * (j + 1) := by rw [Nat.mul_succ, Nat.mul_comm]
      _ ≤ w * (r.y2 - r.y1).toNat := Nat.mul_le_mul_left w hjh
  have hmod : r.offset x y % w = i := by
    rw [hoff, Nat.add_mul_mod_self_right, Nat.mod_eq_of_lt hiw]
  have hdiv : r.offset x y / w = j := by
    rw [hoff, Nat.add_mul_div_right _ _ (by omega), Nat.div_eq_of_lt hiw, Nat.zero_add]
  rw [save, if_pos hlt, hmod, hdiv]
  congr <;> omega

/-- **Save, draw, restore.**  A buffer that holds what was drawn over takes the drawing back. -/
theorem restore_overlay {f : ℤ → ℤ → α} {r : Rect} {op : ℤ → ℤ → α → α} {buf : ℕ → α}
    (h : ∀ x y, r.Mem x y → buf (r.offset x y) = f x y) : restore (overlay f r op) r buf = f := by
  funext x y
  by_cases hm : r.Mem x y
  · rw [restore, if_pos hm, h x y hm]
  · rw [restore, if_neg hm, overlay_of_not_mem hm]

end Lib
