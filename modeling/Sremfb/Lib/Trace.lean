import Mathlib.Data.List.Induction
import Sremfb.Lib.Run

/-!
# Properties of growing traces

A trace is a list that only grows at its end.  `Always C` says that every entry of a trace is
in order given the entries before it, and `Since p q` asks whether the trace has an entry
accepted by `p` with none accepted by `q` after it: the two operators of past-time temporal
logic that grammars of event sequences are written with.

Both are maintained one entry at a time (`always_snoc`, `since_snoc`), so an invariant that
speaks of a whole trace costs one step lemma.  `since_iff` is the meaning of `Since` in terms of
the trace itself.
-/

namespace Lib

variable {α : Type*}

/-- Every entry of the trace meets `C`, which sees the entries before it. -/
def Always (C : List α → α → Prop) (l : List α) : Prop :=
  ∀ past x future, l = past ++ x :: future → C past x

lemma always_nil (C : List α → α → Prop) : Always C [] := by
  intro past x future h
  simp at h

lemma always_snoc {C : List α → α → Prop} {l : List α} {x : α} :
    Always C (l ++ [x]) ↔ Always C l ∧ C l x := by
  constructor
  · intro h
    refine ⟨fun past y future hl => h past y (future ++ [x]) ?_, h l x [] rfl⟩
    rw [hl, List.append_assoc, List.cons_append]
  · rintro ⟨hl, hx⟩ past y future h
    rcases List.eq_nil_or_concat future with rfl | ⟨future, z, rfl⟩
    · obtain ⟨rfl, hxy⟩ := List.append_inj' h rfl
      obtain rfl := (List.cons.inj hxy).1
      exact hx
    · have h' : l ++ [x] = (past ++ y :: future) ++ [z] := by
        rw [h, List.concat_eq_append, List.append_assoc, List.cons_append]
      exact hl past y future (List.append_inj' h' rfl).1

lemma Always.getElem? {C : List α → α → Prop} {l : List α} (h : Always C l) {i : ℕ} {x : α}
    (hx : l[i]? = some x) : C (l.take i) x := by
  obtain ⟨hi, rfl⟩ := List.getElem?_eq_some_iff.mp hx
  exact h (l.take i) l[i] (l.drop (i + 1)) (by simp)

/-- What a condition needs to know of the past can be kept while reading on. -/
lemma always_iff_along {σ : Type*} {ok : σ → α → Prop} {step : σ → α → σ} {s : σ} {l : List α} :
    Always (fun past x => ok (run step s past) x) l ↔ Along ok step s l := by
  induction l using List.reverseRecOn with
  | nil => exact iff_of_true (always_nil _) trivial
  | append_singleton l x ih =>
      rw [always_snoc, along_append, ih]
      exact and_congr_right fun _ => (and_iff_left trivial).symm

/-- There is an entry accepted by `p` and none accepted by `q` after it. -/
def Since (p q : α → Bool) (l : List α) : Bool := l.foldl (fun b x => p x || b && !q x) false

@[simp] lemma since_nil (p q : α → Bool) : Since p q [] = false := rfl

@[simp] lemma since_snoc (p q : α → Bool) (l : List α) (x : α) :
    Since p q (l ++ [x]) = (p x || Since p q l && !q x) := by
  simp [Since]

/-- **The meaning of `Since`.** -/
lemma since_iff {p q : α → Bool} {l : List α} : Since p q l = true ↔
    ∃ past x after, l = past ++ x :: after ∧ p x = true ∧ ∀ y ∈ after, q y = false := by
  induction l using List.reverseRecOn with
  | nil => simp
  | append_singleton l z ih =>
      rw [since_snoc, Bool.or_eq_true, Bool.and_eq_true, ih]
      constructor
      · rintro (hz | ⟨⟨past, x, after, rfl, hx, hafter⟩, hz⟩)
        · exact ⟨l, z, [], rfl, hz, by simp⟩
        · refine ⟨past, x, after ++ [z], by simp, hx, fun y hy => ?_⟩
          rcases List.mem_append.mp hy with hy | hy
          · exact hafter y hy
          · rw [List.mem_singleton.mp hy]
            simpa using hz
      · rintro ⟨past, x, after, h, hx, hafter⟩
        rcases List.eq_nil_or_concat after with rfl | ⟨after, y, rfl⟩
        · obtain ⟨-, hz⟩ := List.append_inj' h rfl
          exact .inl ((List.cons.inj hz).1 ▸ hx)
        · have h' : l ++ [z] = (past ++ x :: after) ++ [y] := by
            rw [h, List.concat_eq_append, List.append_assoc, List.cons_append]
          obtain ⟨rfl, hz⟩ := List.append_inj' h' rfl
          obtain rfl := (List.cons.inj hz).1
          refine .inr ⟨⟨past, x, after, rfl, hx, fun w hw => hafter w ?_⟩, ?_⟩
          · simp [hw]
          · simpa using hafter z (by simp)

end Lib
