import Mathlib.Data.List.TakeWhile
import Mathlib.Data.Nat.Notation
import Mathlib.Tactic.Linarith
import Mathlib.Tactic.SplitIfs

/-!
# Numbers and words in a text file

What a C program uses to keep a small table in a text file: lines (`unlines`, `gStrsplit`), a
number at the front of a text as `strtol` reads it into an `int` (`scanInt`), and a word of bounded
length (`scanWord`).

Reading is total, as in C: what is not a number is none, a number too large is cut off as `strtol`
and the conversion to `int` do it, and a text ends at its first NUL.  Writing and reading back is
stated for texts that are lines, and for numbers that an `int` holds (`gStrsplit_unlines`,
`scanInt_toDigits`).
-/

namespace Lib

/-! ## Lines -/

/-- The part of a buffer that is a C string. -/
def cString (s : List Char) : List Char := s.takeWhile (· ≠ Char.ofNat 0)

/-- Each line with its end. -/
def unlines (ls : List (List Char)) : List Char := ls.flatMap (· ++ ['\n'])

/-- `g_strsplit(s, "\n", -1)`. -/
def gStrsplit (s : List Char) : List (List Char) := if s = [] then [] else s.splitOn '\n'

lemma splitOn_unlines {ls : List (List Char)} (h : ∀ l ∈ ls, '\n' ∉ l) :
    (unlines ls).splitOn '\n' = ls ++ [[]] := by
  induction ls with
  | nil => rfl
  | cons l ls ih =>
      obtain ⟨hl, hls⟩ := List.forall_mem_cons.mp h
      have happ : unlines (l :: ls) = l ++ '\n' :: unlines ls := by simp [unlines]
      rw [happ, List.splitOn_append_cons_self, List.splitOn_eq_singleton hl, ih hls]
      rfl

/-- A text of lines comes back as these, and the empty text after the last. -/
lemma gStrsplit_unlines {ls : List (List Char)} (h : ∀ l ∈ ls, '\n' ∉ l) (hne : ls ≠ []) :
    gStrsplit (unlines ls) = ls ++ [[]] := by
  have htext : unlines ls ≠ [] := by
    cases ls with
    | nil => exact absurd rfl hne
    | cons l ls => simp [unlines]
  rw [gStrsplit, if_neg htext, splitOn_unlines h]

lemma cString_eq {s : List Char} (h : Char.ofNat 0 ∉ s) : cString s = s := by
  rw [cString, List.takeWhile_eq_self_iff]
  intro c hc
  simp only [ne_eq, decide_eq_true_eq]
  rintro rfl
  exact h hc

lemma not_mem_cString (s : List Char) : Char.ofNat 0 ∉ cString s := fun h => by
  simpa using List.mem_takeWhile_imp h

/-- A C string as a value of its own: it holds no NUL. -/
abbrev CStr := {s : List Char // Char.ofNat 0 ∉ s}

/-- A buffer read as a C string. -/
def toCStr (s : List Char) : CStr := ⟨cString s, not_mem_cString s⟩

/-- A piece of a text split at `c` is made of characters of the text other than `c`. -/
lemma of_mem_splitOn {c x : Char} {s l : List Char} (hl : l ∈ s.splitOn c) (hx : x ∈ l) :
    x ≠ c ∧ x ∈ s := by
  induction s generalizing l with
  | nil =>
      rw [List.splitOn_nil, List.mem_singleton] at hl
      rw [hl] at hx
      exact (List.not_mem_nil hx).elim
  | cons y s ih =>
      rw [List.splitOn_cons_eq_if_modifyHead] at hl
      split at hl <;> rename_i hy
      · rcases List.mem_cons.mp hl with rfl | hl
        · exact (List.not_mem_nil hx).elim
        · exact ⟨(ih hl hx).1, List.mem_cons_of_mem _ (ih hl hx).2⟩
      · obtain ⟨first, rest, hsplit⟩ := List.exists_cons_of_ne_nil (List.splitOn_ne_nil c s)
        rw [hsplit] at ih hl
        rcases List.mem_cons.mp hl with rfl | hl
        · rcases List.mem_cons.mp hx with rfl | hx
          · exact ⟨by simpa using hy, List.mem_cons_self ..⟩
          · have hold := ih (List.mem_cons_self ..) hx
            exact ⟨hold.1, List.mem_cons_of_mem _ hold.2⟩
        · have hold := ih (List.mem_cons_of_mem _ hl) hx
          exact ⟨hold.1, List.mem_cons_of_mem _ hold.2⟩

/-- A line of a text holds neither a line end nor a NUL. -/
lemma of_mem_gStrsplit {s : CStr} {l : List Char} (hl : l ∈ gStrsplit s.1) :
    '\n' ∉ l ∧ Char.ofNat 0 ∉ l := by
  unfold gStrsplit at hl
  split at hl
  · exact (List.not_mem_nil hl).elim
  · exact ⟨fun h => (of_mem_splitOn hl h).1 rfl, fun h => s.2 (of_mem_splitOn hl h).2⟩

/-! ## Fields -/

/-- A text cut at the first `n` separators. -/
def cutAt (c : Char) : ℕ → List Char → List (List Char)
  | 0, s => [s]
  | n + 1, s =>
      match s.dropWhile (· ≠ c) with
      | [] => [s]
      | _ :: rest => s.takeWhile (· ≠ c) :: cutAt c n rest

/-- `g_strsplit(s, delimiter, n)` with a delimiter of one character. -/
def gStrsplitMax (c : Char) (n : ℕ) (s : List Char) : List (List Char) :=
  if s = [] then [] else cutAt c (n - 1) s

lemma cutAt_append {c : Char} {a : List Char} (ha : c ∉ a) (n : ℕ) (rest : List Char) :
    cutAt c (n + 1) (a ++ c :: rest) = a :: cutAt c n rest := by
  have hne : ∀ x ∈ a, decide (x ≠ c) = true := fun x hx => by
    rw [decide_eq_true_eq]
    rintro rfl
    exact ha hx
  rw [cutAt, List.dropWhile_append_of_pos hne, List.dropWhile_cons_of_neg (by simp),
    List.takeWhile_append_of_pos hne, List.takeWhile_cons_of_neg (by simp), List.append_nil]

/-! ## Numbers -/

/-- `isspace` in the C locale. -/
def isSpace (c : Char) : Bool := c = ' ' || (9 ≤ c.toNat && c.toNat ≤ 13)

def skipSpace (s : List Char) : List Char := s.dropWhile isSpace

/-- A number as it lands in an `int` by way of a `long`. -/
def toInt (v : ℤ) : ℤ := (max (-2 ^ 63) (min v (2 ^ 63 - 1))).bmod (2 ^ 32)

lemma toInt_of_lt {n : ℕ} (h : n < 2 ^ 31) : toInt n = n := by
  have hclamp : max (-2 ^ 63) (min (n : ℤ) (2 ^ 63 - 1)) = n := by omega
  rw [toInt, hclamp, Int.bmod_def]
  omega

/-- The sign in front of a number. -/
def scanSign : List Char → Bool × List Char
  | '-' :: s => (true, s)
  | '+' :: s => (false, s)
  | s => (false, s)

/-- The number at the front of a text, and what follows it. -/
def scanInt (s : List Char) : Option (ℤ × List Char) :=
  let (neg, s) := scanSign (skipSpace s)
  let ds := s.takeWhile Char.isDigit
  if ds = [] then none
  else
    let n : ℤ := Nat.ofDigitChars 10 ds 0
    some (toInt (if neg then -n else n), s.dropWhile Char.isDigit)

/-- `atoi`. -/
def atoi (s : List Char) : ℤ := ((scanInt s).map Prod.fst).getD 0

/-- The next word, of at most `n` characters: `%ns` of `sscanf`. -/
def scanWord (n : ℕ) (s : List Char) : Option (List Char) :=
  let w := ((skipSpace s).takeWhile fun c => !isSpace c).take n
  if w = [] then none else some w

lemma not_isSpace_of_isDigit {c : Char} (h : c.isDigit = true) : isSpace c = false := by
  have hc : 48 ≤ c.toNat ∧ c.toNat ≤ 57 := by
    simpa [Char.isDigit, UInt32.le_iff_toNat_le] using h
  have hne : c ≠ ' ' := by
    rintro rfl
    simp at hc
  simp only [isSpace, hne, decide_false, Bool.false_or, Bool.and_eq_false_iff, decide_eq_false_iff_not]
  omega

lemma scanSign_of_isDigit {c : Char} (h : c.isDigit = true) (s : List Char) :
    scanSign (c :: s) = (false, c :: s) := by
  unfold scanSign
  split
  · rename_i heq
    obtain ⟨rfl, -⟩ := List.cons.inj heq
    cases h
  · rename_i heq
    obtain ⟨rfl, -⟩ := List.cons.inj heq
    cases h
  · rfl

/-- **A number comes back**, when what follows does not go on with a digit. -/
lemma scanInt_toDigits {n : ℕ} (h : n < 2 ^ 31) (rest : List Char)
    (hrest : rest.head?.any Char.isDigit = false) :
    scanInt (Nat.toDigits 10 n ++ rest) = some ((n : ℤ), rest) := by
  have hdigit : ∀ c ∈ Nat.toDigits 10 n, c.isDigit = true := fun c hc =>
    Nat.isDigit_of_mem_toDigits (by decide) (by decide) hc
  have hstop : rest.takeWhile Char.isDigit = [] ∧ rest.dropWhile Char.isDigit = rest := by
    cases rest with
    | nil => exact ⟨rfl, rfl⟩
    | cons c cs =>
        have hc : c.isDigit = false := hrest
        exact ⟨by simp [hc], by simp [hc]⟩
  have hfront : scanSign (skipSpace (Nat.toDigits 10 n ++ rest)) =
      (false, Nat.toDigits 10 n ++ rest) := by
    cases hd : Nat.toDigits 10 n with
    | nil => exact absurd hd Nat.toDigits_ne_nil
    | cons c cs =>
        have hc : c.isDigit = true := hdigit c (by rw [hd]; exact List.mem_cons_self ..)
        rw [List.cons_append, skipSpace, List.dropWhile_cons_of_neg (by
          simp [not_isSpace_of_isDigit hc]), scanSign_of_isDigit hc]
  unfold scanInt
  rw [hfront]
  dsimp only
  rw [List.takeWhile_append_of_pos hdigit, List.dropWhile_append_of_pos hdigit, hstop.1, hstop.2,
    List.append_nil, if_neg Nat.toDigits_ne_nil, Nat.ofDigitChars_ten_toDigits]
  simp [toInt_of_lt h]

lemma atoi_toDigits {n : ℕ} (h : n < 2 ^ 31) : atoi (Nat.toDigits 10 n) = n := by
  have hscan := scanInt_toDigits h [] rfl
  rw [List.append_nil] at hscan
  rw [atoi, hscan]
  rfl

/-- `strtol(s, &end, 10)`: the number within the range of a `long`, and the text from `end` on. -/
def strtol (s : List Char) : ℤ × List Char :=
  let (neg, r) := scanSign (skipSpace s)
  let ds := r.takeWhile Char.isDigit
  if ds = [] then (0, s)
  else
    let n : ℤ := Nat.ofDigitChars 10 ds 0
    (max (-2 ^ 63) (min (if neg then -n else n) (2 ^ 63 - 1)), r.dropWhile Char.isDigit)

/-- White space, a sign or none, and digits. -/
def Numeral (s : List Char) (v : ℤ) : Prop :=
  ∃ w sign ds : List Char, w.all isSpace = true ∧ sign ∈ [[], ['+'], ['-']] ∧ ds ≠ [] ∧
    ds.all Char.isDigit = true ∧ s = w ++ (sign ++ ds) ∧
    v = if sign = ['-'] then -(Nat.ofDigitChars 10 ds 0 : ℤ) else Nat.ofDigitChars 10 ds 0

lemma scanSign_spec (s : List Char) : ∃ sign ∈ [[], ['+'], ['-']],
    s = sign ++ (scanSign s).2 ∧ (scanSign s).1 = decide (sign = ['-']) := by
  unfold scanSign
  split
  · exact ⟨['-'], by simp, rfl, rfl⟩
  · exact ⟨['+'], by simp, rfl, rfl⟩
  · exact ⟨[], by simp, rfl, rfl⟩

lemma scanSign_append {sign ds : List Char} (hsign : sign ∈ [[], ['+'], ['-']]) (hne : ds ≠ [])
    (hds : ds.all Char.isDigit = true) :
    scanSign (sign ++ ds) = (decide (sign = ['-']), ds) := by
  obtain ⟨c, cs, rfl⟩ := List.exists_cons_of_ne_nil hne
  have hc : c.isDigit = true := (Bool.and_eq_true _ _ ▸ hds).1
  simp only [List.mem_cons, List.not_mem_nil, or_false] at hsign
  rcases hsign with rfl | rfl | rfl
  · exact scanSign_of_isDigit hc cs
  · rfl
  · rfl

lemma skipSpace_append {w s : List Char} (hw : w.all isSpace = true)
    (hs : s.head?.any isSpace = false) : skipSpace (w ++ s) = s := by
  rw [skipSpace, List.dropWhile_append_of_pos (List.all_eq_true.mp hw)]
  cases s with
  | nil => rfl
  | cons c cs => exact List.dropWhile_cons_of_neg (by simpa using hs)

/-- A signed run of digits does not begin with white space. -/
lemma head_sign_append {sign ds : List Char} (hsign : sign ∈ [[], ['+'], ['-']]) (hne : ds ≠ [])
    (hds : ds.all Char.isDigit = true) : (sign ++ ds).head?.any isSpace = false := by
  obtain ⟨c, cs, rfl⟩ := List.exists_cons_of_ne_nil hne
  have hc : c.isDigit = true := (Bool.and_eq_true _ _ ▸ hds).1
  simp only [List.mem_cons, List.not_mem_nil, or_false] at hsign
  rcases hsign with rfl | rfl | rfl
  · exact not_isSpace_of_isDigit hc
  · rfl
  · rfl

/-- **`strtol` reads a numeral to its end**, but also the empty text. -/
lemma strtol_end_iff {s : List Char} {v : ℤ} (hlow : -2 ^ 63 < v) (hhigh : v < 2 ^ 63 - 1) :
    strtol s = (v, []) ↔ (s = [] ∧ v = 0) ∨ Numeral s v := by
  constructor
  · intro h
    obtain ⟨sign, hsign, hsplit, hneg⟩ := scanSign_spec (skipSpace s)
    unfold strtol at h
    generalize scanSign (skipSpace s) = q at h hsplit hneg
    obtain ⟨neg, r⟩ := q
    dsimp only at h hsplit hneg
    split at h <;> rename_i hds
    · obtain ⟨hv, hs⟩ := Prod.mk.inj h
      exact Or.inl ⟨hs, hv.symm⟩
    · obtain ⟨hv, hend⟩ := Prod.mk.inj h
      have hall : r.takeWhile Char.isDigit = r := by
        have happ := @List.takeWhile_append_dropWhile _ Char.isDigit r
        rwa [hend, List.append_nil] at happ
      rw [hall] at hv hds
      refine Or.inr ⟨s.takeWhile isSpace, sign, r, ?_, hsign, hds, ?_, ?_, ?_⟩
      · exact List.all_takeWhile
      · exact List.all_eq_true.mpr (List.takeWhile_eq_self_iff.mp hall)
      · rw [← hsplit, skipSpace, List.takeWhile_append_dropWhile]
      · simp only [hneg, decide_eq_true_eq] at hv
        split at hv <;> rename_i hs
        · rw [if_pos hs]
          omega
        · rw [if_neg hs]
          omega
  · rintro (⟨rfl, rfl⟩ | ⟨w, sign, ds, hw, hsign, hne, hds, rfl, rfl⟩)
    · rfl
    · have htake : ds.takeWhile Char.isDigit = ds :=
        List.takeWhile_eq_self_iff.mpr (List.all_eq_true.mp hds)
      have hdrop : ds.dropWhile Char.isDigit = [] :=
        List.dropWhile_eq_nil_iff.mpr (List.all_eq_true.mp hds)
      unfold strtol
      rw [skipSpace_append hw (head_sign_append hsign hne hds), scanSign_append hsign hne hds]
      dsimp only
      rw [htake, hdrop, if_neg hne]
      simp only [decide_eq_true_eq, Prod.mk.injEq, and_true]
      omega

/-- A numeral that begins with a digit has neither white space nor a sign. -/
lemma Numeral.digits {t : List Char} {v : ℤ} (h : Numeral t v)
    (hled : t.head?.any Char.isDigit = true) :
    t ≠ [] ∧ t.all Char.isDigit = true ∧ v = Nat.ofDigitChars 10 t 0 := by
  obtain ⟨w, sign, ds, hw, hsign, hne, hds, rfl, rfl⟩ := h
  cases w with
  | cons c cs =>
      have hspace : isSpace c = true := (Bool.and_eq_true _ _ ▸ hw).1
      rw [not_isSpace_of_isDigit hled] at hspace
      cases hspace
  | nil =>
      simp only [List.mem_cons, List.not_mem_nil, or_false] at hsign
      rcases hsign with rfl | rfl | rfl
      · exact ⟨hne, hds, by simp⟩
      · cases hled
      · cases hled

/-- Neither a line end nor a NUL is a digit. -/
lemma not_mem_toDigits {c : Char} (h : c.isDigit = false) (n : ℕ) : c ∉ Nat.toDigits 10 n := by
  intro hc
  rw [Nat.isDigit_of_mem_toDigits (by decide) (by decide) hc] at h
  cases h

end Lib
