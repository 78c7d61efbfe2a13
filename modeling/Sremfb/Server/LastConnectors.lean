import Sremfb.Lib.Text

/-!
# The connector a screen had last (`layout.c`)

A client's virtual screen keeps its identity, a serial number and a product name, while the name
of its connector changes with the card.  The connector last in use is kept in a text file, a line
`serial TAB product TAB connector` for each identity.  `last_get` takes the last line of an
identity; `last_set` copies the lines of the others that have three fields, and adds one.

`last_store_law` says that this is a store: what was set is got back, and nothing else changes,
whatever the file held.
-/

namespace Sremfb

open Lib

/-- A mode of a monitor: its id, its size and its rate. -/
structure MonMode where
  id : List Char
  width : ℤ
  height : ℤ
  rate : ℚ
  deriving DecidableEq

/-- `Mon`. -/
structure Mon where
  connector : CStr
  vendor : CStr
  product : CStr
  serial : CStr
  modes : List MonMode := []
  deriving DecidableEq

/-- The serial number, the product and the connector of a line that has three fields. -/
def lineFields (l : List Char) : Option ((List Char × List Char) × List Char) :=
  match gStrsplitMax '\t' 3 l with
  | [serial, product, connector] => some ((serial, product), connector)
  | _ => none

/-- What the file is looked up by. -/
def Mon.key (m : Mon) : List Char × List Char := (m.serial.1, m.product.1)

/-- The lines of the file, which need not be there. -/
def fileLines (file : Option (List Char)) : List (List Char) :=
  file.elim [] fun txt => gStrsplit (toCStr txt).1

/-- One round of the loop of `last_get`. -/
def getLine (m : Mon) (found : Option (List Char)) (l : List Char) : Option (List Char) :=
  match lineFields l with
  | some (key, connector) => if key = m.key then some connector else found
  | none => found

/-- `last_get`. -/
def lastGet (file : Option (List Char)) (m : Mon) : Option (List Char) :=
  (fileLines file).foldl (getLine m) none

/-- One round of the loop of `last_set`. -/
def setLine (m : Mon) (out : List Char) (l : List Char) : List Char :=
  match lineFields l with
  | some (key, _) => if key ≠ m.key then out ++ (l ++ ['\n']) else out
  | none => out

/-- The line of a monitor. -/
def Mon.line (m : Mon) : List Char := m.serial.1 ++ '\t' :: (m.product.1 ++ '\t' :: m.connector.1)

/-- `last_set`: what is written to the file. -/
def lastSet (file : Option (List Char)) (m : Mon) : List Char :=
  (fileLines file).foldl (setLine m) [] ++ (m.line ++ ['\n'])

/-! ## What is written -/

/-- The line is copied: it has three fields, and is of another identity. -/
def Mon.keeps (m : Mon) (l : List Char) : Bool := (lineFields l).any fun f => f.1 ≠ m.key

lemma setLine_eq (m : Mon) (out l : List Char) :
    setLine m out l = if m.keeps l then out ++ (l ++ ['\n']) else out := by
  unfold setLine Mon.keeps
  cases lineFields l with
  | none => rfl
  | some f => simp

lemma foldl_setLine (m : Mon) (ls : List (List Char)) (out : List Char) :
    ls.foldl (setLine m) out = out ++ unlines (ls.filter m.keeps) := by
  induction ls generalizing out with
  | nil => simp [unlines]
  | cons l ls ih =>
      rw [List.foldl_cons, ih, setLine_eq]
      cases hl : m.keeps l with
      | true => simp [hl, unlines]
      | false => simp [hl]

lemma lastSet_eq (file : Option (List Char)) (m : Mon) :
    lastSet file m = unlines ((fileLines file).filter m.keeps ++ [m.line]) := by
  rw [lastSet, foldl_setLine]
  simp [unlines]

/-- A monitor whose line can be read back. -/
structure Mon.OneLine (m : Mon) : Prop where
  serial : '\t' ∉ m.serial.1 ∧ '\n' ∉ m.serial.1
  product : '\t' ∉ m.product.1 ∧ '\n' ∉ m.product.1
  connector : '\n' ∉ m.connector.1

variable {m : Mon} {file : Option (List Char)}

lemma Mon.OneLine.lineFields (h : m.OneLine) :
    lineFields m.line = some (m.key, m.connector.1) := by
  have hne : m.line ≠ [] := by simp [Mon.line]
  rw [Sremfb.lineFields, gStrsplitMax, if_neg hne, Mon.line, cutAt_append h.serial.1,
    cutAt_append h.product.1]
  rfl

lemma Mon.OneLine.plain (h : m.OneLine) : '\n' ∉ m.line ∧ Char.ofNat 0 ∉ m.line := by
  have hline : ∀ x ∈ m.line, x = '\t' ∨ x ∈ m.serial.1 ∨ x ∈ m.product.1 ∨ x ∈ m.connector.1 := by
    intro x hx
    simp only [Mon.line, List.mem_append, List.mem_cons] at hx
    tauto
  constructor
  · intro hx
    rcases hline _ hx with h' | h' | h' | h'
    · cases h'
    · exact h.serial.2 h'
    · exact h.product.2 h'
    · exact h.connector h'
  · intro hx
    rcases hline _ hx with h' | h' | h' | h'
    · cases h'
    · exact m.serial.2 h'
    · exact m.product.2 h'
    · exact m.connector.2 h'

lemma fileLines_some (txt : List Char) : fileLines (some txt) = gStrsplit (cString txt) := rfl

lemma of_mem_fileLines {l : List Char} (hl : l ∈ fileLines file) : '\n' ∉ l ∧ Char.ofNat 0 ∉ l := by
  cases file with
  | none => exact (List.not_mem_nil hl).elim
  | some txt => exact of_mem_gStrsplit hl

/-- **The file that was written**, line by line. -/
lemma fileLines_lastSet (h : m.OneLine) :
    fileLines (some (lastSet file m)) = (fileLines file).filter m.keeps ++ [m.line] ++ [[]] := by
  have hlines : ∀ l ∈ (fileLines file).filter m.keeps ++ [m.line],
      '\n' ∉ l ∧ Char.ofNat 0 ∉ l := by
    intro l hl
    rcases List.mem_append.mp hl with hold | hnew
    · exact of_mem_fileLines (List.mem_filter.mp hold).1
    · rw [List.mem_singleton] at hnew
      rw [hnew]
      exact h.plain
  have hnul : Char.ofNat 0 ∉ unlines ((fileLines file).filter m.keeps ++ [m.line]) := by
    intro hmem
    obtain ⟨l, hl, hx⟩ := List.mem_flatMap.mp hmem
    rcases List.mem_append.mp hx with hx | hx
    · exact (hlines l hl).2 hx
    · simp at hx
  rw [lastSet_eq, fileLines_some, cString_eq hnul]
  exact gStrsplit_unlines (fun l hl => (hlines l hl).1) (by simp)

/-! ## The law of the store -/

/-- The lines that are dropped are not of another identity. -/
lemma foldl_getLine_filter {m' : Mon} (hkey : m'.key ≠ m.key) (ls : List (List Char))
    (found : Option (List Char)) :
    (ls.filter m.keeps).foldl (getLine m') found = ls.foldl (getLine m') found := by
  induction ls generalizing found with
  | nil => rfl
  | cons l ls ih =>
      cases hl : m.keeps l with
      | true =>
          rw [List.filter_cons_of_pos hl, List.foldl_cons, List.foldl_cons, ih]
      | false =>
          have hskip : getLine m' found l = found := by
            unfold getLine Mon.keeps at *
            cases hf : Sremfb.lineFields l with
            | none => rfl
            | some f =>
                rw [hf] at hl
                have hown : f.1 = m.key := by simpa using hl
                exact if_neg fun h => hkey (h.symm.trans hown)
          rw [List.filter_cons_of_neg (by simp [hl]), List.foldl_cons, hskip, ih]

/-- **The store law.**  After `last_set` of a monitor, `last_get` of its identity is its connector,
and of any other what it was. -/
theorem last_store_law (file : Option (List Char)) {m : Mon} (h : m.OneLine) (m' : Mon) :
    lastGet (some (lastSet file m)) m' =
      if m'.serial = m.serial ∧ m'.product = m.product then some m.connector.1
      else lastGet file m' := by
  have hkey : m'.serial = m.serial ∧ m'.product = m.product ↔ m.key = m'.key := by
    rw [Mon.key, Mon.key, Prod.mk.injEq, eq_comm, @eq_comm _ m'.product, Subtype.ext_iff,
      Subtype.ext_iff]
  have hempty : ∀ found, getLine m' found [] = found := fun _ => rfl
  rw [lastGet, fileLines_lastSet h, List.foldl_append, List.foldl_append, List.foldl_cons,
    List.foldl_nil, List.foldl_cons, List.foldl_nil, hempty]
  simp only [hkey]
  conv_lhs => rw [getLine, h.lineFields]
  dsimp only
  by_cases hsame : m.key = m'.key
  · rw [if_pos hsame, if_pos hsame]
  · rw [if_neg hsame, if_neg hsame, foldl_getLine_filter (Ne.symm hsame)]
    rfl

/-- A file with a line of two fields and two lines of the identity, set anew. -/
theorem last_store_dvi :
    lastGet (some (lastSet (some "7\tscreen\tDVI-I-1\n7\tscreen\n\n7\tscreen\tDVI-I-2".toList)
      ⟨toCStr "DVI-I-13".toList, toCStr [], toCStr "screen".toList, toCStr ['7'], []⟩))
      ⟨toCStr "DVI-I-2".toList, toCStr [], toCStr "screen".toList, toCStr ['7'], []⟩ =
      some "DVI-I-13".toList :=
  (last_store_law _ ⟨by decide, by decide, by decide⟩ _).trans (if_pos ⟨rfl, rfl⟩)

end Sremfb
