import Mathlib.Data.List.FinRange
import Sremfb.Lib.Text
import Sremfb.Server.Evdi

/-!
# Card numbers the compositor knows (`evdi.c`)

The compositor refuses a card whose number it has seen before, and the kernel gives freed numbers
out again.  So the server keeps a table of the numbers it has handed out or given up on, for as
long as the same compositor runs, and keeps it in a file so that a restarted server knows too.

`Cards` is the table in memory and `CardServer` adds the file, which outlives the process.  What
the server goes by is `recorded`: the table it has, or the one it would load.  As long as the
compositor is the same that is always what the file says (`InSync`), because every change is
written at once and a file that was written reads back as the table (`cardsParse_cardsText`).

A number only ever goes from unknown to known, and dead is final (`Grown`), through either marking
rule and through the fallback that does not verify.  `evdi_add_usable` returns a number only in the
step that makes it known.
-/

namespace Sremfb

open Lib

/-- The states of a card number. -/
inductive CardState
  | unknown
  | ok
  | dead
  deriving DecidableEq, Repr

abbrev CardTable := Fin evdiMaxCards → CardState

/-- `struct K`. -/
structure Cards where
  loaded : Bool := false
  shell : ℕ := 0
  state : CardTable := fun _ => .unknown
  noVerify : Bool := false

/-- The table and its file, and the numbers returned so far by any of the server's processes. -/
structure CardServer where
  k : Cards := {}
  file : Option (List Char)
  returned : List ℕ := []

/-! ## The file -/

/-- The line `cards_save` writes for a card, if it writes one. -/
def cardRow (st : CardTable) (i : Fin evdiMaxCards) : Option (List Char) :=
  match st i with
  | .unknown => none
  | .ok => some (Nat.toDigits 10 i ++ " ok".toList)
  | .dead => some (Nat.toDigits 10 i ++ " dead".toList)

/-- The text `cards_save` writes. -/
def cardsText (k : Cards) : List Char :=
  unlines (Nat.toDigits 10 k.shell :: (List.finRange evdiMaxCards).filterMap (cardRow k.state))

/-- A line of the file after the first, `sscanf(*l, "%d %7s", ..)`. -/
def cardLine (st : CardTable) (l : List Char) : CardTable :=
  match scanInt l with
  | none => st
  | some (card, rest) =>
      match scanWord 7 rest with
      | none => st
      | some what =>
          if h : 0 ≤ card ∧ card.toNat < evdiMaxCards then
            Function.update st ⟨card.toNat, h.2⟩ (if what = "ok".toList then .ok else .dead)
          else st

/-- The table in a text, when it belongs to this compositor. -/
def cardsParse (shell : ℕ) (txt : List Char) : CardTable :=
  match gStrsplit (cString txt) with
  | [] => fun _ => .unknown
  | l :: ls => if atoi l = shell then ls.foldl cardLine fun _ => .unknown else fun _ => .unknown

/-- What the file says to a server whose compositor is `shell`. -/
def fileState (shell : ℕ) (file : Option (List Char)) : CardTable :=
  if shell = 0 then fun _ => .unknown else (file.map (cardsParse shell)).getD fun _ => .unknown

/-! ### What is written is read -/

/-- A line that was written sets the card to what it was. -/
lemma cardLine_cardRow {st t : CardTable} {i : Fin evdiMaxCards} {l : List Char}
    (h : cardRow st i = some l) : cardLine t l = Function.update t i (st i) := by
  have hsmall : (i : ℕ) < 2 ^ 31 := i.2.trans (by decide)
  have hi : 0 ≤ ((i : ℕ) : ℤ) ∧ ((i : ℕ) : ℤ).toNat < evdiMaxCards := ⟨by omega, by simp⟩
  have hword : ∀ what rest, scanWord 7 rest = some what → rest.head?.any Char.isDigit = false →
      cardLine t (Nat.toDigits 10 i ++ rest) =
        Function.update t i (if what = "ok".toList then .ok else .dead) := by
    intro what rest hscan hrest
    rw [cardLine, scanInt_toDigits hsmall rest hrest]
    simp only [hscan, hi, and_self, dif_pos]
    rfl
  cases hs : st i with
  | unknown => simp [cardRow, hs] at h
  | ok =>
      obtain rfl : Nat.toDigits 10 i ++ " ok".toList = l := by simpa [cardRow, hs] using h
      exact hword "ok".toList _ (by decide) rfl
  | dead =>
      obtain rfl : Nat.toDigits 10 i ++ " dead".toList = l := by simpa [cardRow, hs] using h
      exact hword "dead".toList _ (by decide) rfl

lemma foldl_cardRow (st t : CardTable) (is : List (Fin evdiMaxCards)) (j : Fin evdiMaxCards) :
    (is.filterMap (cardRow st)).foldl cardLine t j =
      if j ∈ is ∧ st j ≠ .unknown then st j else t j := by
  induction is generalizing t with
  | nil => simp
  | cons i is ih =>
      cases hrow : cardRow st i with
      | none =>
          have hs : st i = .unknown := by
            cases hs : st i with
            | unknown => rfl
            | ok | dead => simp [cardRow, hs] at hrow
          rw [List.filterMap_cons_none hrow, ih]
          by_cases hj : j = i
          · subst hj
            simp [hs]
          · simp [hj]
      | some l =>
          have hs : st i ≠ .unknown := fun hs => by simp [cardRow, hs] at hrow
          rw [List.filterMap_cons_some hrow, List.foldl_cons, ih, cardLine_cardRow hrow]
          by_cases hj : j = i
          · subst hj
            simp [hs]
          · simp [hj]

lemma cardRow_plain {st : CardTable} {i : Fin evdiMaxCards} {l : List Char} {c : Char}
    (h : cardRow st i = some l) (hc : c ∉ " ok dead".toList) (hd : c.isDigit = false) : c ∉ l := by
  have hn := not_mem_toDigits hd i
  have hsuffix : ∀ w : List Char, w ⊆ " ok dead".toList → c ∉ Nat.toDigits 10 i ++ w := by
    intro w hw hmem
    rcases List.mem_append.mp hmem with hmem | hmem
    · exact hn hmem
    · exact hc (hw hmem)
  cases hs : st i with
  | unknown => simp [cardRow, hs] at h
  | ok =>
      obtain rfl : Nat.toDigits 10 i ++ " ok".toList = l := by simpa [cardRow, hs] using h
      exact hsuffix _ (by decide)
  | dead =>
      obtain rfl : Nat.toDigits 10 i ++ " dead".toList = l := by simpa [cardRow, hs] using h
      exact hsuffix _ (by decide)

/-- **The file round trip.** -/
lemma cardsParse_cardsText {k : Cards} (h : k.shell < 2 ^ 31) :
    cardsParse k.shell (cardsText k) = k.state := by
  have hplain : ∀ c : Char, c ∉ " ok dead".toList → c.isDigit = false → ∀ l ∈
      Nat.toDigits 10 k.shell :: (List.finRange evdiMaxCards).filterMap (cardRow k.state),
      c ∉ l := by
    intro c hc hd l hl
    rcases List.mem_cons.mp hl with rfl | hl
    · exact not_mem_toDigits hd _
    · obtain ⟨i, -, hrow⟩ := List.mem_filterMap.mp hl
      exact cardRow_plain hrow hc hd
  have hnul : cString (cardsText k) = cardsText k := by
    refine cString_eq fun hmem => ?_
    obtain ⟨l, hl, hmem⟩ := List.mem_flatMap.mp hmem
    rcases List.mem_append.mp hmem with hmem | hmem
    · exact hplain _ (by decide) (by decide) l hl hmem
    · exact absurd hmem (by decide)
  have hlines := gStrsplit_unlines (hplain '\n' (by decide) (by decide)) (by simp)
  rw [cardsParse, hnul, cardsText, hlines]
  simp only [List.cons_append, atoi_toDigits h, if_true, List.foldl_append, List.foldl_cons,
    List.foldl_nil]
  have hlast : ∀ t, cardLine t [] = t := fun t => rfl
  rw [hlast]
  funext j
  rw [foldl_cardRow]
  by_cases hj : k.state j = .unknown
  · simp [hj]
  · simp [hj]

namespace CardServer

/-- `cards_load`; `shell` is what `compositor_pid` returns. -/
def cardsLoad (shell : ℕ) (s : CardServer) : CardServer :=
  if s.k.loaded = true ∧ s.k.shell = shell then s
  else { s with k := { loaded := true, shell := shell, state := fileState shell s.file } }

/-- `cards_save`. -/
def cardsSave (s : CardServer) : CardServer := { s with file := some (cardsText s.k) }

/-- `card_dead`. -/
def cardDead (shell : ℕ) (card : ℕ) (s : CardServer) : CardServer × Bool :=
  let s := s.cardsLoad shell
  (s, if h : card < evdiMaxCards then decide (s.k.state ⟨card, h⟩ = .dead) else false)

/-- A state is set and saved. -/
def mark (i : Fin evdiMaxCards) (st : CardState) (s : CardServer) : CardServer :=
  cardsSave { s with k := { s.k with state := Function.update s.k.state i st } }

/-- A new server process. -/
def restart (s : CardServer) : CardServer := { s with k := {} }

end CardServer

/-! ## Adding a card -/

/-- `compositor_holds`. -/
inductive Held
  | no
  | yes
  | cantTell
  deriving DecidableEq, Repr

/-- What the system answers to one attempt. -/
structure AddAnswer where
  /-- `evdi_check_device` before the add. -/
  existed : ℕ → Bool
  opens : Bool := true
  writes : Bool := true
  /-- `evdi_check_device` of each card, in each try. -/
  appears : ℕ → ℕ → Bool
  holds : ℕ → Held

/-- `evdi_add_one`. -/
def evdiAddOne (a : AddAnswer) : Option ℕ :=
  if !a.opens || !a.writes then none
  else (List.range 100).findSome? fun tries =>
    (List.range evdiMaxCards).find? fun i => !a.existed i && a.appears tries i

/-- A second and a half of looking, until there is an answer. -/
def heldAfter (holds : ℕ → Held) : Held :=
  (((List.range 150).map holds).find? fun h => h ≠ .no).getD .no

/-- The loop of `evdi_add_usable`, with so many attempts left. -/
def addLoop (a : ℕ → AddAnswer) : ℕ → ℕ → CardServer → CardServer × Option ℕ
  | 0, _, s => (s, none)
  | n + 1, unconfirmed, s =>
      match evdiAddOne (a (24 - (n + 1))) with
      | none => (s, none)
      | some card =>
          if h : card < evdiMaxCards then
            let i : Fin evdiMaxCards := ⟨card, h⟩
            -- a number the compositor has seen: a placeholder
            if s.k.state i ≠ .unknown then addLoop a n unconfirmed (s.mark i .dead)
            else if s.k.shell = 0 ∨ s.k.noVerify = true then (s.mark i .ok, some card)
            else
              match heldAfter (a (24 - (n + 1))).holds with
              | .yes => (s.mark i .ok, some card)
              | .cantTell =>
                  (CardServer.mark i .ok { s with k := { s.k with noVerify := true } }, some card)
              | .no =>
                  let s := s.mark i .dead
                  let s := if unconfirmed + 1 ≥ 3 then
                    { s with k := { s.k with noVerify := true } } else s
                  addLoop a n (unconfirmed + 1) s
          else (s, some card)

/-- `evdi_add_usable`. -/
def evdiAddUsable (shell : ℕ) (a : ℕ → AddAnswer) (s : CardServer) : CardServer × Option ℕ :=
  addLoop a 24 0 (s.cardsLoad shell)

/-! ## The scan -/

/-- The scan of `sremfb_evdi_acquire` over the cards left; `acquire` is `acquire_card`. -/
def acquireScan {α : Type} (shell : ℕ) (available : ℕ → Bool) (acquire : ℕ → Option α) :
    List ℕ → CardServer → CardServer × Option (ℕ × α)
  | [], s => (s, none)
  | i :: is, s =>
      if !available i then acquireScan shell available acquire is s
      else
        match s.cardDead shell i with
        | (s, true) => acquireScan shell available acquire is s
        | (s, false) =>
            match acquire i with
            | some x => (s, some (i, x))
            | none => acquireScan shell available acquire is s

/-- What happens to the table: calls that add a card, scans, and restarts. -/
inductive CardEvent
  | add (a : ℕ → AddAnswer)
  | scan (available opens : ℕ → Bool)
  | restart

namespace CardServer

def step (shell : ℕ) (s : CardServer) : CardEvent → CardServer
  | .add a =>
      let (s, card) := evdiAddUsable shell a s
      { s with returned := s.returned ++ card.toList }
  | .scan available opens =>
      (acquireScan shell available (fun i => if opens i then some () else none)
        (List.range evdiMaxCards) s).1
  | .restart => s.restart

end CardServer

/-! ## The table only grows -/

/-- A number that is known stays known, and a dead one stays dead. -/
def Grown (a b : CardTable) : Prop :=
  ∀ i, (a i ≠ .unknown → b i ≠ .unknown) ∧ (a i = .dead → b i = .dead)

lemma Grown.refl (a : CardTable) : Grown a a := fun _ => ⟨id, id⟩

lemma Grown.trans {a b c : CardTable} (h : Grown a b) (h' : Grown b c) : Grown a c := fun i =>
  ⟨fun hi => (h' i).1 ((h i).1 hi), fun hi => (h' i).2 ((h i).2 hi)⟩

/-- Either marking rule: an unknown number becomes known, or any number dead. -/
lemma grown_update {a : CardTable} {i : Fin evdiMaxCards} {x : CardState} (hx : x ≠ .unknown)
    (h : a i = .unknown ∨ x = .dead) : Grown a (Function.update a i x) := by
  intro j
  by_cases hj : j = i
  · subst hj
    rw [Function.update_self]
    refine ⟨fun _ => hx, fun hdead => ?_⟩
    rcases h with h | h
    · simp [h] at hdead
    · exact h
  · rw [Function.update_of_ne hj]
    exact ⟨id, id⟩

/-- The table in memory is the one in the file. -/
structure InSync (shell : ℕ) (s : CardServer) : Prop where
  loaded : s.k.loaded = true
  shell_eq : s.k.shell = shell
  state_eq : fileState shell s.file = s.k.state

lemma evdiAddOne_lt {a : AddAnswer} {c : ℕ} (h : evdiAddOne a = some c) : c < evdiMaxCards := by
  unfold evdiAddOne at h
  split at h
  · cases h
  · obtain ⟨_, _, _, -, hfind, -⟩ := List.findSome?_eq_some_iff.mp h
    exact List.mem_range.mp (List.mem_of_find?_eq_some hfind)

section Fixed

variable {shell : ℕ} (h0 : 0 < shell) (h1 : shell < 2 ^ 31) {s s' : CardServer}

include h0 h1 in
/-- What is marked is saved, and what is saved is what a server would load. -/
lemma InSync.mark (hl : s.k.loaded = true) (hs : s.k.shell = shell) (i : Fin evdiMaxCards)
    (x : CardState) : InSync shell (s.mark i x) := by
  subst hs
  have hparse : cardsParse s.k.shell (cardsText (s.mark i x).k) = (s.mark i x).k.state :=
    cardsParse_cardsText (k := (s.mark i x).k) h1
  refine ⟨hl, rfl, ?_⟩
  rw [fileState, if_neg (by omega)]
  exact hparse

/-- What a call that adds cards does to the table, and what it returns. -/
structure Added (shell : ℕ) (s : CardServer) (r : CardServer × Option ℕ) : Prop where
  sync : InSync shell r.1
  grown : Grown s.k.state r.1.k.state
  returned : r.1.returned = s.returned
  fresh : ∀ c, r.2 = some c → ∃ h : c < evdiMaxCards,
    s.k.state ⟨c, h⟩ = .unknown ∧ r.1.k.state ⟨c, h⟩ ≠ .unknown

lemma Added.after {r : CardServer × Option ℕ} (h : Added shell s' r)
    (hg : Grown s.k.state s'.k.state) (hr : s'.returned = s.returned) : Added shell s r := by
  refine ⟨h.sync, hg.trans h.grown, h.returned.trans hr, fun c hc => ?_⟩
  obtain ⟨hlt, hold, hnew⟩ := h.fresh c hc
  refine ⟨hlt, ?_, hnew⟩
  by_contra hknown
  exact (hg ⟨c, hlt⟩).1 hknown hold

/-- A number that was unknown is marked and returned. -/
lemma Added.accept {t : CardServer} {c : ℕ} (hc : c < evdiMaxCards) (hs : InSync shell t)
    (hu : s.k.state ⟨c, hc⟩ = .unknown)
    (ht : t.k.state = Function.update s.k.state ⟨c, hc⟩ .ok) (hr : t.returned = s.returned) :
    Added shell s (t, some c) := by
  refine ⟨hs, ht ▸ grown_update (by decide) (.inl hu), hr, fun c' hc' => ?_⟩
  obtain rfl : c = c' := by simpa using hc'
  exact ⟨hc, hu, by simp [ht]⟩

include h0 h1 in
lemma addLoop_added (a : ℕ → AddAnswer) (n unconfirmed : ℕ) (h : InSync shell s) :
    Added shell s (addLoop a n unconfirmed s) := by
  have hnone : ∀ {t : CardServer}, InSync shell t → Added shell t (t, none) := fun ht =>
    ⟨ht, .refl _, rfl, nofun⟩
  induction n generalizing unconfirmed s with
  | zero => exact hnone h
  | succ n ih =>
      have hmark : ∀ i x, InSync shell (s.mark i x) := InSync.mark h0 h1 h.loaded h.shell_eq
      have hdead : ∀ i, Grown s.k.state (s.mark i .dead).k.state := fun i =>
        grown_update (by decide) (.inr rfl)
      rw [addLoop]
      cases hone : evdiAddOne (a (24 - (n + 1))) with
      | none => exact hnone h
      | some card =>
          have hlt : card < evdiMaxCards := evdiAddOne_lt hone
          simp only [hlt, dif_pos]
          split <;> rename_i hu
          · exact (ih unconfirmed (hmark _ _)).after (hdead _) rfl
          rw [not_not] at hu
          split
          · exact .accept hlt (hmark _ _) hu rfl rfl
          split
          · exact .accept hlt (hmark _ _) hu rfl rfl
          · refine .accept hlt (InSync.mark h0 h1 ?_ ?_ _ _) hu rfl rfl
            · exact h.loaded
            · exact h.shell_eq
          · -- not picked up: a placeholder, and perhaps no more checking
            have hm := hmark ⟨card, hlt⟩ .dead
            split
            · have hoff : InSync shell { s.mark ⟨card, hlt⟩ .dead with
                  k := { (s.mark ⟨card, hlt⟩ .dead).k with noVerify := true } } :=
                ⟨hm.loaded, hm.shell_eq, hm.state_eq⟩
              exact (ih (unconfirmed + 1) hoff).after (hdead ⟨card, hlt⟩) rfl
            · exact (ih (unconfirmed + 1) hm).after (hdead ⟨card, hlt⟩) rfl

/-! ## What a server goes by -/

/-- The states as the next use of the table finds them. -/
def recorded (shell : ℕ) (s : CardServer) : CardTable := (s.cardsLoad shell).k.state

/-- Between events: a table that is loaded is in the file, and what was returned is known. -/
structure Tracked (shell : ℕ) (s : CardServer) : Prop where
  sync : s.k.loaded = true → InSync shell s
  known : ∀ c ∈ s.returned, ∃ h : c < evdiMaxCards, fileState shell s.file ⟨c, h⟩ ≠ .unknown
  nodup : s.returned.Nodup

lemma cardsLoad_eq (h : Tracked shell s) : InSync shell (s.cardsLoad shell) ∧
    (s.cardsLoad shell).file = s.file ∧ (s.cardsLoad shell).returned = s.returned := by
  unfold CardServer.cardsLoad
  split <;> rename_i hl
  · exact ⟨h.sync hl.1, rfl, rfl⟩
  · exact ⟨⟨rfl, rfl, rfl⟩, rfl, rfl⟩

lemma recorded_eq (h : Tracked shell s) : recorded shell s = fileState shell s.file := by
  obtain ⟨hs, hf, -⟩ := cardsLoad_eq h
  rw [recorded, ← hs.state_eq, hf]

/-- Loading again changes nothing. -/
lemma cardsLoad_cardsLoad (s : CardServer) (shell : ℕ) :
    (s.cardsLoad shell).cardsLoad shell = s.cardsLoad shell := by
  have hl : (s.cardsLoad shell).k.loaded = true ∧ (s.cardsLoad shell).k.shell = shell := by
    unfold CardServer.cardsLoad
    split <;> rename_i hl
    · exact hl
    · exact ⟨rfl, rfl⟩
  rw [CardServer.cardsLoad, if_pos hl]

lemma cardDead_cardsLoad (s : CardServer) (shell i : ℕ) :
    (s.cardsLoad shell).cardDead shell i = s.cardDead shell i := by
  rw [CardServer.cardDead, cardsLoad_cardsLoad, CardServer.cardDead]

/-- The scan takes the first card that is available, not dead, and can be acquired; all it does to
the table is to load it. -/
lemma acquireScan_eq {α : Type} (shell : ℕ) (available : ℕ → Bool) (acquire : ℕ → Option α)
    (is : List ℕ) (s : CardServer) : ((acquireScan shell available acquire is s).1 = s ∨
        (acquireScan shell available acquire is s).1 = s.cardsLoad shell) ∧
      (acquireScan shell available acquire is s).2 = is.findSome? fun i =>
        if available i && !(s.cardDead shell i).2 then (acquire i).map fun x => (i, x)
        else none := by
  induction is generalizing s with
  | nil => exact ⟨.inl rfl, rfl⟩
  | cons i is ih =>
      rw [acquireScan, List.findSome?_cons]
      by_cases ha : available i = true
      · have hload : s.cardDead shell i = (s.cardsLoad shell, (s.cardDead shell i).2) := rfl
        obtain ⟨hstate, hfound⟩ := ih (s.cardsLoad shell)
        rw [cardsLoad_cardsLoad, or_self] at hstate
        simp only [cardDead_cardsLoad] at hfound
        rw [hload]
        cases (s.cardDead shell i).2 with
        | true =>
            simp only [ha]
            exact ⟨.inr hstate, hfound⟩
        | false =>
            cases hx : acquire i with
            | some x => simp [ha]
            | none =>
                simp only [ha]
                exact ⟨.inr hstate, hfound⟩
      · simp only [ha]
        exact ih s

/-- With the table behind `usable`, this is the scan of `evdiAcquire`. -/
lemma acquireScan_usable (e : EvdiServer) (id : ℕ) (a : Attempt) (available : ℕ → Bool)
    (s : CardServer) (h : ∀ i, a.usable i = (available i && !(s.cardDead shell i).2)) :
    (acquireScan shell available (e.acquireCard id a) (List.range evdiMaxCards) s).2.map Prod.snd =
      (List.range evdiMaxCards).findSome? fun i =>
        if a.usable i then e.acquireCard id a i else none := by
  rw [(acquireScan_eq shell available _ _ s).2, List.map_findSome?]
  congr
  funext i
  rw [Function.comp_apply, h i]
  split
  · simp
  · rfl

lemma Tracked.later (h : Tracked shell s) (hs : InSync shell s')
    (hg : Grown (fileState shell s.file) (fileState shell s'.file)) (hr : s'.returned = s.returned) :
    Tracked shell s' := by
  refine ⟨fun _ => hs, fun c hc => ?_, hr ▸ h.nodup⟩
  obtain ⟨hlt, hknown⟩ := h.known c (hr ▸ hc)
  exact ⟨hlt, (hg ⟨c, hlt⟩).1 hknown⟩

include h0 h1 in
lemma evdiAddUsable_added (h : Tracked shell s) (a : ℕ → AddAnswer) :
    Added shell (s.cardsLoad shell) (evdiAddUsable shell a s) :=
  addLoop_added h0 h1 a 24 0 (cardsLoad_eq h).1

include h0 h1 in
/-- **One event.** -/
lemma Tracked.step (h : Tracked shell s) (ev : CardEvent) : Tracked shell (s.step shell ev) ∧
    Grown (fileState shell s.file) (fileState shell (s.step shell ev).file) := by
  obtain ⟨hload, hfile, hret⟩ := cardsLoad_eq h
  cases ev with
  | add a =>
      have hadd := evdiAddUsable_added h0 h1 h a
      simp only [CardServer.step]
      generalize evdiAddUsable shell a s = r at hadd
      obtain ⟨t, card⟩ := r
      have hg : Grown (fileState shell s.file) (fileState shell t.file) := by
        rw [hadd.sync.state_eq, ← hfile, hload.state_eq]
        exact hadd.grown
      have hlater := h.later hadd.sync hg (hadd.returned.trans hret)
      refine ⟨⟨fun _ => ⟨hadd.sync.loaded, hadd.sync.shell_eq, hadd.sync.state_eq⟩, ?_, ?_⟩, hg⟩
      · intro c hc
        rcases List.mem_append.mp hc with hc | hc
        · exact hlater.known c hc
        · obtain ⟨hlt, -, hnew⟩ := hadd.fresh c (by simpa using hc)
          exact ⟨hlt, hadd.sync.state_eq ▸ hnew⟩
      · refine hlater.nodup.append (by cases card <;> simp) fun c hold hnew => ?_
        obtain ⟨hlt, hunknown, -⟩ := hadd.fresh c (by simpa using hnew)
        rw [← hload.state_eq, hfile] at hunknown
        obtain ⟨_, hknown⟩ := h.known c ((hadd.returned.trans hret) ▸ hold)
        exact hknown hunknown
  | scan available opens =>
      obtain ⟨hs, -⟩ := acquireScan_eq shell available
        (fun i => if opens i then some () else none) (List.range evdiMaxCards) s
      rcases hs with hs | hs
      · rw [CardServer.step, hs]
        exact ⟨h, .refl _⟩
      · rw [CardServer.step, hs]
        exact ⟨h.later hload (hfile ▸ .refl _) hret, hfile ▸ .refl _⟩
  | restart => exact ⟨⟨nofun, h.known, h.nodup⟩, .refl _⟩

include h0 h1 in
lemma Tracked.run (h : Tracked shell s) (es : List CardEvent) :
    Tracked shell (run (CardServer.step shell) s es) ∧
      Grown (fileState shell s.file) (fileState shell (run (CardServer.step shell) s es).file) :=
  run_keeps (P := fun t => Tracked shell t ∧ Grown (fileState shell s.file) (fileState shell t.file))
    (fun _ ev ht => ⟨(ht.1.step h0 h1 ev).1, ht.2.trans (ht.1.step h0 h1 ev).2⟩) ⟨h, .refl _⟩ es

/-- **Card numbers are never reused.**  Over any calls, scans and restarts under one compositor,
whatever the file says at first and whatever the kernel and the compositor answer: no number is
returned twice; none that was recorded as known is returned later; a server that loads what was
saved has the saved states; and a card that was recorded as dead is not what a later scan takes. -/
theorem cards_never_reused (h0 : 0 < shell) (h1 : shell < 2 ^ 31) (file : Option (List Char))
    (es es' : List CardEvent) :
    let s := run (CardServer.step shell) { file := file } es
    let s' := run (CardServer.step shell) s es'
    s'.returned.Nodup ∧
      (∀ i a, recorded shell s i ≠ .unknown → (evdiAddUsable shell a s').2 ≠ some i.val) ∧
      (∀ t : CardServer, t.k.shell = shell →
        (t.cardsSave.restart.cardsLoad shell).k.state = t.k.state) ∧
      ∀ i, recorded shell s i = .dead → ∀ (α : Type) available (acquire : ℕ → Option α) x,
        (acquireScan shell available acquire (List.range evdiMaxCards) s').2 ≠ some (i.val, x) := by
  intro s s'
  have hstart : Tracked shell { file := file } := ⟨nofun, nofun, List.nodup_nil⟩
  obtain ⟨hs, -⟩ := hstart.run h0 h1 es
  obtain ⟨hs', hg⟩ := hs.run h0 h1 es'
  refine ⟨hs'.nodup, fun i a hi hret => ?_, fun t ht => ?_, fun i hi α available acquire x hx => ?_⟩
  · obtain ⟨hload, hfile, -⟩ := cardsLoad_eq hs'
    obtain ⟨_, hunknown, -⟩ := (evdiAddUsable_added h0 h1 hs' a).fresh i.val hret
    rw [← hload.state_eq, hfile] at hunknown
    exact (hg i).1 (recorded_eq hs ▸ hi) hunknown
  · subst ht
    have hload : (t.cardsSave.restart.cardsLoad t.k.shell).k.state =
        fileState t.k.shell (some (cardsText t.k)) := rfl
    rw [hload, fileState, if_neg (by omega)]
    exact cardsParse_cardsText h1
  · have hdead : recorded shell s' i = .dead := by
      rw [recorded_eq hs']
      exact (hg i).2 (recorded_eq hs ▸ hi)
    have hskip : (s'.cardDead shell i.val).2 = true := by
      rw [CardServer.cardDead]
      simp only [i.2, dif_pos]
      exact decide_eq_true hdead
    rw [(acquireScan_eq shell available acquire _ s').2] at hx
    obtain ⟨_, j, _, -, hj, -⟩ := List.findSome?_eq_some_iff.mp hx
    split at hj <;> rename_i hfree
    · obtain ⟨y, -, hy⟩ := Option.map_eq_some_iff.mp hj
      obtain ⟨rfl, -⟩ := Prod.mk.inj hy
      simp [hskip] at hfree
    · cases hj

end Fixed

/-- The add works, and the compositor picks the card up. -/
def AddAnswer.picked (card : ℕ) : AddAnswer where
  existed _ := false
  appears _ i := i = card
  holds _ := .yes

/-- Card 3 is accepted.  After a restart the kernel gives the number out again and then card 4, and
the next server neither returns card 3 nor scans it. -/
theorem cards_never_reused_tiny :
    let s := run (CardServer.step 4242) { file := none }
      [.add fun _ => .picked 3, .restart, .add fun n => .picked (3 + n)]
    let s' := run (CardServer.step 4242) s [.restart]
    s'.returned = [3, 4] ∧ s'.returned.Nodup ∧
      (evdiAddUsable 4242 (fun _ => .picked 3) s').2 ≠ some 3 ∧
      (acquireScan 4242 (fun _ => true) some (List.range evdiMaxCards) s').2 ≠ some (3, 3) := by
  intro s s'
  obtain ⟨hnodup, hknown, -, hdead⟩ := cards_never_reused (show 0 < 4242 by decide) (by decide) none
    [.add fun _ => .picked 3, .restart, .add fun n => .picked (3 + n)] [.restart]
  exact ⟨by decide +kernel, hnodup, hknown ⟨3, by decide⟩ _ (by decide +kernel),
    hdead ⟨3, by decide⟩ (by decide +kernel) ℕ _ some 3⟩

end Sremfb
