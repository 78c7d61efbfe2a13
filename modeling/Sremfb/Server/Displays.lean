import Sremfb.Lib.Coalesce
import Sremfb.Server.LayoutMatch
import Sremfb.Server.Pointer

/-!
# Reading the state of the displays (`input.c`, `layout.c`)

Two parts of the server read the compositor's state with `GetCurrentState`, and in the same way: one
call at a time, one more if there was a reason meanwhile, at every `MonitorsChanged`.  Both are
`Lib.Reader`s.

The pointer keeps the layout, and has two reasons of its own: the devices of a client were created,
and a position could not be placed.  When nothing is on its way it has the layout of the compositor's
present state, unless the last call failed (`layout_settles`).

The restoration of remembered configurations reads as long as a client is unchecked, and checks a
client when its connector shows up.  When nothing is on its way no client that streams is unchecked
with its connector lit, and no connection has a configuration applied twice (`restored_once`).
-/

namespace Sremfb

open Lib

/-! ## The layout for the pointer -/

section Pointer

variable (F : Doubles)

/-- What calls `layout_refresh`, besides the signal and a reply. -/
inductive LayoutReason
  /-- The end of `sremfb_input_start`. -/
  | inputStart
  /-- A position of the absolute pointer; it calls when it cannot be placed. -/
  | position (conn : List Char) (geom : StreamGeom) (code : ℕ) (v : ℤ)

/-- `L`, read by `layout_refresh` and `on_layout_reply`. -/
def layoutUse : Reader.Use DisplayState Layout LayoutReason Empty where
  wants _ := true
  take _ st := layoutParse F st
  poke L
    | .inputStart => some L
    | .position conn geom code v => if (L.layoutMap F conn geom code v).isNone then some L else none
  aside _ a := a.elim

lemma keeps_layout : Reader.Keeps (layoutUse F) (fun _ => True) fun L st => L = layoutParse F st where
  take _ _ _ := ⟨trivial, rfl⟩
  poke _ _ _ _ _ := trivial
  aside _ a _ := a.elim
  idle _ h := by cases h

/-- **The layout settles.**  Whatever the compositor does, and in whatever order and how late its
signals and replies come, with nothing on its way and the last call not failed the pointer is placed
by the compositor's present state. -/
theorem layout_settles (st : DisplayState)
    (as : List (Reader.Act DisplayState LayoutReason Empty)) :
    let r := run (Reader.step (layoutUse F)) { truth := st, client := {} } as
    r.signals = 0 ∧ r.call = none ∧ r.failed = false → r.client = layoutParse F r.truth := by
  intro r h
  obtain ⟨hsignals, hcall, hfailed⟩ := h
  exact ((Reader.sound_start trivial).run (keeps_layout F) as).settled hsignals hcall hfailed

/-- The compositor changes its displays after it has answered. -/
theorem layout_settles_late :
    let r := run (Reader.step (layoutUse Doubles.rational))
      { truth := { monitors := [], logical := [] }, client := {} }
      [.poke .inputStart, .answer, .change fourInARow, .reply, .signal, .answer, .reply]
    r.client = layoutParse Doubles.rational fourInARow :=
  layout_settles Doubles.rational _
    [.poke .inputStart, .answer, .change fourInARow, .reply, .signal, .answer, .reply]
    ⟨rfl, rfl, rfl⟩

end Pointer

/-! ## Remembered configurations -/

/-- The fields of a client that `layout.c` uses. -/
structure LayoutClient where
  id : ℕ
  connector : CStr
  streaming : Bool := false
  layoutPending : Bool := false
  layoutSerial : CStr := toCStr []
  layoutProduct : CStr := toCStr []

namespace LayoutClient

/-- The client is checked against the next state. -/
def Due (c : LayoutClient) : Prop :=
  c.layoutPending = true ∧ c.connector.1 ≠ [] ∧ c.streaming = true

instance (c : LayoutClient) : Decidable c.Due := inferInstanceAs (Decidable (_ ∧ _))

end LayoutClient

/-- `Y`, with the two files and what was applied. -/
structure LayoutRestore where
  clients : List LayoutClient := []
  /-- The number of connections so far. -/
  accepted : ℕ := 0
  /-- `monitors.xml`. -/
  root : Option XNode := none
  /-- The file of the last connectors. -/
  file : Option (List Char) := none
  /-- The calls of `ApplyMonitorsConfig`: for which client, with which serial, and what. -/
  applied : List (ℕ × UInt32 × List ApplyLogical) := []

section Restore

variable (strtod : List Char → ℚ) (F : Doubles)

/-- The monitor of the client in the state. -/
def ourMonitor (st : LayoutState) (connector : CStr) : Option Mon :=
  (st.mons.filter fun m => m.connector = connector).getLast?

/-- What `restore_for` changes in the client. -/
def LayoutClient.check (st : LayoutState) (c : LayoutClient) : LayoutClient :=
  if c.Due then
    match ourMonitor st c.connector with
    | none => c
    | some ours => { c with
        layoutPending := false
        layoutSerial := toCStr (ours.serial.1.take 31)
        layoutProduct := toCStr (ours.product.1.take 31) }
  else c

/-- One round of the loop of `on_state`. -/
def restoreNext (st : LayoutState) (s : LayoutRestore) (c : LayoutClient) : LayoutRestore :=
  if c.Due then
    let r := restoreFor strtod F s.root s.file st c.connector
    { s with
      clients := s.clients ++ [c.check st]
      file := r.file
      applied := s.applied ++ (r.applied.map fun lms => (c.id, st.serial, lms)).toList }
  else { s with clients := s.clients ++ [c] }

/-- `on_state`. -/
def onState (s : LayoutRestore) (st : LayoutState) : LayoutRestore :=
  s.clients.foldl (restoreNext strtod F st) { s with clients := [] }

/-- The stored configuration names a screen of this identity on this connector. -/
def savedFor (c : LayoutClient) (cfg : XNode) : Bool :=
  (configSpecs cfg).any fun sp =>
    xtext (some sp) "connector" = some c.connector && xtext (some sp) "serial" = some c.layoutSerial &&
      xtext (some sp) "product" = some c.layoutProduct

/-- `sremfb_layout_client_gone`: what becomes of the file. -/
def layoutClientGone (s : LayoutRestore) (c : LayoutClient) : Option (List Char) :=
  if c.layoutSerial.1 = [] ∨ c.connector.1 = [] then s.file
  else if ((xchild s.root "monitors").elim [] XNode.kids).any fun cfg =>
      cfg.named "configuration" && savedFor c cfg then
    some (lastSet s.file {
      connector := c.connector
      vendor := toCStr []
      product := c.layoutProduct
      serial := c.layoutSerial })
  else s.file

/-- What happens without a call. -/
inductive LayoutEvent
  /-- A connection, whose screen is plugged on this connector. -/
  | accept (connector : CStr)
  | gone (id : ℕ)
  /-- The compositor writes `monitors.xml`. -/
  | saved (root : Option XNode)

/-- The client leaves MODE_WAIT: `sremfb_layout_client`. -/
def layoutClient (s : LayoutRestore) (id : ℕ) : Option LayoutRestore :=
  if s.clients.any fun c => c.id = id && !c.streaming then
    some { s with clients := s.clients.map fun c =>
      if c.id = id then { c with streaming := true, layoutPending := true } else c }
  else none

def layoutAside (s : LayoutRestore) : LayoutEvent → LayoutRestore
  | .accept connector => { s with
      clients := s.clients ++ [{ id := s.accepted, connector }]
      accepted := s.accepted + 1 }
  | .gone id =>
      match s.clients.find? fun c => c.id = id with
      | none => s
      | some c => { s with
          file := layoutClientGone s c
          clients := s.clients.filter fun c => c.id ≠ id }
  | .saved root => { s with root := root }

/-- `Y`, read by `refresh` and `on_state`. -/
def restoreUse : Reader.Use LayoutState LayoutRestore ℕ LayoutEvent where
  wants s := s.clients.any LayoutClient.layoutPending
  take := onState strtod F
  poke := layoutClient
  aside := layoutAside

end Restore

/-! ## What a state settles -/

section Checked

variable {strtod : List Char → ℚ} {F : Doubles} {st : LayoutState} {c : LayoutClient}
  {s : LayoutRestore}

lemma ourMonitor_eq_none {connector : CStr} :
    ourMonitor st connector = none ↔ ∀ m ∈ st.mons, m.connector ≠ connector := by
  rw [ourMonitor, List.getLast?_eq_none_iff, List.filter_eq_nil_iff]
  simp

lemma check_of_not_due (h : ¬c.Due) : c.check st = c := if_neg h

lemma check_same (st : LayoutState) (c : LayoutClient) : (c.check st).id = c.id ∧
    (c.check st).connector = c.connector ∧ (c.check st).streaming = c.streaming ∧
    ((c.check st).layoutPending = true → c.layoutPending = true) := by
  unfold LayoutClient.check
  split
  · split
    · exact ⟨rfl, rfl, rfl, id⟩
    · exact ⟨rfl, rfl, rfl, fun h => by cases h⟩
  · exact ⟨rfl, rfl, rfl, id⟩

/-- A client is left unchecked only while its connector is dark. -/
lemma dark_of_check (hpending : (c.check st).layoutPending = true) (hdue : c.Due) :
    ourMonitor st c.connector = none := by
  unfold LayoutClient.check at hpending
  rw [if_pos hdue] at hpending
  split at hpending
  · assumption
  · cases hpending

/-- A configuration is applied for a client that is checked off. -/
lemma checked_of_applied {lms : List ApplyLogical}
    (h : (restoreFor strtod F s.root s.file st c.connector).applied = some lms) (hdue : c.Due) :
    (c.check st).layoutPending = false := by
  have hlit : ourMonitor st c.connector ≠ none := by
    intro hdark
    unfold restoreFor at h
    rw [show (st.mons.filter fun m => m.connector = c.connector).getLast? = none from hdark] at h
    cases h
  unfold LayoutClient.check
  rw [if_pos hdue]
  split
  · rename_i hdark
    exact absurd hdark hlit
  · rfl

/-- **One state**: every client is checked, and a configuration is applied at most once for each of
those that are checked off. -/
lemma onState_spec (strtod : List Char → ℚ) (F : Doubles) (s : LayoutRestore) (st : LayoutState) :
    (onState strtod F s st).clients = s.clients.map (LayoutClient.check st) ∧
      (onState strtod F s st).accepted = s.accepted ∧
      ∃ new, (onState strtod F s st).applied = s.applied ++ new ∧
        (new.map Prod.fst).Sublist ((s.clients.filter fun c =>
          c.Due ∧ (c.check st).layoutPending = false).map LayoutClient.id) := by
  have hfold : ∀ (cs : List LayoutClient) (t : LayoutRestore),
      (cs.foldl (restoreNext strtod F st) t).clients = t.clients ++ cs.map (LayoutClient.check st) ∧
      (cs.foldl (restoreNext strtod F st) t).accepted = t.accepted ∧
      ∃ new, (cs.foldl (restoreNext strtod F st) t).applied = t.applied ++ new ∧
        (new.map Prod.fst).Sublist ((cs.filter fun c =>
          c.Due ∧ (c.check st).layoutPending = false).map LayoutClient.id) := by
    intro cs
    induction cs with
    | nil => exact fun t => ⟨by simp, rfl, [], by simp, by simp⟩
    | cons c cs ih =>
        intro t
        obtain ⟨hcs, hacc, new, happ, hsub⟩ := ih (restoreNext strtod F st t c)
        rw [List.foldl_cons, hcs, hacc, happ, List.filter_cons]
        by_cases hdue : c.Due
        · have hnext : restoreNext strtod F st t c = { t with
              clients := t.clients ++ [c.check st]
              file := (restoreFor strtod F t.root t.file st c.connector).file
              applied := t.applied ++ ((restoreFor strtod F t.root t.file st c.connector).applied.map
                fun lms => (c.id, st.serial, lms)).toList } := if_pos hdue
          rw [hnext]
          refine ⟨by simp, rfl, _, List.append_assoc _ _ _, ?_⟩
          rw [List.map_append]
          cases hlms : (restoreFor strtod F t.root t.file st c.connector).applied with
          | none =>
              split
              · exact hsub.cons _
              · exact hsub
          | some lms =>
              rw [if_pos (by simp [hdue, checked_of_applied hlms hdue])]
              exact hsub.cons_cons _
        · have hnext : restoreNext strtod F st t c = { t with clients := t.clients ++ [c] } :=
            if_neg hdue
          rw [hnext, if_neg (by simp [hdue])]
          exact ⟨by simp [check_of_not_due hdue], rfl, new, rfl, hsub⟩
  obtain ⟨hcs, hacc, hnew⟩ := hfold s.clients { s with clients := [] }
  exact ⟨hcs, hacc, hnew⟩

end Checked

/-! ## Runs -/

namespace LayoutRestore

/-- Every client that streams is checked, or its connector is dark in the state. -/
def Seen (s : LayoutRestore) (st : LayoutState) : Prop :=
  ∀ c ∈ s.clients, c.Due → ∀ m ∈ st.mons, m.connector ≠ c.connector

/-- A client is checked once, and only a client that was checked has a configuration. -/
structure Once (s : LayoutRestore) : Prop where
  ids : (s.clients.map LayoutClient.id).Nodup
  known : ∀ c ∈ s.clients, c.id < s.accepted
  applied : (s.applied.map Prod.fst).Nodup
  past : ∀ a ∈ s.applied, a.1 < s.accepted
  done : ∀ a ∈ s.applied, ∀ c ∈ s.clients, c.id = a.1 →
    c.streaming = true ∧ c.layoutPending = false

variable {s s' : LayoutRestore} {strtod : List Char → ℚ} {F : Doubles}

lemma Once.onState (h : s.Once) (st : LayoutState) : (onState strtod F s st).Once := by
  obtain ⟨hcs, hacc, new, happ, hsub⟩ := onState_spec strtod F s st
  have hids : (s.clients.map (LayoutClient.check st)).map LayoutClient.id =
      s.clients.map LayoutClient.id := by
    rw [List.map_map]
    exact List.map_congr_left fun c _ => (check_same st c).1
  have hnew : ∀ a ∈ new, ∃ c ∈ s.clients, c.id = a.1 ∧ c.Due ∧
      (c.check st).layoutPending = false := by
    intro a ha
    obtain ⟨c, hc, hid⟩ := List.mem_map.mp (hsub.subset (List.mem_map_of_mem ha))
    obtain ⟨hmem, hcheck⟩ := List.mem_filter.mp hc
    exact ⟨c, hmem, hid, by simpa using hcheck⟩
  have hone : ∀ c ∈ s.clients, ∀ c' ∈ s.clients, c.id = c'.id → c = c' :=
    fun c hc c' hc' => List.inj_on_of_nodup_map h.ids hc hc'
  refine ⟨by rw [hcs, hids]; exact h.ids, ?_, ?_, ?_, ?_⟩
  · rw [hcs, hacc]
    intro c hc
    obtain ⟨c₀, hc₀, rfl⟩ := List.mem_map.mp hc
    rw [(check_same st c₀).1]
    exact h.known c₀ hc₀
  · rw [happ, List.map_append, List.nodup_append]
    refine ⟨h.applied, (h.ids.sublist (List.filter_sublist.map _)).sublist hsub, ?_⟩
    rintro _ hold _ hnew' rfl
    obtain ⟨a, ha, haid⟩ := List.mem_map.mp hold
    obtain ⟨b, hb, hbid⟩ := List.mem_map.mp hnew'
    obtain ⟨c, hc, hid, hdue, -⟩ := hnew b hb
    have hdone := h.done a ha c hc (hid.trans (hbid.trans haid.symm))
    exact absurd (hdue.1.symm.trans hdone.2) (by decide)
  · rw [happ, hacc]
    intro a ha
    obtain ha | ha := List.mem_append.mp ha
    · exact h.past a ha
    · obtain ⟨c, hc, hid, -⟩ := hnew a ha
      exact hid ▸ h.known c hc
  · rw [happ, hcs]
    intro a ha c hc hid
    obtain ⟨c₀, hc₀, rfl⟩ := List.mem_map.mp hc
    obtain ⟨hid₀, -, hstream, hlower⟩ := check_same st c₀
    rw [hid₀] at hid
    rw [hstream]
    obtain ha | ha := List.mem_append.mp ha
    · obtain ⟨hs, hp⟩ := h.done a ha c₀ hc₀ hid
      refine ⟨hs, ?_⟩
      by_contra hyes
      exact absurd ((hlower (by simpa using hyes)).symm.trans hp) (by decide)
    · obtain ⟨c, hc, hcid, hdue, hoff⟩ := hnew a ha
      obtain rfl := hone c hc c₀ hc₀ (hcid.trans hid.symm)
      exact ⟨hdue.2.2, hoff⟩

lemma seen_onState (s : LayoutRestore) (st : LayoutState) : (Sremfb.onState strtod F s st).Seen st := by
  obtain ⟨hcs, -⟩ := onState_spec strtod F s st
  intro c hc hdue
  rw [hcs] at hc
  obtain ⟨c₀, -, rfl⟩ := List.mem_map.mp hc
  obtain ⟨-, hconn, hstream, hlower⟩ := check_same st c₀
  have hdue₀ : c₀.Due := ⟨hlower hdue.1, hconn ▸ hdue.2.1, hstream ▸ hdue.2.2⟩
  rw [hconn]
  exact ourMonitor_eq_none.mp (dark_of_check hdue.1 hdue₀)

lemma Once.layoutClient (h : s.Once) {id : ℕ} (hs : layoutClient s id = some s') : s'.Once := by
  unfold Sremfb.layoutClient at hs
  split at hs
  swap
  · cases hs
  rename_i hwait
  obtain rfl := Option.some.inj hs
  obtain ⟨c₀, hc₀, hwait⟩ := List.any_eq_true.mp hwait
  obtain ⟨hid₀, hdark⟩ : c₀.id = id ∧ c₀.streaming = false := by simpa using hwait
  have hsame : ∀ c : LayoutClient, (if c.id = id then
      { c with streaming := true, layoutPending := true } else c).id = c.id := by
    intro c
    split <;> rfl
  refine ⟨?_, fun c hc => ?_, h.applied, h.past, fun a ha c hc hid => ?_⟩
  · rw [List.map_map]
    exact (List.map_congr_left fun c _ => hsame c : _ = s.clients.map LayoutClient.id) ▸ h.ids
  · obtain ⟨c₁, hc₁, rfl⟩ := List.mem_map.mp hc
    rw [hsame]
    exact h.known c₁ hc₁
  · obtain ⟨c₁, hc₁, rfl⟩ := List.mem_map.mp hc
    rw [hsame] at hid
    have hne : c₁.id ≠ id := by
      rintro rfl
      -- the client that leaves MODE_WAIT was not checked before
      have := (h.done a ha c₀ hc₀ (hid₀.trans hid)).1
      exact absurd (this.symm.trans hdark) (by decide)
    rw [if_neg hne]
    exact h.done a ha c₁ hc₁ hid

lemma Once.aside (h : s.Once) (e : LayoutEvent) : (layoutAside s e).Once := by
  cases e with
  | accept connector =>
      refine ⟨?_, fun c hc => ?_, h.applied, fun a ha => (h.past a ha).trans (Nat.lt_succ_self _),
        fun a ha c hc hid => ?_⟩
      · rw [layoutAside, List.map_append, List.nodup_append]
        refine ⟨h.ids, by simp, ?_⟩
        rintro _ hold _ hnew rfl
        obtain ⟨c, hc, hid⟩ := List.mem_map.mp hold
        have := h.known c hc
        simp at hnew
        omega
      · obtain hc | hc := List.mem_append.mp hc
        · exact (h.known c hc).trans (Nat.lt_succ_self _)
        · obtain rfl := List.mem_singleton.mp hc
          exact Nat.lt_succ_self _
      · obtain hc | hc := List.mem_append.mp hc
        · exact h.done a ha c hc hid
        · obtain rfl := List.mem_singleton.mp hc
          exact absurd hid (h.past a ha).ne'
  | gone id =>
      simp only [layoutAside]
      split
      · exact h
      · have hsub : ∀ c ∈ s.clients.filter fun c => c.id ≠ id, c ∈ s.clients :=
          fun c hc => (List.mem_filter.mp hc).1
        exact ⟨h.ids.sublist (List.filter_sublist.map _), fun c hc => h.known c (hsub c hc),
          h.applied, h.past, fun a ha c hc => h.done a ha c (hsub c hc)⟩
  | saved root => exact ⟨h.ids, h.known, h.applied, h.past, h.done⟩

/-- Nothing that happens without a call makes a client due, or unchecked. -/
lemma mem_aside {e : LayoutEvent} {c : LayoutClient} (hc : c ∈ (layoutAside s e).clients)
    (hpending : c.layoutPending = true) : c ∈ s.clients := by
  cases e with
  | accept connector =>
      obtain hc | hc := List.mem_append.mp hc
      · exact hc
      · obtain rfl := List.mem_singleton.mp hc
        cases hpending
  | gone id =>
      simp only [layoutAside] at hc
      split at hc
      · exact hc
      · exact (List.mem_filter.mp hc).1
  | saved root => exact hc

lemma keeps_restore (strtod : List Char → ℚ) (F : Doubles) :
    Reader.Keeps (restoreUse strtod F) Once Seen where
  take s st h := ⟨h.onState st, seen_onState s st⟩
  poke s id s' h hs := h.layoutClient hs
  aside s e h := ⟨h.aside e, fun st hseen c hc hdue => hseen c (mem_aside hc hdue.1) hdue⟩
  idle s h := by
    have hnone : ∀ c ∈ s.clients, c.layoutPending = false := by
      intro c hc
      have := List.any_eq_false.mp h c hc
      simpa using this
    refine ⟨fun st c hc hdue => ?_, fun st => ?_, fun e => ?_⟩
    · exact absurd ((hnone c hc).symm.trans hdue.1) (by decide)
    · refine List.any_eq_false.mpr fun c hc => ?_
      rw [show ((restoreUse strtod F).take s st).clients = _ from
        (onState_spec strtod F s st).1] at hc
      obtain ⟨c₀, hc₀, rfl⟩ := List.mem_map.mp hc
      intro hyes
      exact absurd ((hnone c₀ hc₀).symm.trans ((check_same st c₀).2.2.2 hyes)) (by decide)
    · refine List.any_eq_false.mpr fun c hc hyes => ?_
      exact absurd ((hnone c (mem_aside hc hyes)).symm.trans hyes) (by decide)

lemma once_start (root : Option XNode) (file : Option (List Char)) :
    ({ root, file } : LayoutRestore).Once := by
  constructor <;> simp

/-- **Restored once, and not missed.**  Clients come, stream and leave, the compositor changes its
displays and writes its file, and its signals and replies come in any order and as late as they
like.  With nothing on its way and the last call not failed, every client that streams was checked,
or its connector is dark; and no connection has had two configurations applied. -/
theorem restored_once (strtod : List Char → ℚ) (F : Doubles) (st : LayoutState)
    (root : Option XNode) (file : Option (List Char))
    (as : List (Reader.Act LayoutState ℕ LayoutEvent)) :
    let r := run (Reader.step (restoreUse strtod F)) { truth := st, client := { root, file } } as
    (r.signals = 0 → r.call = none → r.failed = false → r.client.Seen r.truth) ∧
      (r.client.applied.map Prod.fst).Nodup := by
  intro r
  have hsound : r.Sound (restoreUse strtod F) Once Seen :=
    (Reader.sound_start (once_start root file)).run (keeps_restore strtod F) as
  exact ⟨hsound.settled, hsound.client.applied⟩

end LayoutRestore

end Sremfb
