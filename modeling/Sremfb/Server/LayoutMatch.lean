import Sremfb.Lib.Doubles
import Sremfb.Lib.Matching
import Sremfb.Server.LastConnectors
import Mathlib.Data.List.DropRight

/-!
# Stored display configurations (`layout.c`)

The compositor keeps a configuration for each set of monitors in `monitors.xml` and looks it up by
the connector, too.  When the card of a client's screen has changed its connector is another one,
so the server looks for a configuration of the same monitors in which only that connector differs
(`config_match`), and applies it with the connector renamed (`build_logical`).

`config_match` searches a spec for every monitor, `build_logical` a monitor for every spec, and
neither marks what it has found.  Monitors whose connectors differ cannot share a spec that names
the connector, so for the others that is enough.  Ours is looked for by its identity alone:
another monitor of that identity can be taken for it (`layout_match_iff`).
-/

namespace Sremfb

open Lib

/-! ## The file -/

/-- `XNode`, an element with its text and its children. -/
inductive XNode
  | node (name : List Char) (text : CStr) (kids : List XNode)

namespace XNode

def name : XNode → List Char
  | node name _ _ => name

def text : XNode → CStr
  | node _ text _ => text

def kids : XNode → List XNode
  | node _ _ kids => kids

/-- `strcmp(n->name, name) == 0`. -/
def named (name : String) (n : XNode) : Bool := n.name = name.toList

end XNode

/-- `g_ascii_isspace`. -/
def isAsciiSpace (c : Char) : Bool := [' ', '\t', '\n', '\x0c', '\r'].contains c

/-- `g_strstrip`. -/
def gStrstrip (s : CStr) : CStr :=
  ⟨(s.1.dropWhile isAsciiSpace).rdropWhile isAsciiSpace, fun h =>
    s.2 ((List.dropWhile_suffix _).subset ((List.rdropWhile_prefix _ _).subset h))⟩

/-- `xchild`; the node may be missing. -/
def xchild (n : Option XNode) (name : String) : Option XNode :=
  n.bind fun n => n.kids.find? (XNode.named name)

/-- `xtext`. -/
def xtext (n : Option XNode) (name : String) : Option CStr :=
  (xchild n name).map fun k => gStrstrip k.text

/-! ## Matching -/

/-- `State`. -/
structure LayoutState where
  serial : UInt32
  layoutMode : UInt32
  mons : List Mon

/-- `spec_is`. -/
def specIs (spec : Option XNode) (m : Mon) (connector : Bool) : Bool :=
  xtext spec "vendor" = some m.vendor && xtext spec "product" = some m.product &&
    xtext spec "serial" = some m.serial &&
    (!connector || xtext spec "connector" = some m.connector)

/-- `config_specs`: every `monitorspec` of a configuration. -/
def configSpecs (cfg : XNode) : List XNode :=
  cfg.kids.flatMap fun k =>
    if k.named "logicalmonitor" then
      k.kids.filterMap fun mon =>
        if mon.named "monitor" then xchild (some mon) "monitorspec" else none
    else if k.named "disabled" then k.kids.filter (XNode.named "monitorspec")
    else []

/-- The layout mode of a configuration: 1 is logical, 2 physical. -/
def configMode (cfg : XNode) : UInt32 :=
  if (xtext (some cfg) "layoutmode").map Subtype.val = some "physical".toList then 2 else 1

/-- One round of the search for a monitor; the pointers `m` and `ours` are equal when the monitors
are, since the connectors differ. -/
def findSpec (m ours : Mon) (found : ℕ) (s : XNode) : ℕ :=
  if found = 2 then found
  else if specIs (some s) m true then 2
  else if m = ours ∧ specIs (some s) m false then 1
  else found

/-- `config_match`: 2 is an exact match, 1 a match but for the connector of `ours`, 0 none. -/
def configMatch (cfg : XNode) (st : LayoutState) (ours : Mon) : ℕ :=
  if configMode cfg ≠ st.layoutMode then 0
  else if (configSpecs cfg).length ≠ st.mons.length then 0
  else st.mons.foldl (fun result m =>
    if result = 0 then result else min result ((configSpecs cfg).foldl (findSpec m ours) 0)) 2

/-- `mon_by_spec`. -/
def monBySpec (st : LayoutState) (spec : Option XNode) (ours : Mon) : Option Mon :=
  st.mons.find? fun m => specIs spec m (m ≠ ours)

/-- `config_connector`: the connector our monitor had in a matching configuration. -/
def configConnector (cfg : XNode) (ours : Mon) : Option CStr :=
  (configSpecs cfg).foldl (fun conn s =>
    if conn.isNone ∧ specIs (some s) ours false then xtext (some s) "connector" else conn) none

/-! ## Applying -/

/-- A logical monitor of `ApplyMonitorsConfig`; its monitors are a connector and a mode id. -/
structure ApplyLogical where
  x : ℤ
  y : ℤ
  scale : ℚ
  transform : ℕ
  primary : Bool
  mons : List (CStr × List Char)

section Apply

variable (strtod : List Char → ℚ) (F : Doubles)

/-- `mode_id`: the mode of the stored size with the closest rate.  `strtod` reads a number. -/
def modeId (m : Mon) (mode : Option XNode) : Option (List Char) :=
  let rate := (xtext mode "rate").elim 60 fun r => strtod r.1
  match xtext mode "width", xtext mode "height" with
  | some w, some h =>
      (m.modes.foldl (fun (best, id) mo =>
        if mo.width = atoi w.1 ∧ mo.height = atoi h.1 ∧ |F.fl (mo.rate - rate)| < best then
          (|F.fl (mo.rate - rate)|, some mo.id)
        else (best, id)) ((10 ^ 9 : ℚ), none)).2
  | _, _ => none

/-- `transform_of`. -/
def transformOf (lm : XNode) : ℕ :=
  let t := xchild (some lm) "transform"
  let rot := (xtext t "rotation").map Subtype.val
  let v := if rot = some "left".toList then 1 else if rot = some "upside_down".toList then 2
    else if rot = some "right".toList then 3 else 0
  if (xtext t "flipped").map Subtype.val = some "yes".toList then v + 4 else v

/-- One monitor of a logical monitor. -/
def buildMonitor (st : LayoutState) (ours : Mon) (mon : XNode) : Option (CStr × List Char) :=
  (monBySpec st (xchild (some mon) "monitorspec") ours).bind fun m =>
    (modeId strtod F m (xchild (some mon) "mode")).map fun id => (m.connector, id)

/-- The monitors of a logical monitor in the file. -/
def enabledMonitors (lm : XNode) : List XNode := lm.kids.filter (XNode.named "monitor")

/-- `build_logical`. -/
def buildLogical (cfg : XNode) (st : LayoutState) (ours : Mon) : Option (List ApplyLogical) :=
  (cfg.kids.filter (XNode.named "logicalmonitor")).mapM fun lm =>
    ((enabledMonitors lm).mapM (buildMonitor strtod F st ours)).map fun mons => {
      x := (xtext (some lm) "x").elim 0 fun x => atoi x.1
      y := (xtext (some lm) "y").elim 0 fun y => atoi y.1
      scale := (xtext (some lm) "scale").elim 1 fun s => strtod s.1
      transform := transformOf lm
      primary := (xtext (some lm) "primary").map Subtype.val = some "yes".toList
      mons := mons }

/-- The connectors a configuration names. -/
def namedConnectors (lms : List ApplyLogical) : List CStr :=
  lms.flatMap fun lm => lm.mons.map Prod.fst

/-- The loop of `restore_for` over the configurations: the one to apply, if any.  `none` when one
matches exactly. -/
def pickConfig (st : LayoutState) (ours : Mon) (last : Option (List Char)) :
    Option XNode → Bool → List XNode → Option (Option XNode)
  | best, _, [] => some best
  | best, bestIsLast, cfg :: cfgs =>
      if cfg.named "configuration" = false then pickConfig st ours last best bestIsLast cfgs
      else if configMatch cfg st ours = 2 then none
      else if configMatch cfg st ours = 1 ∧ bestIsLast = false then
        pickConfig st ours last (some cfg)
          (last.isSome && (configConnector cfg ours).map Subtype.val = last) cfgs
      else pickConfig st ours last best bestIsLast cfgs

/-- What `restore_for` does: `layout_pending`, the file of the last connectors, and the
configuration it applies. -/
structure Restored where
  pending : Bool
  file : Option (List Char)
  applied : Option (List ApplyLogical) := none

/-- `restore_for` a client on a connector; `root` is `monitors.xml`. -/
def restoreFor (root : Option XNode) (file : Option (List Char)) (st : LayoutState)
    (connector : CStr) : Restored :=
  match (st.mons.filter fun m => m.connector = connector).getLast? with
  | none => ⟨true, file, none⟩
  | some ours =>
      match pickConfig st ours (lastGet file ours) none false
          ((xchild root "monitors").elim [] XNode.kids) with
      | none => ⟨false, some (lastSet file ours), none⟩
      | some none => ⟨false, file, none⟩
      | some (some best) =>
          match buildLogical strtod F best st ours with
          | none => ⟨false, file, none⟩
          | some lms =>
              ⟨false, (configConnector best ours).elim file fun c =>
                some (lastSet file { ours with connector := c }), some lms⟩

end Apply

/-! ## What `config_match` finds -/

/-- The stored configuration is one of the current monitors, connectors included. -/
def Exactly (cfg : XNode) (st : LayoutState) : Prop :=
  configMode cfg = st.layoutMode ∧
    Matched (fun s m => specIs (some s) m true = true) (configSpecs cfg) st.mons

/-- It is one of the current monitors once the connector of ours is ignored. -/
def ButForOurs (cfg : XNode) (st : LayoutState) (ours : Mon) : Prop :=
  configMode cfg = st.layoutMode ∧
    Matched (fun s m => specIs (some s) m (m ≠ ours) = true) (configSpecs cfg) st.mons

/-- Every other monitor has its spec, ours does not, but some spec has its identity. -/
structure Almost (cfg : XNode) (st : LayoutState) (ours : Mon) : Prop where
  mode : configMode cfg = st.layoutMode
  count : (configSpecs cfg).length = st.mons.length
  others : ∀ m ∈ st.mons, m ≠ ours → ∃ s ∈ configSpecs cfg, specIs (some s) m true = true
  renamed : ∀ s ∈ configSpecs cfg, specIs (some s) ours true = false
  identity : ∃ s ∈ configSpecs cfg, specIs (some s) ours false = true

section Match

variable {cfg : XNode} {st : LayoutState} {ours m : Mon}

/-- The spec counts for `k`: it is the monitor's own, or for 1 and our monitor its identity. -/
def Hits (m ours : Mon) (k : ℕ) (s : XNode) : Prop :=
  specIs (some s) m true = true ∨ (k = 1 ∧ m = ours ∧ specIs (some s) m false = true)

lemma findSpec_spec (m ours : Mon) {found : ℕ} (h : found ≤ 2) (s : XNode) :
    findSpec m ours found s ≤ 2 ∧
      ∀ k, 1 ≤ k → k ≤ 2 → (k ≤ findSpec m ours found s ↔ k ≤ found ∨ Hits m ours k s) := by
  unfold findSpec Hits
  split_ifs with hfound hexact hours
  · exact ⟨h, fun k _ hk => by omega⟩
  · exact ⟨le_rfl, fun k _ hk => by simp [hexact, hk]⟩
  · refine ⟨by omega, fun k hk _ => ⟨fun h1 => .inr (.inr ⟨by omega, hours⟩), ?_⟩⟩
    rintro (hle | hown | ⟨rfl, -⟩)
    · omega
    · exact absurd hown hexact
    · exact le_rfl
  · refine ⟨h, fun k _ _ => ⟨.inl, ?_⟩⟩
    rintro (hle | hown | ⟨-, hident⟩)
    · exact hle
    · exact absurd hown hexact
    · exact absurd hident hours

/-- The search over the specs. -/
lemma foldl_findSpec (m ours : Mon) (specs : List XNode) {found : ℕ} (h : found ≤ 2) :
    specs.foldl (findSpec m ours) found ≤ 2 ∧
      ∀ k, 1 ≤ k → k ≤ 2 → (k ≤ specs.foldl (findSpec m ours) found ↔
        k ≤ found ∨ ∃ s ∈ specs, Hits m ours k s) := by
  induction specs generalizing found with
  | nil => exact ⟨h, fun k _ _ => by simp⟩
  | cons s specs ih =>
      obtain ⟨hle, hstep⟩ := findSpec_spec m ours h s
      obtain ⟨hle', hrest⟩ := ih hle
      refine ⟨hle', fun k hk hk' => ?_⟩
      rw [List.foldl_cons, hrest k hk hk', hstep k hk hk', List.exists_mem_cons_iff, or_assoc]

/-- The minimum over the monitors. -/
lemma le_foldl_min {f : Mon → ℕ} (mons : List Mon) {k r : ℕ} (hk : 1 ≤ k) :
    k ≤ mons.foldl (fun result m => if result = 0 then result else min result (f m)) r ↔
      k ≤ r ∧ ∀ m ∈ mons, k ≤ f m := by
  induction mons generalizing r with
  | nil => simp
  | cons m mons ih =>
      rw [List.foldl_cons, ih, List.forall_mem_cons]
      have hstep : k ≤ (if r = 0 then r else min r (f m)) ↔ k ≤ r ∧ k ≤ f m := by
        split_ifs with hr
        · omega
        · omega
      rw [hstep, and_assoc]

lemma le_configMatch_iff {k : ℕ} (hk : 1 ≤ k) (hk' : k ≤ 2) : k ≤ configMatch cfg st ours ↔
    configMode cfg = st.layoutMode ∧ (configSpecs cfg).length = st.mons.length ∧
      ∀ m ∈ st.mons, ∃ s ∈ configSpecs cfg, Hits m ours k s := by
  unfold configMatch
  split_ifs with hmode hcount
  · simp only [hmode, false_and, iff_false]
    omega
  · simp only [hcount, false_and, and_false, iff_false]
    omega
  · rw [not_not] at hmode hcount
    rw [le_foldl_min st.mons hk]
    have hsearch : ∀ m, k ≤ (configSpecs cfg).foldl (findSpec m ours) 0 ↔
        ∃ s ∈ configSpecs cfg, Hits m ours k s := by
      intro m
      rw [(foldl_findSpec m ours (configSpecs cfg) (by omega : 0 ≤ 2)).2 k hk hk']
      simp only [show ¬ k ≤ 0 by omega, false_or]
    simp only [hmode, hcount, hk', hsearch, true_and]

lemma configMatch_le : configMatch cfg st ours ≤ 2 := by
  unfold configMatch
  split_ifs
  · omega
  · omega
  · suffices h : ∀ (mons : List Mon) (r : ℕ), r ≤ 2 → mons.foldl (fun result m =>
        if result = 0 then result else min result ((configSpecs cfg).foldl (findSpec m ours) 0)) r ≤ 2
      from h st.mons 2 le_rfl
    intro mons
    induction mons with
    | nil => exact fun r hr => hr
    | cons m mons ih =>
        intro r hr
        refine ih _ ?_
        dsimp only
        split_ifs <;> omega

/-- Two monitors that a spec names by their connectors are one. -/
lemma eq_of_specIs (hdist : (st.mons.map Mon.connector).Nodup) {spec : Option XNode} {m' : Mon}
    (hm : m ∈ st.mons) (hm' : m' ∈ st.mons) (h : specIs spec m true = true)
    (h' : specIs spec m' true = true) : m = m' := by
  simp only [specIs, Bool.and_eq_true, decide_eq_true_eq, Bool.not_true, Bool.false_or] at h h'
  have hconn : m.connector = m'.connector := Option.some.inj (h.2.symm.trans h'.2)
  exact List.inj_on_of_nodup_map hdist hm hm' hconn

lemma identity_of_specIs {spec : Option XNode} {connector : Bool}
    (h : specIs spec m connector = true) : specIs spec m false = true := by
  simp only [specIs, Bool.and_eq_true, Bool.not_false, Bool.true_or, and_true] at h ⊢
  exact h.1

/-- **A result of 2**: every monitor has its spec. -/
lemma configMatch_eq_two (hdist : (st.mons.map Mon.connector).Nodup) :
    configMatch cfg st ours = 2 ↔ Exactly cfg st := by
  have htwo : configMatch cfg st ours = 2 ↔ 2 ≤ configMatch cfg st ours := by
    have hle := @configMatch_le cfg st ours
    omega
  rw [htwo, le_configMatch_iff (by decide) (by decide), Exactly]
  simp only [Hits, show (2 : ℕ) ≠ 1 by decide, false_and, or_false]
  refine and_congr_right fun _ => ⟨fun ⟨hcount, hall⟩ => ?_, fun h => ⟨h.length_eq, fun m hm => ?_⟩⟩
  · exact matched_of_forall_exists (List.Nodup.of_map _ hdist)
      (fun s m hm m' hm' => eq_of_specIs hdist hm hm') hcount hall
  · exact h.exists_left hm

/-- **A result of 1**: it is ours that has none. -/
lemma configMatch_eq_one (hours : ours ∈ st.mons) :
    configMatch cfg st ours = 1 ↔ Almost cfg st ours := by
  have hone : configMatch cfg st ours = 1 ↔
      1 ≤ configMatch cfg st ours ∧ ¬ 2 ≤ configMatch cfg st ours := by omega
  rw [hone, le_configMatch_iff (by decide) (by decide), le_configMatch_iff (by decide) (by decide)]
  simp only [Hits, true_and, show (2 : ℕ) ≠ 1 by decide, false_and, or_false]
  constructor
  · rintro ⟨⟨hmode, hcount, hall⟩, hnot⟩
    have hothers : ∀ m ∈ st.mons, m ≠ ours → ∃ s ∈ configSpecs cfg, specIs (some s) m true = true := by
      intro m hm hne
      obtain ⟨s, hs, hhit⟩ := hall m hm
      exact ⟨s, hs, hhit.resolve_right fun h => hne h.1⟩
    have hrenamed : ∀ s ∈ configSpecs cfg, specIs (some s) ours true = false := by
      intro s hs
      by_contra hexact
      refine hnot ⟨hmode, hcount, fun m hm => ?_⟩
      by_cases hm' : m = ours
      · exact ⟨s, hs, by rw [hm']; simpa using hexact⟩
      · exact hothers m hm hm'
    obtain ⟨s, hs, hhit⟩ := hall ours hours
    refine ⟨hmode, hcount, hothers, hrenamed, s, hs, ?_⟩
    rcases hhit with hexact | ⟨-, hident⟩
    · exact identity_of_specIs hexact
    · exact hident
  · intro h
    refine ⟨⟨h.mode, h.count, fun m hm => ?_⟩, fun ⟨_, _, hall⟩ => ?_⟩
    · by_cases hm' : m = ours
      · obtain ⟨s, hs, hident⟩ := h.identity
        exact ⟨s, hs, .inr ⟨hm', by rw [hm']; exact hident⟩⟩
      · obtain ⟨s, hs, hexact⟩ := h.others m hm hm'
        exact ⟨s, hs, .inl hexact⟩
    · obtain ⟨s, hs, hexact⟩ := hall ours hours
      rw [h.renamed s hs] at hexact
      cases hexact

/-! ## Monitors of one identity -/

/-- The vendor, the product and the serial number are those of ours. -/
def sameIdentity (m ours : Mon) : Bool :=
  m.vendor = ours.vendor && m.product = ours.product && m.serial = ours.serial

/-- Another monitor of our identity. -/
def isTwin (ours m : Mon) : Bool := m ≠ ours && sameIdentity m ours

/-- A spec that is a monitor's has our identity when the monitor has. -/
lemma specIs_ours {spec : Option XNode} {connector : Bool} (h : specIs spec m connector = true)
    (ours : Mon) : specIs spec ours false = sameIdentity m ours := by
  have h' := identity_of_specIs h
  simp only [specIs, Bool.and_eq_true, decide_eq_true_eq, Bool.not_false, Bool.true_or,
    and_true] at h'
  obtain ⟨⟨hvendor, hproduct⟩, hserial⟩ := h'
  simp only [specIs, hvendor, hproduct, hserial, Option.some.injEq, Bool.not_false, Bool.true_or,
    Bool.and_true, sameIdentity]

/-- More specs than other monitors have our identity. -/
def Spare (cfg : XNode) (st : LayoutState) (ours : Mon) : Prop :=
  st.mons.countP (isTwin ours) < (configSpecs cfg).countP fun s => specIs (some s) ours false

/-- Ours, and the others. -/
lemma exists_others (hdist : (st.mons.map Mon.connector).Nodup) (hours : ours ∈ st.mons) :
    ∃ others, st.mons.Perm (ours :: others) ∧ others.Nodup ∧ ∀ m ∈ others, m ∈ st.mons ∧ m ≠ ours := by
  refine ⟨st.mons.erase ours, List.perm_cons_erase hours, ?_, fun m hm => ?_⟩
  · exact (List.Nodup.of_map _ hdist).erase ours
  · have hm' := (List.Nodup.mem_erase_iff (List.Nodup.of_map _ hdist)).mp hm
    exact ⟨hm'.2, hm'.1⟩

/-- In a match but for ours there are the specs of the others, and one more. -/
lemma Almost.exists_spare (h : Almost cfg st ours) (hdist : (st.mons.map Mon.connector).Nodup)
    (hours : ours ∈ st.mons) :
    ∃ others chosen r, st.mons.Perm (ours :: others) ∧ (∀ m ∈ others, m ∈ st.mons ∧ m ≠ ours) ∧
      (configSpecs cfg).Perm (r :: chosen) ∧
      List.Forall₂ (fun s m => specIs (some s) m true = true) chosen others := by
  obtain ⟨others, hperm, hnodup, hothers⟩ := exists_others hdist hours
  obtain ⟨chosen, rest, hchosen, hR⟩ := exists_chosen (R := fun s m => specIs (some s) m true = true)
    hnodup (fun s m hm m' hm' => eq_of_specIs hdist (hothers m hm).1 (hothers m' hm').1)
    fun m hm => h.others m (hothers m hm).1 (hothers m hm).2
  have hlength : rest.length = 1 := by
    have hspecs := hchosen.length_eq
    have hmons := hperm.length_eq
    rw [List.length_append, hR.length_eq] at hspecs
    rw [List.length_cons] at hmons
    have hcount := h.count
    omega
  obtain ⟨r, rfl⟩ := List.length_eq_one_iff.mp hlength
  exact ⟨others, chosen, r, hperm, hothers, hchosen.trans List.perm_append_comm, hR⟩

/-- **The correspondence that ignores our connector** exists when a spec of our identity is left
over. -/
lemma Almost.butForOurs_iff (h : Almost cfg st ours) (hdist : (st.mons.map Mon.connector).Nodup)
    (hours : ours ∈ st.mons) : ButForOurs cfg st ours ↔ Spare cfg st ours := by
  obtain ⟨others, chosen, r, hmons, hothers, hspecs, hR⟩ := h.exists_spare hdist hours
  have hself : sameIdentity ours ours = true := by simp [sameIdentity]
  have htwins : st.mons.countP (isTwin ours) = others.countP fun m => sameIdentity m ours := by
    rw [hmons.countP_eq, List.countP_cons_of_neg (by simp [isTwin])]
    refine List.countP_congr fun m hm => ?_
    simp [isTwin, (hothers m hm).2]
  constructor
  · rintro ⟨-, hmatched⟩
    have hcount := hmatched.countP_eq (p := fun s => specIs (some s) ours false)
      (q := fun m => sameIdentity m ours) fun s m _ hs => specIs_ours hs ours
    rw [Spare, hcount, htwins, hmons.countP_eq,
      List.countP_cons_of_pos (p := fun m => sameIdentity m ours) hself]
    omega
  · intro hspare
    have hcount := (Matched.of_forall₂ hR).countP_eq (p := fun s => specIs (some s) ours false)
      (q := fun m => sameIdentity m ours) fun s m _ hs => specIs_ours hs ours
    rw [Spare, htwins, hspecs.countP_eq] at hspare
    have hr : specIs (some r) ours false = true := by
      by_contra hr
      rw [List.countP_cons_of_neg (by simpa using hr), hcount] at hspare
      omega
    have hR' : List.Forall₂ (fun s m => specIs (some s) m (m ≠ ours) = true) (r :: chosen)
        (ours :: others) := by
      refine .cons (by simpa using hr) (forall₂_of_mem hR fun s m hm hs => ?_)
      rw [decide_eq_true (hothers m hm).2]
      exact hs
    exact ⟨h.mode, ((Matched.of_forall₂ hR').perm_left hspecs).perm_right hmons.symm⟩

/-! ## What `build_logical` names -/

/-- The monitors a configuration shows on. -/
def shown (cfg : XNode) : List XNode :=
  (cfg.kids.filter (XNode.named "logicalmonitor")).flatMap enabledMonitors

/-- The spec of a monitor in the file. -/
def specOf (mon : XNode) : Option XNode := xchild (some mon) "monitorspec"

/-- Every monitor the configuration shows on is there, with a mode that fits. -/
def Resolves (strtod : List Char → ℚ) (F : Doubles) (cfg : XNode) (st : LayoutState)
    (ours : Mon) : Prop :=
  ∀ mon ∈ shown cfg, (buildMonitor strtod F st ours mon).isSome = true

/-- A spec of our identity that is no spec of a monitor listed before ours. -/
def takenForOurs (st : LayoutState) (ours : Mon) (mon : XNode) : Bool :=
  specIs (specOf mon) ours false &&
    (st.mons.takeWhile (· ≠ ours)).all fun m => !specIs (specOf mon) m true

/-- No two of the monitors shown on are taken for ours, nor have the spec of one other monitor. -/
structure Separate (cfg : XNode) (st : LayoutState) (ours : Mon) : Prop where
  taken : (shown cfg).countP (takenForOurs st ours) ≤ 1
  owned : ∀ m ∈ st.mons, m ≠ ours → (shown cfg).countP (fun mon => specIs (specOf mon) m true) ≤ 1

/-- `mon_by_spec` finds ours for what is taken for ours. -/
lemma monBySpec_ours (hours : ours ∈ st.mons) (mon : XNode) :
    monBySpec st (specOf mon) ours = some ours ↔ takenForOurs st ours mon = true := by
  obtain ⟨before, after, hmons, hbefore⟩ := List.eq_append_cons_of_mem hours
  have hne : ∀ m ∈ before, decide (m ≠ ours) = true := fun m hm => by
    rw [decide_eq_true_eq]
    rintro rfl
    exact hbefore hm
  have hlisted : st.mons.takeWhile (· ≠ ours) = before := by
    rw [hmons, List.takeWhile_append_of_pos hne, List.takeWhile_cons_of_neg (by simp),
      List.append_nil]
  rw [takenForOurs, hlisted, Bool.and_eq_true, List.all_eq_true]
  constructor
  · intro hfound
    have hself := List.find?_some hfound
    refine ⟨by simpa using hself, fun m hm => ?_⟩
    rw [monBySpec, hmons, List.find?_append] at hfound
    cases hb : before.find? fun m => specIs (specOf mon) m (m ≠ ours) with
    | some m' =>
        rw [hb, Option.some_or, Option.some.injEq] at hfound
        exact absurd (hfound ▸ List.mem_of_find?_eq_some hb) hbefore
    | none =>
        have hnone := List.find?_eq_none.mp hb m hm
        rw [hne m hm] at hnone
        simpa using hnone
  · rintro ⟨hself, hall⟩
    have hnone : before.find? (fun m => specIs (specOf mon) m (m ≠ ours)) = none := by
      rw [List.find?_eq_none]
      intro m hm
      rw [hne m hm]
      simpa using hall m hm
    rw [monBySpec, hmons, List.find?_append, hnone, Option.none_or,
      List.find?_cons_of_pos (by simpa using hself)]

/-- It finds another monitor for the spec of that monitor, when it is not taken for ours. -/
lemma monBySpec_other (hdist : (st.mons.map Mon.connector).Nodup) (hours : ours ∈ st.mons)
    (hm : m ∈ st.mons) (hne : m ≠ ours) (mon : XNode) : monBySpec st (specOf mon) ours = some m ↔
      specIs (specOf mon) m true = true ∧ takenForOurs st ours mon = false := by
  constructor
  · intro hfound
    have hexact := List.find?_some hfound
    refine ⟨by simpa [hne] using hexact, ?_⟩
    by_contra htaken
    rw [Bool.not_eq_false, ← monBySpec_ours hours, hfound, Option.some.injEq] at htaken
    exact hne htaken
  · rintro ⟨hexact, htaken⟩
    cases hfound : monBySpec st (specOf mon) ours with
    | none =>
        have hnone := List.find?_eq_none.mp hfound m hm
        simp [hne, hexact] at hnone
    | some m' =>
        by_cases hm' : m' = ours
        · rw [hm', monBySpec_ours hours, htaken] at hfound
          cases hfound
        · have hexact' := List.find?_some hfound
          have hsame := eq_of_specIs hdist (List.mem_of_find?_eq_some hfound) hm
            (by simpa [hm'] using hexact') hexact
          rw [hsame]

/-- A monitor's spec is taken for ours as a matter of the monitor: it is a twin, and not listed
before ours. -/
lemma takenForOurs_congr (hdist : (st.mons.map Mon.connector).Nodup) (hm : m ∈ st.mons)
    {mon mon' : XNode} (h : specIs (specOf mon) m true = true)
    (h' : specIs (specOf mon') m true = true) :
    takenForOurs st ours mon = takenForOurs st ours mon' := by
  have hall : ∀ m' ∈ st.mons, specIs (specOf mon) m' true = specIs (specOf mon') m' true := by
    intro m' hm'
    rw [Bool.eq_iff_iff]
    constructor
    · intro hs
      rw [eq_of_specIs hdist hm' hm hs h]
      exact h'
    · intro hs
      rw [eq_of_specIs hdist hm' hm hs h']
      exact h
  unfold takenForOurs
  rw [specIs_ours h, specIs_ours h']
  congr 1
  rw [Bool.eq_iff_iff, List.all_eq_true, List.all_eq_true]
  refine forall₂_congr fun m' hm' => ?_
  rw [hall m' ((List.takeWhile_prefix _).subset hm')]

/-- **At most one of the monitors shown on goes to each current monitor** exactly when they are
separate. -/
lemma separate_iff (hdist : (st.mons.map Mon.connector).Nodup) (hours : ours ∈ st.mons) :
    Separate cfg st ours ↔ ∀ m ∈ st.mons,
      (shown cfg).countP (fun mon => monBySpec st (specOf mon) ours = some m) ≤ 1 := by
  have htaken : (shown cfg).countP (fun mon => monBySpec st (specOf mon) ours = some ours) =
      (shown cfg).countP (takenForOurs st ours) :=
    List.countP_congr fun mon _ => by rw [decide_eq_true_eq, monBySpec_ours hours]
  constructor
  · intro h m hm
    by_cases hne : m = ours
    · rw [hne, htaken]
      exact h.taken
    · refine le_trans (List.countP_mono_left fun mon _ hmon => ?_) (h.owned m hm hne)
      rw [decide_eq_true_eq, monBySpec_other hdist hours hm hne] at hmon
      exact hmon.1
  · intro h
    refine ⟨htaken ▸ h ours hours, fun m hm hne => ?_⟩
    by_cases hall : ∃ mon ∈ shown cfg,
        specIs (specOf mon) m true = true ∧ takenForOurs st ours mon = true
    · obtain ⟨mon, hmon, hexact, hmine⟩ := hall
      refine le_trans (List.countP_mono_left fun mon' _ hexact' => ?_) (htaken ▸ h ours hours)
      rw [← takenForOurs_congr hdist hm hexact hexact']
      exact hmine
    · refine le_trans (List.countP_mono_left fun mon hmon hexact => ?_) (h m hm)
      rw [decide_eq_true_eq, monBySpec_other hdist hours hm hne]
      refine ⟨hexact, ?_⟩
      by_contra hmine
      exact hall ⟨mon, hmon, hexact, by simpa using hmine⟩

variable {strtod : List Char → ℚ} {F : Doubles} {lms : List ApplyLogical}

lemma mapM_eq_some {α β : Type*} {f : α → Option β} {as : List α} {bs : List β} :
    as.mapM f = some bs ↔ List.Forall₂ (fun a b => f a = some b) as bs := by
  induction as generalizing bs with
  | nil => simp [eq_comm]
  | cons a as ih =>
      simp only [List.mapM_cons, Option.bind_eq_bind, Option.bind_eq_some_iff, Option.pure_def,
        Option.some.injEq, List.forall₂_cons_left_iff]
      constructor
      · rintro ⟨b, hb, bs', hbs', rfl⟩
        exact ⟨b, bs', hb, ih.mp hbs', rfl⟩
      · rintro ⟨b, bs', hb, hbs', rfl⟩
        exact ⟨b, hb, bs', ih.mpr hbs', rfl⟩

lemma buildMonitor_eq_some {mon : XNode} {c : CStr} {id : List Char}
    (h : buildMonitor strtod F st ours mon = some (c, id)) :
    ∃ m, monBySpec st (specOf mon) ours = some m ∧ m.connector = c := by
  obtain ⟨m, hm, hid⟩ := Option.bind_eq_some_iff.mp h
  obtain ⟨id', -, hpair⟩ := Option.map_eq_some_iff.mp hid
  exact ⟨m, hm, congrArg Prod.fst hpair⟩

/-- **Each monitor shown on is named by the connector of the monitor found for it.** -/
lemma named_of_buildLogical (h : buildLogical strtod F cfg st ours = some lms) :
    List.Forall₂ (fun mon c => ∃ m, monBySpec st (specOf mon) ours = some m ∧ m.connector = c)
      (shown cfg) (namedConnectors lms) := by
  rw [buildLogical, mapM_eq_some] at h
  unfold shown namedConnectors
  generalize cfg.kids.filter (XNode.named "logicalmonitor") = logical at h
  induction h with
  | nil => exact .nil
  | cons hlm _ ih =>
      rw [List.flatMap_cons, List.flatMap_cons]
      obtain ⟨mons, hmons, rfl⟩ := Option.map_eq_some_iff.mp hlm
      refine List.rel_append ?_ ih
      rw [List.forall₂_map_right_iff]
      exact (mapM_eq_some.mp hmons).imp fun mon c hc => buildMonitor_eq_some hc

lemma exists_mapM_iff {α β : Type*} {f : α → Option β} {as : List α} :
    (∃ bs, as.mapM f = some bs) ↔ ∀ a ∈ as, (f a).isSome = true := by
  simp only [mapM_eq_some]
  induction as with
  | nil => simp
  | cons a as ih =>
      rw [List.forall_mem_cons, ← ih, Option.isSome_iff_exists]
      constructor
      · rintro ⟨bs, hbs⟩
        cases hbs with
        | cons hb hrest => exact ⟨⟨_, hb⟩, _, hrest⟩
      · rintro ⟨⟨b, hb⟩, bs, hbs⟩
        exact ⟨b :: bs, .cons hb hbs⟩

/-- **When `build_logical` succeeds.** -/
lemma resolves_iff : Resolves strtod F cfg st ours ↔
    ∃ lms, buildLogical strtod F cfg st ours = some lms := by
  simp only [buildLogical, exists_mapM_iff, Option.isSome_map, Option.isSome_iff_exists, Resolves,
    shown, List.forall_mem_flatMap]

/-- A connector is named as often as its monitor is found. -/
lemma count_named (hdist : (st.mons.map Mon.connector).Nodup)
    (h : buildLogical strtod F cfg st ours = some lms) (hm : m ∈ st.mons) :
    (namedConnectors lms).count m.connector =
      (shown cfg).countP (fun mon => monBySpec st (specOf mon) ours = some m) := by
  refine ((Matched.of_forall₂ (named_of_buildLogical h)).countP_eq (q := (· == m.connector)) ?_).symm
  rintro mon c - ⟨m', hm', rfl⟩
  rw [Bool.eq_iff_iff, decide_eq_true_eq, beq_iff_eq, hm', Option.some.injEq]
  exact ⟨congrArg Mon.connector,
    List.inj_on_of_nodup_map hdist (List.mem_of_find?_eq_some hm') hm⟩

/-- Only current connectors are named. -/
lemma mem_named (h : buildLogical strtod F cfg st ours = some lms) {c : CStr}
    (hc : c ∈ namedConnectors lms) : ∃ m ∈ st.mons, m.connector = c := by
  obtain ⟨mon, -, m, hm, hconn⟩ := (Matched.of_forall₂ (named_of_buildLogical h)).exists_left hc
  exact ⟨m, List.mem_of_find?_eq_some hm, hconn⟩

/-- **No connector is named twice** when what is shown on is separate. -/
lemma nodup_named_iff (hdist : (st.mons.map Mon.connector).Nodup) (hours : ours ∈ st.mons)
    (h : buildLogical strtod F cfg st ours = some lms) :
    (namedConnectors lms).Nodup ↔ Separate cfg st ours := by
  rw [separate_iff hdist hours, List.nodup_iff_count_le_one]
  constructor
  · intro hcount m hm
    rw [← count_named hdist h hm]
    exact hcount _
  · intro hcount c
    by_cases hc : c ∈ namedConnectors lms
    · obtain ⟨m, hm, rfl⟩ := mem_named h hc
      rw [count_named hdist h hm]
      exact hcount m hm
    · rw [List.count_eq_zero_of_not_mem hc]
      exact Nat.zero_le _

/-- A correspondence that has to ignore our connector is a match but for ours. -/
lemma ButForOurs.almost (h : ButForOurs cfg st ours) (hnot : ¬ Exactly cfg st)
    (hdist : (st.mons.map Mon.connector).Nodup) (hours : ours ∈ st.mons) : Almost cfg st ours := by
  obtain ⟨hmode, hmatched⟩ := h
  have hothers : ∀ m ∈ st.mons, m ≠ ours → ∃ s ∈ configSpecs cfg, specIs (some s) m true = true := by
    intro m hm hne
    obtain ⟨s, hs, hspec⟩ := hmatched.exists_left hm
    exact ⟨s, hs, by simpa [hne] using hspec⟩
  obtain ⟨s, hs, hident⟩ := hmatched.exists_left hours
  refine ⟨hmode, hmatched.length_eq, hothers, fun s hs => ?_, s, hs, by simpa using hident⟩
  by_contra hexact
  refine hnot ⟨hmode, matched_of_forall_exists (List.Nodup.of_map _ hdist)
    (fun s m hm m' hm' => eq_of_specIs hdist hm hm') hmatched.length_eq fun m hm => ?_⟩
  by_cases hm' : m = ours
  · exact ⟨s, hs, by rw [hm']; simpa using hexact⟩
  · exact hothers m hm hm'

/-! ## An identity that occurs once -/

/-- What is shown on has specs of the configuration. -/
lemma specs_shown (cfg : XNode) : ((shown cfg).filterMap specOf).Sublist (configSpecs cfg) := by
  unfold shown configSpecs
  induction cfg.kids with
  | nil => exact .refl _
  | cons k kids ih =>
      rw [List.flatMap_cons]
      by_cases hk : k.named "logicalmonitor" = true
      · rw [List.filter_cons_of_pos hk, List.flatMap_cons, List.filterMap_append, if_pos hk]
        have hspecs : (enabledMonitors k).filterMap specOf = k.kids.filterMap fun mon =>
            if mon.named "monitor" then xchild (some mon) "monitorspec" else none := by
          rw [enabledMonitors, List.filterMap_filter]
          rfl
        rw [hspecs]
        exact ih.append_left _
      · rw [List.filter_cons_of_neg hk]
        exact ih.trans (List.sublist_append_right _ _)

lemma countP_shown_le {P : Option XNode → Bool} (hP : P none = false) :
    (shown cfg).countP (fun mon => P (specOf mon)) ≤ (configSpecs cfg).countP fun s => P (some s) := by
  have hcount : (shown cfg).countP (fun mon => P (specOf mon)) =
      ((shown cfg).filterMap specOf).countP fun s => P (some s) := by
    induction shown cfg with
    | nil => rfl
    | cons mon mons ih =>
        rw [List.countP_cons, ih, List.filterMap_cons]
        cases hspec : specOf mon with
        | none => simp [hP]
        | some s => rw [List.countP_cons]
  rw [hcount]
  exact (specs_shown cfg).countP_le

/-- **Nothing goes wrong as long as no other monitor has our identity.** -/
lemma Almost.of_unique (h : Almost cfg st ours) (hdist : (st.mons.map Mon.connector).Nodup)
    (hours : ours ∈ st.mons) (hunique : ∀ m ∈ st.mons, isTwin ours m = false) :
    Spare cfg st ours ∧ Separate cfg st ours := by
  obtain ⟨others, chosen, r, hmons, hothers, hspecs, hR⟩ := h.exists_spare hdist hours
  have hnone : ∀ m ∈ others, sameIdentity m ours = false := by
    intro m hm
    have := hunique m (hothers m hm).1
    simpa [isTwin, (hothers m hm).2] using this
  -- the specs of the others are not of our identity, so the one left over is
  have hchosen : chosen.countP (fun s => specIs (some s) ours false) = 0 := by
    rw [(Matched.of_forall₂ hR).countP_eq (q := fun m => sameIdentity m ours)
      fun s m _ hs => specIs_ours hs ours, List.countP_eq_zero]
    intro m hm
    rw [hnone m hm]
    decide
  have hsome : 0 < (configSpecs cfg).countP fun s => specIs (some s) ours false :=
    List.countP_pos_iff.mpr h.identity
  have hr : specIs (some r) ours false = true := by
    by_contra hr
    rw [hspecs.countP_eq, List.countP_cons_of_neg (by simpa using hr), hchosen] at hsome
    exact Nat.lt_irrefl 0 hsome
  refine ⟨?_, ?_, fun m hm hne => ?_⟩
  · have htwins : st.mons.countP (isTwin ours) = 0 := by
      rw [List.countP_eq_zero]
      intro m hm
      rw [hunique m hm]
      decide
    rw [Spare, htwins]
    exact hsome
  · have htaken : (shown cfg).countP (takenForOurs st ours) ≤
        (shown cfg).countP fun mon => specIs (specOf mon) ours false :=
      List.countP_mono_left fun mon _ hmon => (Bool.and_eq_true_iff.mp hmon).1
    have hall := @countP_shown_le cfg (fun spec => specIs spec ours false) rfl
    rw [hspecs.countP_eq, List.countP_cons_of_pos (p := fun s => specIs (some s) ours false) hr,
      hchosen] at hall
    exact htaken.trans hall
  · have hall := @countP_shown_le cfg (fun spec => specIs spec m true) rfl
    have hnot : ¬ specIs (some r) m true = true := by
      intro hexact
      have hsame := specIs_ours hexact ours
      have htwin := hunique m hm
      rw [isTwin, ← hsame, hr, decide_eq_true hne] at htwin
      cases htwin
    have hown : chosen.countP (fun s => specIs (some s) m true) = others.count m := by
      refine (Matched.of_forall₂ hR).countP_eq fun s m' hm' hs => ?_
      rw [Bool.eq_iff_iff, beq_iff_eq]
      constructor
      · exact fun hs' => eq_of_specIs hdist (hothers m' hm').1 hm hs hs'
      · rintro rfl
        exact hs
    have hnodup : others.Nodup :=
      (List.nodup_cons.mp (hmons.nodup_iff.mp (List.Nodup.of_map _ hdist))).2
    rw [hspecs.countP_eq, List.countP_cons_of_neg (p := fun s => specIs (some s) m true) hnot,
      hown] at hall
    exact hall.trans (List.nodup_iff_count_le_one.mp hnodup m)

/-- **When stored configurations are matched one to one.**  A result of 2 is always right.  A
result of 1 stands for a correspondence that ignores our connector, and the configuration applied
names each current connector once at most, exactly when a match but for ours has a spec of our
identity to spare, and, if it fits, what it shows on is separate. -/
theorem layout_match_iff (strtod : List Char → ℚ) (F : Doubles) (cfg : XNode) (st : LayoutState)
    {ours : Mon} (hdist : (st.mons.map Mon.connector).Nodup) (hours : ours ∈ st.mons) :
    ((configMatch cfg st ours = 2 ↔ Exactly cfg st) ∧
      (configMatch cfg st ours = 1 ↔ ¬ Exactly cfg st ∧ ButForOurs cfg st ours) ∧
      (configMatch cfg st ours = 1 → ∀ lms, buildLogical strtod F cfg st ours = some lms →
        (namedConnectors lms).Nodup ∧ ∀ c ∈ namedConnectors lms, ∃ m ∈ st.mons, m.connector = c)) ↔
    (Almost cfg st ours →
      Spare cfg st ours ∧ (Resolves strtod F cfg st ours → Separate cfg st ours)) := by
  have htwo := @configMatch_eq_two cfg st ours hdist
  have hone := @configMatch_eq_one cfg st ours hours
  constructor
  · rintro ⟨-, hloose, happly⟩ halmost
    have hresult := hone.mpr halmost
    refine ⟨(halmost.butForOurs_iff hdist hours).mp (hloose.mp hresult).2, fun hresolves => ?_⟩
    obtain ⟨lms, hlms⟩ := resolves_iff.mp hresolves
    exact (nodup_named_iff hdist hours hlms).mp (happly hresult lms hlms).1
  · intro h
    refine ⟨htwo, ⟨fun hresult => ?_, fun ⟨hnot, hloose⟩ => ?_⟩, fun hresult lms hlms => ?_⟩
    · have halmost := hone.mp hresult
      refine ⟨fun hexact => ?_, (halmost.butForOurs_iff hdist hours).mpr (h halmost).1⟩
      rw [htwo.mpr hexact] at hresult
      cases hresult
    · exact hone.mpr (hloose.almost hnot hdist hours)
    · have halmost := hone.mp hresult
      exact ⟨(nodup_named_iff hdist hours hlms).mpr ((h halmost).2 (resolves_iff.mpr ⟨lms, hlms⟩)),
        fun c => mem_named hlms⟩

end Match

/-! ## What `restore_for` applies -/

section Restore

variable {strtod : List Char → ℚ} {F : Doubles} {st : LayoutState} {ours : Mon}

/-- A configuration that is picked matches but for ours. -/
lemma pickConfig_match {last : Option (List Char)} (cfgs : List XNode) {best : Option XNode}
    {bestIsLast : Bool} (hbest : ∀ cfg, best = some cfg → configMatch cfg st ours = 1) {cfg : XNode}
    (h : pickConfig st ours last best bestIsLast cfgs = some (some cfg)) :
    configMatch cfg st ours = 1 := by
  induction cfgs generalizing best bestIsLast with
  | nil => exact hbest cfg (Option.some.inj h)
  | cons cfg' cfgs ih =>
      rw [pickConfig] at h
      split at h
      · exact ih hbest h
      split at h
      · cases h
      split at h <;> rename_i hone
      · exact ih (fun cfg hcfg => Option.some.inj hcfg ▸ hone.1) h
      · exact ih hbest h

/-- **What is applied** is a configuration that matches but for the connector of the client's
monitor, with that connector renamed. -/
lemma restoreFor_applied {root : Option XNode} {file : Option (List Char)} {connector : CStr}
    {lms : List ApplyLogical}
    (h : (restoreFor strtod F root file st connector).applied = some lms) :
    ∃ ours ∈ st.mons, ours.connector = connector ∧ ∃ cfg, configMatch cfg st ours = 1 ∧
      buildLogical strtod F cfg st ours = some lms := by
  unfold restoreFor at h
  split at h <;> rename_i hours
  · cases h
  rename_i ours
  obtain ⟨hmem, hconn⟩ := List.mem_filter.mp (List.mem_of_getLast? hours)
  split at h <;> rename_i hpick
  · cases h
  · cases h
  rename_i best
  split at h <;> rename_i hbuild
  · cases h
  · obtain rfl := Option.some.inj h
    exact ⟨ours, hmem, by simpa using hconn, best,
      pickConfig_match _ (fun _ hnone => (Option.some_ne_none _ hnone.symm).elim) hpick, hbuild⟩

end Restore

/-! ## Two screens of one identity -/

section Example

/-- An element with text alone. -/
def leaf (name text : String) : XNode := .node name.toList (toCStr text.toList) []

/-- A `monitorspec`. -/
def specNode (connector vendor product serial : String) : XNode :=
  .node "monitorspec".toList (toCStr [])
    [leaf "connector" connector, leaf "vendor" vendor, leaf "product" product, leaf "serial" serial]

/-- A logical monitor that shows on one monitor at 1920 by 1080. -/
def logicalNode (spec : XNode) : XNode :=
  .node "logicalmonitor".toList (toCStr []) [.node "monitor".toList (toCStr []) [spec,
    .node "mode".toList (toCStr []) [leaf "width" "1920", leaf "height" "1080"]]]

def configNode (specs : List XNode) : XNode :=
  .node "configuration".toList (toCStr []) (specs.map logicalNode)

/-- A monitor with that mode. -/
def screen (connector vendor product serial : String) : Mon :=
  ⟨toCStr connector.toList, toCStr vendor.toList, toCStr product.toList, toCStr serial.toList,
    [⟨"1920x1080@60".toList, 1920, 1080, 60⟩]⟩

/-- Ours comes first, and another monitor has its identity: both specs are taken for ours. -/
theorem connector_named_twice :
    let ours := screen "DVI-I-2" "EVD" "screen" "7"
    let st : LayoutState := ⟨1, 1, [ours, screen "DVI-I-3" "EVD" "screen" "7"]⟩
    let cfg := configNode [specNode "DVI-I-3" "EVD" "screen" "7", specNode "DVI-I-1" "EVD" "screen" "7"]
    (st.mons.map Mon.connector).Nodup ∧ configMatch cfg st ours = 1 ∧
      (buildLogical (fun _ => 60) Doubles.rational cfg st ours).map namedConnectors =
        some [toCStr "DVI-I-2".toList, toCStr "DVI-I-2".toList] := by
  decide +kernel

/-- Without a second monitor of the identity the renamed screen is matched. -/
theorem renamed_screen_matched :
    let ours := screen "DVI-I-2" "EVD" "screen" "7"
    let st : LayoutState := ⟨1, 1, [ours, screen "DP-1" "ACM" "desk" "9"]⟩
    let cfg := configNode [specNode "DP-1" "ACM" "desk" "9", specNode "DVI-I-1" "EVD" "screen" "7"]
    ¬ Exactly cfg st ∧ ButForOurs cfg st ours := by
  intro ours st cfg
  have hdist : (st.mons.map Mon.connector).Nodup := by decide +kernel
  have hours : ours ∈ st.mons := List.mem_cons_self ..
  have hsettled := (layout_match_iff (fun _ => 60) Doubles.rational cfg st hdist hours).mpr
    fun h => (h.of_unique hdist hours (by decide +kernel)).imp_right fun h _ => h
  exact hsettled.2.1.mp (by decide +kernel)

end Example

end Sremfb
