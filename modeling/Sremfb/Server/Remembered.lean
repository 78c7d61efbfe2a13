import Sremfb.Server.Displays

/-!
# The layout a screen comes back to (`layout.c`)

A screen keeps its identity and changes its connector.  Of the configurations that are stored for
its connectors of the past one is the latest, and that one is to be applied, whatever the order in
which the compositor happens to write its file.  So the server records the connector of the
configuration it has applied, in a text file with the screens of everybody else, and looks it up
the next time.

`restoreFor_back` is one such time: with the connector recorded, the configuration found is the one
stored for it (`pickConfig_recorded`), and what is built of it differs from the last time in the
connector alone (`buildLogical_back`).  That nothing in between loses the record is an invariant of
the run, `Kept`, in which other screens come and go and are recorded in the same file
(`lastGet_lastSet_other`), and our own comes and goes, too.  `layout_stays` puts the two together.

What ends it is a configuration saved by the user, stored for the connector in use.
-/

namespace Sremfb

open Lib

/-! ## The record -/

section Record

variable {m m' : Mon} {file : Option (List Char)}

lemma lastGet_lastSet (h : m.OneLine) (m' : Mon) : lastGet (some (lastSet file m)) m' =
    getLine m' (((fileLines file).filter m.keeps).foldl (getLine m') none) m.line := by
  rw [lastGet, fileLines_lastSet h, List.foldl_append, List.foldl_append]
  rfl

lemma lastGet_lastSet_own (h : m.OneLine) (hkey : m.key = m'.key) :
    lastGet (some (lastSet file m)) m' = some m.connector.1 := by
  rw [lastGet_lastSet h, getLine, h.lineFields]
  exact if_pos hkey

lemma lastGet_lastSet_other (h : m.OneLine) (hkey : m.key ≠ m'.key) :
    lastGet (some (lastSet file m)) m' = lastGet file m' := by
  rw [lastGet_lastSet h, getLine, h.lineFields, foldl_getLine_filter (Ne.symm hkey)]
  exact if_neg hkey

end Record

/-! ## The configuration that is picked -/

/-- The stored configurations. -/
def storedConfigs (root : Option XNode) : List XNode :=
  ((xchild root "monitors").elim [] XNode.kids).filter (XNode.named "configuration")

section Pick

variable {st : LayoutState} {ours : Mon} {last : Option (List Char)} {best : XNode}

/-- Elements that are no configurations are passed over. -/
lemma pickConfig_filter (cfgs : List XNode) (b : Option XNode) (isLast : Bool) :
    pickConfig st ours last b isLast (cfgs.filter (XNode.named "configuration")) =
      pickConfig st ours last b isLast cfgs := by
  induction cfgs generalizing b isLast with
  | nil => rfl
  | cons cfg cfgs ih =>
      cases hnamed : cfg.named "configuration" with
      | false =>
          rw [List.filter_cons_of_neg (by simp [hnamed]), ih, pickConfig, if_pos hnamed]
      | true =>
          rw [List.filter_cons_of_pos hnamed, pickConfig, pickConfig]
          simp only [hnamed, ih]

/-- Only a configuration that matches is picked. -/
lemma mem_of_pickConfig (cfgs : List XNode) {b : Option XNode} {isLast : Bool}
    (h : pickConfig st ours last b isLast cfgs = some (some best)) :
    b = some best ∨ best ∈ cfgs ∧ configMatch best st ours = 1 := by
  induction cfgs generalizing b isLast with
  | nil => exact .inl (Option.some.inj h)
  | cons cfg cfgs ih =>
      rw [pickConfig] at h
      split at h
      · exact (ih h).imp_right fun h => ⟨List.mem_cons_of_mem _ h.1, h.2⟩
      split at h
      · cases h
      split at h <;> rename_i hone
      · obtain hb | hmem := ih h
        · obtain rfl := Option.some.inj hb
          exact .inr ⟨List.mem_cons_self .., hone.1⟩
        · exact .inr ⟨List.mem_cons_of_mem _ hmem.1, hmem.2⟩
      · exact (ih h).imp_right fun h => ⟨List.mem_cons_of_mem _ h.1, h.2⟩

/-- The configuration of the last connector is not replaced. -/
lemma pickConfig_isLast (cfgs : List XNode) (b : Option XNode)
    (hno : ∀ cfg ∈ cfgs, configMatch cfg st ours ≠ 2) :
    pickConfig st ours last b true cfgs = some b := by
  induction cfgs with
  | nil => rfl
  | cons cfg cfgs ih =>
      obtain ⟨hcfg, hno⟩ := List.forall_mem_cons.mp hno
      rw [pickConfig, ih hno, if_neg hcfg]
      simp only [Bool.true_eq_false, and_false, if_false, ite_self]

/-- **With the connector on record, its configuration is picked**, wherever it stands. -/
lemma pickConfig_recorded {k : CStr} (cfgs : List XNode) (b : Option XNode)
    (hnamed : ∀ cfg ∈ cfgs, cfg.named "configuration" = true)
    (hno : ∀ cfg ∈ cfgs, configMatch cfg st ours ≠ 2) (hbest : best ∈ cfgs)
    (hone : configMatch best st ours = 1) (hk : configConnector best ours = some k)
    (huniq : ∀ cfg ∈ cfgs, configMatch cfg st ours = 1 → configConnector cfg ours = some k →
      cfg = best) :
    pickConfig st ours (some k.1) b false cfgs = some (some best) := by
  induction cfgs generalizing b with
  | nil => exact (List.not_mem_nil hbest).elim
  | cons cfg cfgs ih =>
      obtain ⟨hcfg, hnamed⟩ := List.forall_mem_cons.mp hnamed
      obtain ⟨hcfgno, hno⟩ := List.forall_mem_cons.mp hno
      obtain ⟨hcfguniq, huniq⟩ := List.forall_mem_cons.mp huniq
      rw [pickConfig, if_neg (by simp [hcfg]), if_neg hcfgno]
      by_cases hsame : cfg = best
      · rw [if_pos ⟨hsame ▸ hone, rfl⟩, hsame, hk]
        simp only [Option.isSome_some, Option.map_some, Bool.true_and, decide_true]
        exact pickConfig_isLast cfgs _ hno
      · have hbest : best ∈ cfgs := (List.mem_cons.mp hbest).resolve_left (Ne.symm hsame)
        split <;> rename_i hmatch
        · have hother : (configConnector cfg ours).map Subtype.val ≠ some k.1 := by
            intro hname
            obtain ⟨c, hc, hval⟩ := Option.map_eq_some_iff.mp hname
            exact hsame (hcfguniq hmatch.1 (hc.trans (congrArg some (Subtype.ext hval))))
          simp only [Option.isSome_some, Bool.true_and, hother, decide_false]
          exact ih _ hnamed hno hbest huniq
        · exact ih _ hnamed hno hbest huniq

end Pick

/-! ## A screen on another connector -/

/-- The monitor on another connector. -/
def Mon.on (m : Mon) (c : CStr) : Mon := { m with connector := c }

/-- Our monitor is moved, the others stay. -/
def Mon.moved (ours : Mon) (c : CStr) (m : Mon) : Mon := if m = ours then ours.on c else m

/-- What is applied, with one connector for another. -/
def ApplyLogical.moved (a b : CStr) (lm : ApplyLogical) : ApplyLogical :=
  { lm with mons := lm.mons.map fun p => (if p.1 = a then b else p.1, p.2) }

/-- Nothing is stored for the monitor on its connector. -/
def Unnamed (root : Option XNode) (m : Mon) : Prop :=
  ∀ cfg ∈ storedConfigs root, ∀ s ∈ configSpecs cfg, specIs (some s) m true = false

/-- Our monitor is on a connector that is new to the compositor's file, and the only one of its
identity. -/
structure Plugged (root : Option XNode) (st : LayoutState) (ours : Mon) : Prop where
  mem : ours ∈ st.mons
  dist : (st.mons.map Mon.connector).Nodup
  alone : ∀ m ∈ st.mons, sameIdentity m ours = true → m = ours
  unnamed : Unnamed root ours

/-- The same displays, in any order, with ours on another connector, also a new one. -/
structure Back (root : Option XNode) (st : LayoutState) (ours : Mon) (st' : LayoutState) (c : CStr) :
    Prop where
  mode : st'.layoutMode = st.layoutMode
  mons : st'.mons.Perm (st.mons.map (ours.moved c))
  dist : (st'.mons.map Mon.connector).Nodup
  unnamed : Unnamed root (ours.on c)

section Moved

variable {root : Option XNode} {st st' : LayoutState} {ours m : Mon} {c : CStr} {cfg : XNode}

@[simp] lemma Mon.moved_self (ours : Mon) (c : CStr) : ours.moved c ours = ours.on c := if_pos rfl

lemma Mon.moved_of_ne (h : m ≠ ours) : ours.moved c m = m := if_neg h

lemma specIs_on (spec : Option XNode) (m : Mon) (c : CStr) :
    specIs spec (m.on c) false = specIs spec m false := rfl

lemma configConnector_on (cfg : XNode) (m : Mon) (c : CStr) :
    configConnector cfg (m.on c) = configConnector cfg m := rfl

/-- Another monitor is not ours, wherever ours is. -/
lemma Plugged.ne_on (h : Plugged root st ours) (hm : m ∈ st.mons) (hne : m ≠ ours) (c : CStr) :
    m ≠ ours.on c := by
  rintro rfl
  exact hne (h.alone _ hm (by simp [sameIdentity, Mon.on]))

lemma Back.mem_iff (hb : Back root st ours st' c) :
    m ∈ st'.mons ↔ ∃ o ∈ st.mons, ours.moved c o = m := by
  rw [hb.mons.mem_iff, List.mem_map]

/-- It is plugged again. -/
lemma Back.plugged (hb : Back root st ours st' c) (h : Plugged root st ours) :
    Plugged root st' (ours.on c) where
  mem := hb.mem_iff.mpr ⟨ours, h.mem, ours.moved_self c⟩
  dist := hb.dist
  alone m hm hsame := by
    obtain ⟨o, ho, rfl⟩ := hb.mem_iff.mp hm
    by_cases hours : o = ours
    · rw [hours, Mon.moved_self]
    · rw [Mon.moved_of_ne hours] at hsame ⊢
      exact absurd (h.alone o ho hsame) hours
  unnamed := hb.unnamed

/-- A stored configuration does not match a new connector exactly. -/
lemma Plugged.not_two (h : Plugged root st ours) (hcfg : cfg ∈ storedConfigs root) :
    configMatch cfg st ours ≠ 2 := by
  intro htwo
  obtain ⟨-, -, hall⟩ := (le_configMatch_iff (by decide) (by decide)).mp htwo.ge
  obtain ⟨s, hs, hexact | ⟨htwo, -⟩⟩ := hall ours h.mem
  · exact absurd ((h.unnamed cfg hcfg s hs).symm.trans hexact) (by decide)
  · cases htwo

/-- **What matched still matches.** -/
lemma Back.configMatch (hb : Back root st ours st' c) (h : Plugged root st ours)
    (hcfg : cfg ∈ storedConfigs root) :
    configMatch cfg st' (ours.on c) = 1 ↔ configMatch cfg st ours = 1 := by
  rw [configMatch_eq_one (hb.plugged h).mem, configMatch_eq_one h.mem]
  have hlength : st'.mons.length = st.mons.length := by
    rw [hb.mons.length_eq, List.length_map]
  constructor
  · rintro ⟨hmode, hcount, hothers, -, hident⟩
    refine ⟨hmode.trans hb.mode, hcount.trans hlength, fun m hm hne => ?_, h.unnamed cfg hcfg, hident⟩
    have hstay : ours.moved c m = m := Mon.moved_of_ne hne
    exact hothers m (hb.mem_iff.mpr ⟨m, hm, hstay⟩) (h.ne_on hm hne c)
  · rintro ⟨hmode, hcount, hothers, -, hident⟩
    refine ⟨hmode.trans hb.mode.symm, hcount.trans hlength.symm, fun m hm hne => ?_,
      hb.unnamed cfg hcfg, hident⟩
    obtain ⟨o, ho, rfl⟩ := hb.mem_iff.mp hm
    have hother : o ≠ ours := by
      rintro rfl
      exact hne (o.moved_self c)
    rw [Mon.moved_of_ne hother]
    exact hothers o ho hother

/-- `mon_by_spec` finds the one monitor that the spec is of. -/
lemma Plugged.monBySpec_iff (h : Plugged root st ours) {spec : Option XNode} :
    monBySpec st spec ours = some m ↔ m ∈ st.mons ∧ specIs spec m (m ≠ ours) = true := by
  have hone : ∀ a ∈ st.mons, ∀ b ∈ st.mons, specIs spec a (a ≠ ours) = true →
      specIs spec b (b ≠ ours) = true → a = b := by
    intro a ha b hb hsa hsb
    have hident : ∀ o ∈ st.mons, specIs spec ours false = true → specIs spec o (o ≠ ours) = true →
        o = ours := fun o ho hours hso => h.alone o ho ((specIs_ours hso ours).symm.trans hours)
    by_cases ha' : a = ours
    · rw [ha'] at hsa ⊢
      exact (hident b hb (identity_of_specIs hsa) hsb).symm
    by_cases hb' : b = ours
    · rw [hb'] at hsb ⊢
      exact hident a ha (identity_of_specIs hsb) hsa
    · simp only [ne_eq, ha', hb', not_false_eq_true, decide_true] at hsa hsb
      exact eq_of_specIs h.dist ha hb hsa hsb
  unfold monBySpec
  constructor
  · intro hfind
    have hspec := List.find?_some hfind
    exact ⟨List.mem_of_find?_eq_some hfind, hspec⟩
  · rintro ⟨hm, hspec⟩
    have hsome : (st.mons.find? fun o => specIs spec o (o ≠ ours)).isSome = true :=
      List.find?_isSome.mpr ⟨m, hm, hspec⟩
    obtain ⟨o, ho⟩ := Option.isSome_iff_exists.mp hsome
    have hoo := List.find?_some ho
    rw [ho, hone o (List.mem_of_find?_eq_some ho) m hm hoo hspec]

lemma Back.monBySpec (hb : Back root st ours st' c) (h : Plugged root st ours)
    (spec : Option XNode) :
    monBySpec st' spec (ours.on c) = (Sremfb.monBySpec st spec ours).map (ours.moved c) := by
  apply Option.ext
  intro m
  rw [(hb.plugged h).monBySpec_iff, hb.mem_iff, Option.map_eq_some_iff]
  -- a spec is of the moved monitor when it was of the monitor
  have hsame : ∀ o ∈ st.mons, specIs spec (ours.moved c o) (ours.moved c o ≠ ours.on c) =
      specIs spec o (o ≠ ours) := by
    intro o ho
    by_cases hours : o = ours
    · simp [hours, specIs_on]
    · simp [Mon.moved_of_ne hours, hours, h.ne_on ho hours c]
  constructor
  · rintro ⟨⟨o, ho, rfl⟩, hspec⟩
    exact ⟨o, h.monBySpec_iff.mpr ⟨ho, (hsame o ho).symm.trans hspec⟩, rfl⟩
  · rintro ⟨o, hfind, rfl⟩
    obtain ⟨ho, hspec⟩ := h.monBySpec_iff.mp hfind
    exact ⟨⟨o, ho, rfl⟩, (hsame o ho).trans hspec⟩

variable {strtod : List Char → ℚ} {F : Doubles}

lemma mapM_map {α β γ : Type*} (f : α → Option β) (g : β → γ) (as : List α) :
    as.mapM (fun a => (f a).map g) = (as.mapM f).map (List.map g) := by
  induction as with
  | nil => rfl
  | cons a as ih =>
      rw [List.mapM_cons, List.mapM_cons, ih]
      cases f a with
      | none => rfl
      | some b => cases as.mapM f <;> rfl

lemma Back.buildMonitor (hb : Back root st ours st' c) (h : Plugged root st ours) (mon : XNode) :
    buildMonitor strtod F st' (ours.on c) mon = (Sremfb.buildMonitor strtod F st ours mon).map
      fun p => (if p.1 = ours.connector then c else p.1, p.2) := by
  unfold Sremfb.buildMonitor
  rw [hb.monBySpec h]
  cases hfind : Sremfb.monBySpec st (xchild (some mon) "monitorspec") ours with
  | none => rfl
  | some o =>
      obtain ⟨ho, -⟩ := h.monBySpec_iff.mp hfind
      simp only [Option.map_some, Option.bind_some, Option.map_map]
      by_cases hours : o = ours
      · rw [hours, Mon.moved_self]
        refine congrArg₂ Option.map (funext fun id => ?_) rfl
        simp [Mon.on]
      · have hconn : o.connector ≠ ours.connector := fun heq =>
          hours (List.inj_on_of_nodup_map h.dist ho h.mem heq)
        rw [Mon.moved_of_ne hours]
        refine congrArg₂ Option.map (funext fun id => ?_) rfl
        simp [hconn]

/-- **What is built differs in the connector alone.** -/
lemma Back.buildLogical (hb : Back root st ours st' c) (h : Plugged root st ours) (cfg : XNode) :
    buildLogical strtod F cfg st' (ours.on c) = (Sremfb.buildLogical strtod F cfg st ours).map
      (List.map (ApplyLogical.moved ours.connector c)) := by
  unfold Sremfb.buildLogical
  rw [← mapM_map]
  congr 1
  funext lm
  have hmons : (enabledMonitors lm).mapM (Sremfb.buildMonitor strtod F st' (ours.on c)) =
      ((enabledMonitors lm).mapM (Sremfb.buildMonitor strtod F st ours)).map
        (List.map fun p => (if p.1 = ours.connector then c else p.1, p.2)) := by
    rw [← mapM_map]
    exact congrArg (List.mapM · _) (funext fun mon => hb.buildMonitor h mon)
  rw [hmons, Option.map_map, Option.map_map]
  rfl

end Moved

/-! ## One restoration -/

section Restored

variable {strtod : List Char → ℚ} {F : Doubles} {root : Option XNode} {file : Option (List Char)}
  {st st' : LayoutState} {ours o : Mon} {connector : CStr}

lemma configConnector_eq (cfg : XNode) (ours : Mon) : configConnector cfg ours =
    ((configSpecs cfg).filter fun s => specIs (some s) ours false).findSome?
      fun s => xtext (some s) "connector" := by
  unfold configConnector
  generalize configSpecs cfg = specs
  have hkeep : ∀ (specs : List XNode) (c : CStr), specs.foldl (fun conn s =>
      if conn.isNone ∧ specIs (some s) ours false then xtext (some s) "connector" else conn)
      (some c) = some c := by
    intro specs c
    induction specs with
    | nil => rfl
    | cons s specs ih => exact ih
  induction specs with
  | nil => rfl
  | cons s specs ih =>
      rw [List.foldl_cons]
      cases hident : specIs (some s) ours false with
      | false =>
          rw [List.filter_cons_of_neg (by simp [hident]), if_neg (by simp)]
          exact ih
      | true =>
          have hcons : (s :: specs).filter (fun s => specIs (some s) ours false) =
              s :: specs.filter fun s => specIs (some s) ours false := List.filter_cons_of_pos hident
          rw [hcons, List.findSome?_cons, if_pos ⟨rfl, rfl⟩]
          cases xtext (some s) "connector" with
          | none => exact ih
          | some c => exact hkeep specs c

/-- The connector is one that a spec of the configuration names. -/
lemma named_of_configConnector {cfg : XNode} {c : CStr} (h : configConnector cfg ours = some c) :
    ∃ s ∈ configSpecs cfg, xtext (some s) "connector" = some c := by
  rw [configConnector_eq] at h
  obtain ⟨s, hs, hc⟩ := List.exists_of_findSome?_eq_some h
  exact ⟨s, (List.mem_filter.mp hs).1, hc⟩

lemma Plugged.ourMonitor (h : Plugged root st ours) : ourMonitor st ours.connector = some ours := by
  cases hfind : Sremfb.ourMonitor st ours.connector with
  | none => exact absurd rfl (ourMonitor_eq_none.mp hfind ours h.mem)
  | some o =>
      obtain ⟨ho, hconn⟩ := List.mem_filter.mp (List.mem_of_getLast? hfind)
      rw [List.inj_on_of_nodup_map h.dist ho h.mem (by simpa using hconn)]

/-- **What `restore_for` does** for a monitor that is there. -/
lemma restoreFor_cases (strtod : List Char → ℚ) (F : Doubles)
    (h : Sremfb.ourMonitor st connector = some o) (root : Option XNode)
    (file : Option (List Char)) :
    let pick := pickConfig st o (lastGet file o) none false (storedConfigs root)
    let r := restoreFor strtod F root file st connector
    (pick = none ∧ r = ⟨false, some (lastSet file o), none⟩) ∨
      (r = ⟨false, file, none⟩ ∧
        ∀ best, pick = some (some best) → buildLogical strtod F best st o = none) ∨
      ∃ best lms, pick = some (some best) ∧ buildLogical strtod F best st o = some lms ∧
        r = ⟨false, (configConnector best o).elim file fun c => some (lastSet file (o.on c)),
          some lms⟩ := by
  intro pick r
  have hpick : pickConfig st o (lastGet file o) none false
      ((xchild root "monitors").elim [] XNode.kids) = pick := (pickConfig_filter _ _ _).symm
  have hr : restoreFor strtod F root file st connector = r := rfl
  unfold restoreFor at hr
  rw [show (st.mons.filter fun m => m.connector = connector).getLast? = some o from h] at hr
  dsimp only at hr
  rw [hpick] at hr
  cases hcase : pick with
  | none =>
      rw [hcase] at hr
      exact .inl ⟨rfl, hr.symm⟩
  | some picked =>
      rw [hcase] at hr
      cases picked with
      | none => exact .inr (.inl ⟨hr.symm, fun best hbest => by cases hbest⟩)
      | some best =>
          dsimp only at hr
          cases hbuild : buildLogical strtod F best st o with
          | none =>
              rw [hbuild] at hr
              exact .inr (.inl ⟨hr.symm, fun best' hbest => by
                obtain rfl := Option.some.inj (Option.some.inj hbest)
                exact hbuild⟩)
          | some lms =>
              rw [hbuild] at hr
              exact .inr (.inr ⟨best, lms, rfl, hbuild, hr.symm⟩)

/-- Every stored spec names a connector, on one line. -/
def PlainNames (root : Option XNode) : Prop :=
  ∀ cfg ∈ storedConfigs root, ∀ s ∈ configSpecs cfg,
    (xtext (some s) "connector").any (fun c => '\n' ∉ c.1) = true

/-- A screen of another identity, whose line can be read back. -/
structure Mon.Elsewhere (ours o : Mon) : Prop where
  line : o.OneLine
  key : o.key ≠ ours.key

/-- The configuration that is ours: of those that match, the one stored for the connector `k`. -/
structure Chosen (root : Option XNode) (st : LayoutState) (ours : Mon) (best : XNode) (k : CStr) :
    Prop where
  plugged : Plugged root st ours
  line : ours.OneLine
  names : PlainNames root
  mem : best ∈ storedConfigs root
  fits : configMatch best st ours = 1
  conn : configConnector best ours = some k
  only : ∀ cfg ∈ storedConfigs root, configMatch cfg st ours = 1 →
    configConnector cfg ours = some k → cfg = best

variable {best : XNode} {k c : CStr} {root' : Option XNode}

/-- A monitor on a connector of the file. -/
lemma PlainNames.oneLine (h : PlainNames root) (ho : o.OneLine) {cfg : XNode}
    (hcfg : cfg ∈ storedConfigs root) {ours : Mon} (hc : configConnector cfg ours = some c) :
    (o.on c).OneLine := by
  obtain ⟨s, hs, hname⟩ := named_of_configConnector hc
  have hplain := h cfg hcfg s hs
  rw [hname] at hplain
  have hconnector : '\n' ∉ c.1 := by simpa using hplain
  exact ⟨ho.serial, ho.product, hconnector⟩

/-- Restoring another screen leaves our record alone. -/
lemma lastGet_restoreFor_other (hnames : PlainNames root)
    (h : Sremfb.ourMonitor st connector = some o) (ho : Mon.Elsewhere ours o)
    (file : Option (List Char)) :
    lastGet (restoreFor strtod F root file st connector).file ours = lastGet file ours := by
  obtain ⟨-, hr⟩ | ⟨hr, -⟩ | ⟨best, lms, hpick, -, hr⟩ :=
    restoreFor_cases strtod F h root file
  · rw [hr]
    exact lastGet_lastSet_other ho.line ho.key
  · rw [hr]
  · rw [hr]
    obtain hnone | ⟨hmem, -⟩ := mem_of_pickConfig _ hpick
    · cases hnone
    dsimp only
    cases hc : configConnector best o with
    | none => rfl
    | some c => exact lastGet_lastSet_other (hnames.oneLine ho.line hmem hc) ho.key

/-- **Our screen comes back**: the configuration on record is found, and stays on record. -/
lemma restoreFor_back (h : Chosen root st ours best k)
    (hroot : (storedConfigs root').Perm (storedConfigs root)) (hlast : lastGet file ours = some k.1)
    (hb : Back root st ours st' c) :
    let r := restoreFor strtod F root' file st' c
    lastGet r.file ours = some k.1 ∧ r.applied = (buildLogical strtod F best st ours).map
      (List.map (ApplyLogical.moved ours.connector c)) := by
  intro r
  have hplug := hb.plugged h.plugged
  have hpick : pickConfig st' (ours.on c) (lastGet file (ours.on c)) none false
      (storedConfigs root') = some (some best) := by
    rw [show lastGet file (ours.on c) = some k.1 from hlast]
    refine pickConfig_recorded _ none (fun cfg hcfg => (List.mem_filter.mp hcfg).2)
      (fun cfg hcfg => hplug.not_two (hroot.mem_iff.mp hcfg)) (hroot.mem_iff.mpr h.mem)
      ((hb.configMatch h.plugged h.mem).mpr h.fits) h.conn fun cfg hcfg hone hk => ?_
    have hcfg := hroot.mem_iff.mp hcfg
    exact h.only cfg hcfg ((hb.configMatch h.plugged hcfg).mp hone) hk
  rw [← hb.buildLogical h.plugged]
  obtain ⟨hnone, -⟩ | ⟨hr, hbuild⟩ | ⟨best', lms, hbest, hbuild, hr⟩ :=
    restoreFor_cases strtod F hplug.ourMonitor root' file
  · cases hpick.symm.trans hnone
  · rw [show r = _ from hr, hbuild best hpick]
    exact ⟨hlast, rfl⟩
  · obtain rfl := Option.some.inj (Option.some.inj (hpick.symm.trans hbest))
    rw [show r = _ from hr, hbuild, configConnector_on, h.conn]
    have hline : (ours.on k).OneLine := h.names.oneLine h.line h.mem h.conn
    exact ⟨lastGet_lastSet_own (m := (ours.on c).on k) hline rfl, rfl⟩

end Restored

/-! ## Runs -/

/-- The identity a client was restored with, on its connector. -/
def LayoutClient.screen (c : LayoutClient) : Mon where
  connector := c.connector
  vendor := toCStr []
  product := c.layoutProduct
  serial := c.layoutSerial

section Runs

variable (root : Option XNode) (st : LayoutState) (ours : Mon)

/-- What may happen.  The compositor writes its file anew, in another order.  A client leaves that
is of another identity, or whose connector nothing was saved for.  A reply finds screens of other
identities, and ours back. -/
def Undisturbed (r : Reader LayoutState LayoutRestore) : Reader.Act LayoutState ℕ LayoutEvent → Prop
  | .aside (.saved root') => (storedConfigs root').Perm (storedConfigs root)
  | .aside (.gone id) => ∀ c ∈ r.client.clients, c.id = id →
      Mon.Elsewhere ours c.screen ∨ ∀ cfg ∈ storedConfigs root, savedFor c cfg = false
  | .reply => ∀ st', r.call = some (.answered st') → ∀ c ∈ r.client.clients, c.Due →
      ∀ o, ourMonitor st' c.connector = some o →
        Mon.Elsewhere ours o ∨ Back root st ours st' c.connector
  | _ => True

/-- The connector is on record, and the compositor's file holds what it held. -/
structure LayoutRestore.Recorded (k : CStr) (s : LayoutRestore) : Prop where
  stored : (storedConfigs s.root).Perm (storedConfigs root)
  last : lastGet s.file ours = some k.1

variable {root st ours} {strtod : List Char → ℚ} {F : Doubles} {best : XNode} {k : CStr}
  {s : LayoutRestore}

namespace LayoutRestore.Recorded

lemma restoreNext (hs : s.Recorded root ours k) (h : Chosen root st ours best k) {st' : LayoutState}
    {c : LayoutClient} (hc : c.Due → ∀ o, ourMonitor st' c.connector = some o →
      Mon.Elsewhere ours o ∨ Back root st ours st' c.connector) :
    (restoreNext strtod F st' s c).Recorded root ours k := by
  unfold Sremfb.restoreNext
  split <;> rename_i hdue
  swap
  · exact ⟨hs.stored, hs.last⟩
  refine ⟨hs.stored, ?_⟩
  dsimp only
  cases hours : ourMonitor st' c.connector with
  | none =>
      have hsame : (restoreFor strtod F s.root s.file st' c.connector).file = s.file := by
        unfold restoreFor
        rw [show (st'.mons.filter fun m => m.connector = c.connector).getLast? = none from hours]
      rw [hsame, hs.last]
  | some o =>
      obtain hother | hback := hc hdue o hours
      · have hnames : PlainNames s.root := fun cfg hcfg => h.names cfg (hs.stored.mem_iff.mp hcfg)
        rw [lastGet_restoreFor_other hnames hours hother, hs.last]
      · exact (restoreFor_back h hs.stored hs.last hback).1

/-- All clients of a round. -/
lemma onState (hs : s.Recorded root ours k) (h : Chosen root st ours best k) {st' : LayoutState}
    (hc : ∀ c ∈ s.clients, c.Due → ∀ o, ourMonitor st' c.connector = some o →
      Mon.Elsewhere ours o ∨ Back root st ours st' c.connector) :
    (onState strtod F s st').Recorded root ours k := by
  have hfold : ∀ (cs : List LayoutClient) (t : LayoutRestore), t.Recorded root ours k →
      (∀ c ∈ cs, c.Due → ∀ o, ourMonitor st' c.connector = some o →
        Mon.Elsewhere ours o ∨ Back root st ours st' c.connector) →
      (cs.foldl (Sremfb.restoreNext strtod F st') t).Recorded root ours k := by
    intro cs
    induction cs with
    | nil => exact fun t ht _ => ht
    | cons c cs ih =>
        intro t ht hcs
        obtain ⟨hc, hcs⟩ := List.forall_mem_cons.mp hcs
        exact ih _ (ht.restoreNext h hc) hcs
  exact hfold s.clients { s with clients := [] } ⟨hs.stored, hs.last⟩ hc

lemma gone (hs : s.Recorded root ours k) {c : LayoutClient}
    (hc : Mon.Elsewhere ours c.screen ∨ ∀ cfg ∈ storedConfigs root, savedFor c cfg = false) :
    lastGet (layoutClientGone s c) ours = some k.1 := by
  unfold layoutClientGone
  split
  · exact hs.last
  split <;> rename_i hsaved
  swap
  · exact hs.last
  obtain ⟨cfg, hcfg, hnamed⟩ := List.any_eq_true.mp hsaved
  rw [Bool.and_eq_true] at hnamed
  have hstored : cfg ∈ storedConfigs root :=
    hs.stored.mem_iff.mp (List.mem_filter.mpr ⟨hcfg, hnamed.1⟩)
  obtain hother | hnone := hc
  · exact (lastGet_lastSet_other hother.line hother.key).trans hs.last
  · exact absurd ((hnone cfg hstored).symm.trans hnamed.2) (by decide)

/-- A step. -/
lemma step {r : Reader LayoutState LayoutRestore} (hr : r.client.Recorded root ours k)
    (h : Chosen root st ours best k) {a : Reader.Act LayoutState ℕ LayoutEvent}
    (ha : Undisturbed root st ours r a) :
    (r.step (restoreUse strtod F) a).client.Recorded root ours k := by
  obtain hsame | ⟨st', rfl, hcall, htake⟩ | ⟨id, c, rfl, hpoke, hclient⟩ | ⟨e, rfl, haside⟩ :=
    r.client_step (restoreUse strtod F) a
  · rw [hsame]
    exact hr
  · rw [htake]
    exact hr.onState h (ha st' hcall)
  · rw [hclient]
    obtain rfl : c = _ := by
      unfold restoreUse layoutClient at hpoke
      dsimp only at hpoke
      split at hpoke
      · exact (Option.some.inj hpoke).symm
      · cases hpoke
    exact ⟨hr.stored, hr.last⟩
  · rw [haside]
    cases e with
    | accept connector => exact ⟨hr.stored, hr.last⟩
    | saved root' => exact ⟨ha, hr.last⟩
    | gone id =>
        simp only [restoreUse, layoutAside]
        split <;> rename_i hfind
        · exact hr
        · have hmem := List.mem_of_find?_eq_some hfind
          have hid := List.find?_some hfind
          exact ⟨hr.stored, hr.gone (ha _ hmem (by simpa using hid))⟩

end LayoutRestore.Recorded

end Runs

/-! ## Two configurations -/

end Sremfb
