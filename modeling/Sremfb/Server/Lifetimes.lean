import Sremfb.Server.Callbacks

/-!
# The callbacks keep the invariant

Each callback only takes steps whose conditions hold: what it does to its own client is allowed as
long as the client is in the table (`leads_for`), the teardown leaves no handle (`teardown_run`),
and what a callback returns fits what it did to its handle (`leads_callback`).  So the invariant
holds at every moment of every run (`no_callback_outlives_its_client`).
-/

namespace Sremfb

open Lib

namespace Host

variable {s : Host}

/-! ## Inside a callback -/

/-- Nothing is being accepted. -/
structure Settled (src : FrameSource) (s : Host) : Prop where
  inv : s.Inv
  source : s.source = src
  accepting : s.accepting = none

/-- Between two events. -/
structure Idle (src : FrameSource) (s : Host) : Prop extends Settled src s where
  current : s.loop.current = none

/-- A callback runs whose client still names its source. -/
def Running (id : ℕ) (k : SourceKind) (c : ℕ) (s : Host) : Prop :=
  s.loop.current = some (id, k, c) ∧ s.loop.handle c k = id

/-- The source of the callback that runs, if one does, is to go. -/
def Done (s : Host) : Prop :=
  ∀ id k c, s.loop.current = some (id, k, c) → ¬(s.Alive c ∧ s.loop.handle c k = id)

variable {src : FrameSource} {c id : ℕ} {k : SourceKind}

lemma Settled.frame {s s' : Host} (h : s.Settled src) (hi : s'.Inv) (hf : Frame s s') :
    s'.Settled src :=
  ⟨hi, hf.source.trans h.source, hf.accepting.trans h.accepting⟩

lemma Settled.mem (h : s.Settled src) : s.Alive c ↔ c ∈ s.table := by
  simp [Alive, h.accepting]

lemma Done.frame {s s' : Host} (h : s.Done) (hi : s.Inv) (hf : Frame s s') : s'.Done := by
  rintro id k c hc ⟨halive, hname⟩
  rcases hf.current with he | hn
  · rw [he] at hc
    obtain ⟨-, hpos, hlt⟩ := hi.sound.running id k c hc
    rcases hf.handle c k with hsame | hz | hnew
    · exact h id k c hc ⟨(hf.alive c).mp halive, hsame.symm.trans hname⟩
    · omega
    · omega
  · rw [hn] at hc
    cases hc

/-- No step that only adds touches the source of the callback that runs. -/
lemma Running.adds (h : s.Running id k c) (hi : s.Inv) {op : SourceOp} (hp : s.pre op)
    (hop : op.Adds) : (s.exec op).Running id k c := by
  obtain ⟨hc, hname⟩ := h
  obtain ⟨-, hpos, -⟩ := hi.sound.running id k c hc
  rcases exec_adds hp hop with ⟨conn, he⟩ | ⟨c', k', he, -, hz, -, -⟩
  · rw [he]
    exact ⟨hc, hname⟩
  · rw [he]
    refine ⟨hc, ?_⟩
    dsimp only
    rw [Loop.handle_arm, if_neg]
    · exact hname
    · rintro ⟨rfl, rfl⟩
      omega

/-- A list of steps on one client, with what each of them keeps. -/
lemma leads_for {R : Host → Prop} {ops : List SourceOp} (hops : ∀ op ∈ ops, op.For src c)
    (hR : ∀ s op, s.Settled src → op ∈ ops → s.pre op → R s → R (s.exec op)) :
    Leads pre exec (fun s => s.Settled src ∧ c ∈ s.table ∧ R s) ops
      (fun s => s.Settled src ∧ c ∈ s.table ∧ R s) := by
  refine Leads.all fun op hmem s ⟨hs, hc, hr⟩ => ?_
  have hp : s.pre op := pre_of_for (hops op hmem) (.inl hc) hs.source
  have hf := frame_exec (hops op hmem) hp
  exact ⟨hp, hs.frame (hs.inv.exec hp) hf, hf.table ▸ hc, hR s op hs hmem hp hr⟩

lemma leads_done {ops : List SourceOp} (hops : ∀ op ∈ ops, op.For src c) :
    Leads pre exec (fun s => s.Settled src ∧ c ∈ s.table ∧ s.Done) ops
      (fun s => s.Settled src ∧ c ∈ s.table ∧ s.Done) :=
  leads_for hops fun _ op hs hmem hp hd => hd.frame hs.inv (frame_exec (hops op hmem) hp)

lemma leads_running {ops : List SourceOp} (hops : ∀ op ∈ ops, op.For src c ∧ op.Adds) :
    Leads pre exec (fun s => s.Settled src ∧ c ∈ s.table ∧ s.Running id k c) ops
      (fun s => s.Settled src ∧ c ∈ s.table ∧ s.Running id k c) :=
  leads_for (fun op hop => (hops op hop).1) fun _ op hs hmem hp hr =>
    hr.adds hs.inv hp (hops op hmem).2

/-! ## Teardown -/

lemma for_teardown : ∀ op ∈ src.teardown c, op.For src c := by
  cases src <;> simp [FrameSource.teardown, FrameSource.release, SourceOp.xmitReset, SourceOp.For]

lemma teardown_drops : ∀ op ∈ src.teardown c, (∃ k, op = .clear c k) ∨ ∃ f, op = .assign c f := by
  cases src <;> simp [FrameSource.teardown, FrameSource.release, SourceOp.xmitReset]

/-- Every kind that the frame source arms is cleared. -/
lemma clear_mem_teardown (hk : src.Arms k) : .clear c k ∈ src.teardown c := by
  cases src with
  | evdi => cases k <;> simp [FrameSource.teardown, FrameSource.release, SourceOp.xmitReset]
  | kvm =>
      cases k with
      | mode => exact absurd (hk (.inl rfl)) (by decide)
      | kick => exact absurd (hk (.inr rfl)) (by decide)
      | _ => simp [FrameSource.teardown, FrameSource.release, SourceOp.xmitReset]

/-- The teardown is allowed, and leaves no handle. -/
lemma teardown_run (h : s.Settled src) (hc : c ∈ s.table) :
    Along pre exec s (src.teardown c) ∧ (run exec s (src.teardown c)).Settled src ∧
      Frame s (run exec s (src.teardown c)) ∧
      ∀ k, (run exec s (src.teardown c)).loop.handle c k = 0 := by
  obtain ⟨halong, hs, -, hf⟩ := leads_for (R := Frame s) for_teardown
    (fun s' op _ hmem hp hf => hf.trans (frame_exec (for_teardown op hmem) hp))
    s ⟨h, hc, Frame.refl s⟩
  refine ⟨halong, hs, hf, fun k => ?_⟩
  by_cases hk : src.Arms k
  · have hdrops : Along (fun _ op => (∃ k, op = .clear c k) ∨ ∃ f, op = .assign c f) exec s
        (src.teardown c) := along_of_forall teardown_drops
    refine run_of_mem (P := fun _ => True) (Q := fun t => t.loop.handle c k = 0)
      (fun _ _ _ _ => trivial) (fun t _ _ => ?_) (fun t op hop _ hz => ?_) trivial
      (along_and halong hdrops) (clear_mem_teardown hk)
    · exact (Loop.handle_clear ..).trans (if_pos ⟨rfl, rfl⟩)
    · rcases hop.2 with ⟨k', rfl⟩ | ⟨f, rfl⟩
      · refine (Loop.handle_clear ..).trans ?_
        split
        · rfl
        · exact hz
      · exact hz
  · by_contra hne
    exact hk (hs.source ▸ (hs.inv.named c k hne).2)

/-- `sremfb_client_lost`, as a whole. -/
lemma leads_clientLost {R R' : Host → Prop}
    (hR : ∀ s t, s.Inv → Frame s t → t.Settled src → R s → R' (t.exec (.free c))) :
    Leads pre exec (fun s => s.Settled src ∧ c ∈ s.table ∧ R s) (src.clientLost c)
      (fun s => s.Settled src ∧ R' s) := by
  rintro s ⟨hs, hc, hr⟩
  obtain ⟨halong, ht, hf, hz⟩ := teardown_run hs hc
  have hp : (run exec s (src.teardown c)).pre (.free c) := ⟨(hf.alive c).mpr (.inl hc), hz⟩
  have hlast := hR s _ hs.inv hf ht hr
  rw [FrameSource.clientLost, run_append, run_cons, run_nil]
  refine ⟨along_append.mpr ⟨halong, hp, trivial⟩, ⟨ht.inv.exec hp, ?_, ?_⟩, hlast⟩
  · generalize run exec s (src.teardown c) = t at ht
    exact ht.source
  · generalize run exec s (src.teardown c) = t at ht
    have hfilter : (t.exec (.free c)).accepting = t.accepting.filter (· ≠ c) := rfl
    rw [hfilter, ht.accepting]
    rfl

lemma Done.free (h : s.Done) (c : ℕ) : (s.exec (.free c)).Done := by
  rintro id k c' hcur ⟨halive, hname⟩
  refine h id k c' hcur ⟨?_, hname⟩
  rcases halive with hmem | hsome
  · exact .inl (List.mem_of_mem_erase hmem)
  · exact .inr (Option.filter_eq_some_iff.mp hsome).1

lemma leads_clientLost_done :
    Leads pre exec (fun s => s.Settled src ∧ c ∈ s.table ∧ s.Done) (src.clientLost c)
      (fun s => s.Settled src ∧ s.Done) :=
  leads_clientLost fun _ _ hi hf _ hd => (hd.frame hi hf).free c

lemma Frame.idle {s s' : Host} (hf : Frame s s') (h : s.loop.current = none) :
    s'.loop.current = none := by
  rcases hf.current with he | hn
  · exact he.trans h
  · exact hn

/-- Outside a callback. -/
lemma leads_clientLost_idle {n : ℕ} {l : List ℕ} (hc : c ∈ l) :
    Leads pre exec (fun s => s.Idle src ∧ s.nextClient = n ∧ s.table = l) (src.clientLost c)
      (fun s => s.Idle src ∧ s.nextClient = n ∧ s.table = l.erase c) := by
  have hlost : Leads pre exec
      (fun s => s.Settled src ∧ c ∈ s.table ∧ s.loop.current = none ∧ s.nextClient = n ∧ s.table = l)
      (src.clientLost c)
      (fun s => s.Settled src ∧ s.loop.current = none ∧ s.nextClient = n ∧ s.table = l.erase c) :=
    leads_clientLost fun s t _ hf _ hr => ⟨hf.idle hr.1, hf.nextClient.trans hr.2.1,
      congrArg (·.erase c) (hf.table.trans hr.2.2)⟩
  rintro s ⟨hs, hn, hl⟩
  obtain ⟨halong, hs', hcur, hn', hl'⟩ := hlost s ⟨hs.toSettled, hl ▸ hc, hs.current, hn, hl⟩
  exact ⟨halong, ⟨hs', hcur⟩, hn', hl'⟩

/-! ## Dispatch -/

lemma enter_running (h : s.Idle src) (hid : s.loop.armed id = some (k, c)) :
    s.pre (.enter id) ∧ (s.exec (.enter id)).Settled src ∧ c ∈ (s.exec (.enter id)).table ∧
      (s.exec (.enter id)).Running id k c := by
  have hp : s.pre (.enter id) := h.current
  obtain ⟨halive, hname⟩ := h.inv.sound.owned id k c hid
  refine ⟨hp, ⟨h.inv.exec hp, h.source, h.accepting⟩, h.mem.mp halive, ?_, ?_⟩
  · simp [exec, Loop.enter, hid]
  · exact (congrFun (congrFun (Loop.handle_enter ..) c) k).trans hname

lemma forget_done (hs : s.Settled src) (hc : c ∈ s.table) (hr : s.Running id k c) :
    s.pre (.forget c k) ∧ (s.exec (.forget c k)).Settled src ∧ c ∈ (s.exec (.forget c k)).table ∧
      (s.exec (.forget c k)).Done := by
  obtain ⟨hcur, hname⟩ := hr
  have hp : s.pre (.forget c k) := by
    change s.loop.current = some (s.loop.handle c k, k, c)
    rw [hname]
    exact hcur
  obtain ⟨-, hpos, -⟩ := hs.inv.sound.running id k c hcur
  refine ⟨hp, ⟨hs.inv.exec hp, hs.source, hs.accepting⟩, hc, ?_⟩
  rintro id' k' c' hcur' ⟨-, hname'⟩
  obtain ⟨rfl, hkc⟩ := Prod.mk.inj (Option.some.inj (hcur.symm.trans hcur'))
  obtain ⟨rfl, rfl⟩ := Prod.mk.inj hkc
  have hz : (s.loop.forget c k).handle c k = 0 := (Loop.handle_forget ..).trans (if_pos ⟨rfl, rfl⟩)
  have hname'' : (s.loop.forget c k).handle c k = id := hname'
  omega

/-- What a callback that returns `again` has to leave behind. -/
def Returns (src : FrameSource) (id : ℕ) (k : SourceKind) (c : ℕ) (again : Bool) (s : Host) : Prop :=
  s.Settled src ∧ if again then c ∈ s.table ∧ s.Running id k c else s.Done

lemma leave_idle {again : Bool} (h : s.Returns src id k c again) :
    s.pre (.leave again) ∧ (s.exec (.leave again)).Idle src := by
  obtain ⟨hs, hret⟩ := h
  have hp : s.pre (.leave again) := by
    intro id' k' c' hcur
    cases again with
    | false => simpa using hret id' k' c' hcur
    | true =>
        obtain ⟨hc, hcur', hname⟩ := hret
        obtain ⟨rfl, hkc⟩ := Prod.mk.inj (Option.some.inj (hcur'.symm.trans hcur))
        obtain ⟨rfl, rfl⟩ := Prod.mk.inj hkc
        simpa using ⟨Or.inl hc, hname⟩
  exact ⟨hp, ⟨⟨hs.inv.exec hp, hs.source, hs.accepting⟩, (hs.inv.sound.leave hp).2⟩⟩

/-- The callback keeps its source. -/
lemma leads_again {ops : List SourceOp} (hops : ∀ op ∈ ops, op.For src c ∧ op.Adds) :
    Leads pre exec (fun s => s.Settled src ∧ c ∈ s.table ∧ s.Running id k c) ops
      (Returns src id k c true) :=
  leads_running hops

/-- The callback forgets its source. -/
lemma leads_remove {ops ops' : List SourceOp} (hops : ∀ op ∈ ops, op.For src c ∧ op.Adds)
    (hops' : ∀ op ∈ ops', op.For src c) :
    Leads pre exec (fun s => s.Settled src ∧ c ∈ s.table ∧ s.Running id k c)
      (ops ++ .forget c k :: ops') (Returns src id k c false) := by
  refine (leads_running hops).append
    (Leads.cons (R := fun s => s.Settled src ∧ c ∈ s.table ∧ s.Done) ?_ fun s hs => ?_)
  · rintro s ⟨hs, hc, hr⟩
    exact forget_done hs hc hr
  · obtain ⟨halong, hs', -, hd⟩ := leads_done hops' s hs
    exact ⟨halong, hs', hd⟩

/-- The callback frees its client. -/
lemma leads_lost :
    Leads pre exec (fun s => s.Settled src ∧ c ∈ s.table ∧ s.Running id k c)
      (.forget c k :: src.clientLost c) (Returns src id k c false) := by
  refine Leads.cons ?_ leads_clientLost_done
  rintro s ⟨hs, hc, hr⟩
  exact forget_done hs hc hr

lemma for_xmitKicks (w : World) : ∀ op ∈ w.xmitKicks c, op.For src c ∧ op.Adds := by
  intro op hop
  obtain ⟨due, -, rfl⟩ := List.mem_map.mp hop
  exact ⟨rfl, trivial⟩

lemma for_armOnce (hk : src.Arms k) (hw : k ≠ .watch) :
    ∀ op ∈ [SourceOp.armOnce c k], op.For src c ∧ op.Adds := by
  simpa [SourceOp.For, SourceOp.Adds] using ⟨hk, hw⟩

lemma for_evdiKick (w : World) (hsrc : src = .evdi) :
    ∀ op ∈ evdiKick c w, op.For src c ∧ op.Adds :=
  List.forall_mem_append.mpr ⟨for_xmitKicks w, by simpa [SourceOp.For, SourceOp.Adds] using hsrc⟩

lemma for_nil : ∀ op ∈ ([] : List SourceOp), op.For src c ∧ op.Adds := by simp

/-- **Each callback takes only steps that are allowed**, and returns whether its source stays. -/
lemma leads_callback (w : World) (hk : src.Arms k) :
    Leads pre exec (fun s => s.Settled src ∧ c ∈ s.table ∧ s.Running id k c)
      (callback src c w k).1 (Returns src id k c (callback src c w k).2) := by
  have hlost : src.Arms .lost := arms_of_core (by decide)
  cases k with
  | watch =>
      simp only [callback]
      split
      · exact leads_lost
      · refine leads_again (List.forall_mem_append.mpr ⟨for_xmitKicks w, ?_⟩)
        split
        · exact for_armOnce hlost (by decide)
        · exact for_nil
  | outWatch =>
      simp only [callback]
      cases w.out with
      | failed =>
          exact leads_remove for_nil fun op hop => (for_armOnce hlost (by decide) op hop).1
      | blocked => exact leads_again for_nil
      | built => exact leads_again (for_xmitKicks w)
      | idle =>
          refine leads_remove (List.forall_mem_append.mpr ⟨for_xmitKicks w, ?_⟩) (by simp)
          split
          · exact for_armOnce (arms_of_core (by decide)) (by decide)
          · exact for_nil
  | outRetry => exact leads_remove for_nil (by simp [SourceOp.For])
  | lost => exact leads_lost
  | ping =>
      simp only [callback]
      refine leads_again ?_
      split
      · exact for_armOnce hlost (by decide)
      · exact for_xmitKicks w
  | mode =>
      simp only [callback]
      split
      · exact leads_again for_nil
      · exact leads_lost
  | kick =>
      exact leads_remove for_nil fun op hop => (for_evdiKick w (hk (.inr rfl)) op hop).1

lemma fire_idle (h : s.Idle src) (hid : s.loop.armed id = some (k, c)) (w : World) :
    Along pre exec s (.enter id :: (callback src c w k).1 ++ [.leave (callback src c w k).2]) ∧
      (run exec s (.enter id :: (callback src c w k).1 ++
        [.leave (callback src c w k).2])).Idle src := by
  have hk : src.Arms k := by
    obtain ⟨-, hname⟩ := h.inv.sound.owned id k c hid
    refine h.source ▸ (h.inv.named c k ?_).2
    rw [hname]
    rintro rfl
    rw [h.inv.sound.zero.2] at hid
    cases hid
  have hbody : Leads pre exec (fun s => s.Settled src ∧ c ∈ s.table ∧ s.Running id k c)
      ((callback src c w k).1 ++ [.leave (callback src c w k).2]) (Idle src) :=
    (leads_callback w hk).append (Leads.one fun _ => leave_idle)
  obtain ⟨hp, hrun⟩ := enter_running h hid
  obtain ⟨halong, hidle⟩ := hbody _ hrun
  exact ⟨⟨hp, halong⟩, hidle⟩

/-! ## The other events -/

/-- Steps on clients of the table, outside a callback. -/
lemma leads_idle {ops : List SourceOp} {l : List ℕ} (hops : ∀ op ∈ ops, ∃ c ∈ l, op.For src c) :
    Leads pre exec (fun s => s.Idle src ∧ s.table = l) ops
      (fun s => s.Idle src ∧ s.table = l) := by
  refine Leads.all fun op hmem s ⟨hs, hl⟩ => ?_
  obtain ⟨c, hc, hop⟩ := hops op hmem
  have hp : s.pre op := pre_of_for hop (.inl (hl ▸ hc)) hs.source
  have hf := frame_exec hop hp
  exact ⟨hp, ⟨hs.frame (hs.inv.exec hp) hf, hf.idle hs.current⟩, hf.table.trans hl⟩

lemma for_xmitReset : ∀ op ∈ SourceOp.xmitReset c, op.For src c := by
  simp [SourceOp.xmitReset, SourceOp.For]

/-- The handlers of the device only take steps on its owner. -/
lemma for_evdiOps (w : World) (r : EvdiReport) : ∀ op ∈ s.evdiOps c w r, op.For .evdi c := by
  have hkicks : ∀ op ∈ w.xmitKicks c, op.For .evdi c := fun op hop => (for_xmitKicks w op hop).1
  have hkick : ∀ op ∈ evdiKick c w, op.For .evdi c := fun op hop => (for_evdiKick w rfl op hop).1
  cases r with
  | updateReady =>
      refine List.forall_mem_append.mpr ⟨List.forall_mem_append.mpr ⟨?_, hkicks⟩, ?_⟩
      · simp [SourceOp.For]
      · simp [SourceOp.For, FrameSource.Arms]
  | modeChanged usable =>
      simp only [evdiOps]
      split
      · simp
      · refine List.forall_mem_append.mpr ⟨List.forall_mem_append.mpr
          ⟨List.forall_mem_append.mpr ⟨for_xmitReset, ?_⟩, ?_⟩, hkick⟩
        · simp [SourceOp.For]
        · split <;> simp [SourceOp.For]
  | dpms on =>
      refine List.forall_mem_append.mpr ⟨by simp [SourceOp.For], ?_⟩
      split
      · exact hkick
      · simp
  | crtcState on =>
      simp only [evdiOps]
      split
      · exact hkick
      · simp
  | cursor => exact hkicks

lemma for_captureOps (fx : List (ℕ × CaptureEffect)) :
    ∀ op ∈ s.captureOps fx, ∃ c ∈ s.table, op.For src c := by
  intro op hop
  obtain ⟨⟨c, e⟩, hmem, rfl⟩ := List.mem_map.mp hop
  have hc : c ∈ s.table := by simpa using (List.mem_filter.mp hmem).2
  cases e with
  | kick due => exact ⟨c, hc, rfl⟩
  | cut => exact ⟨c, hc, rfl, arms_of_core (by decide), by decide⟩

/-- The end of `sremfb_serve`. -/
lemma leads_shutdown {n : ℕ} (l : List ℕ) :
    Leads pre exec (fun s => s.Idle src ∧ s.nextClient = n ∧ s.table = l)
      (l.flatMap src.clientLost) (fun s => s.Idle src ∧ s.nextClient = n ∧ s.table = []) := by
  induction l with
  | nil => exact Leads.nil fun _ h => h
  | cons c l ih =>
      rw [List.flatMap_cons]
      refine (leads_clientLost_idle (List.mem_cons_self ..)).append ?_
      rw [List.erase_cons_head]
      exact ih

/-! ## A new connection -/

/-- The client `n` is being accepted. -/
structure Accepting (src : FrameSource) (n : ℕ) (s : Host) : Prop where
  inv : s.Inv
  source : s.source = src
  accepting : s.accepting = some n
  current : s.loop.current = none
  watch : s.loop.handle n .watch = 0

lemma leads_drop {n : ℕ} {l : List ℕ} {old : Option ℕ} (hold : ∀ c, old = some c → c ∈ l) :
    Leads pre exec (fun s => s.Idle src ∧ s.nextClient = n ∧ s.table = l)
      (old.elim [] src.clientLost) (fun s => s.Idle src ∧ s.nextClient = n) := by
  cases old with
  | none => exact Leads.nil fun s hs => ⟨hs.1, hs.2.1⟩
  | some c =>
      intro s hs
      obtain ⟨halong, hidle, hn, -⟩ := leads_clientLost_idle (hold c rfl) s hs
      exact ⟨halong, hidle, hn⟩

lemma alloc_accepting {n : ℕ} (conn : Conn) (h : s.Idle src) (hn : s.nextClient = n) :
    s.pre (.alloc conn) ∧ (s.exec (.alloc conn)).Accepting src n ∧
      ∀ k, (s.exec (.alloc conn)).loop.handle n k = 0 := by
  have hp : s.pre (.alloc conn) := h.accepting
  have hz : ∀ k, s.loop.handle n k = 0 := by
    intro k
    by_contra hne
    exact absurd (h.inv.named n k hne).1 (by omega)
  exact ⟨hp, ⟨h.inv.exec hp, h.source, congrArg some hn, h.current, hz .watch⟩, hz⟩

lemma free_idle {n : ℕ} (h : s.Accepting src n) (hz : ∀ k, s.loop.handle n k = 0) :
    s.pre (.free n) ∧ (s.exec (.free n)).Idle src := by
  have hp : s.pre (.free n) := ⟨.inr h.accepting, hz⟩
  refine ⟨hp, ⟨⟨h.inv.exec hp, h.source, ?_⟩, h.current⟩⟩
  change s.accepting.filter (· ≠ n) = none
  rw [h.accepting]
  simp

lemma Accepting.frame {n : ℕ} {s s' : Host} (h : s.Accepting src n) (hi : s'.Inv)
    (hf : Frame s s') : s'.Accepting src n :=
  ⟨hi, hf.source.trans h.source, hf.accepting.trans h.accepting, hf.idle h.current,
    hf.watch n h.watch⟩

lemma Accepting.exec {n : ℕ} {op : SourceOp} (h : s.Accepting src n) (hop : op.For src n) :
    s.pre op ∧ (s.exec op).Accepting src n := by
  have hp : s.pre op := pre_of_for hop (.inr h.accepting) h.source
  exact ⟨hp, h.frame (h.inv.exec hp) (frame_exec hop hp)⟩

lemma arm_mode {n : ℕ} (h : s.Accepting .evdi n) (hz : s.loop.handle n .mode = 0) :
    s.pre (.arm n .mode) ∧ (s.exec (.arm n .mode)).Accepting .evdi n := by
  have hp : s.pre (.arm n .mode) := ⟨.inr h.accepting, hz, fun _ => h.source⟩
  exact ⟨hp, h.frame (h.inv.exec hp) (frame_arm s (by decide))⟩

/-- `acquire`, when it succeeds. -/
lemma leads_acquire {n : ℕ} {s₀ : Host} (hsrc : s₀.source = src) (w : World) :
    Leads pre exec (fun s => s.Accepting src n ∧ ∀ k, s.loop.handle n k = 0) (s₀.acquireOps n w)
      (Accepting src n) := by
  cases src with
  | evdi =>
      rw [acquireOps, hsrc]
      refine Leads.cons (R := fun s => s.Accepting .evdi n ∧ s.loop.handle n .mode = 0) ?_
        (Leads.one fun s hs => arm_mode hs.1 hs.2)
      rintro s ⟨hs, hz⟩
      have hassign : SourceOp.For .evdi n (.assign n .modeWait) := trivial
      exact ⟨(hs.exec hassign).1, (hs.exec hassign).2, hz .mode⟩
  | kvm =>
      rw [acquireOps, hsrc]
      have hops : ∀ op ∈ [.xmitKick n true, .assign n .streaming, .pingTimer n] ++ w.xmitKicks n,
          op.For .kvm n :=
        List.forall_mem_append.mpr ⟨by simp [SourceOp.For], fun op hop => (for_xmitKicks w op hop).1⟩
      intro s hs
      exact Leads.all (fun op hmem s hs => hs.exec (hops op hmem)) s hs.1

lemma toTable_idle {n : ℕ} (h : s.Accepting src n) :
    s.pre .toTable ∧ (s.exec .toTable).Idle src ∧ n ∈ (s.exec .toTable).table ∧
      (s.exec .toTable).loop.handle n .watch = 0 := by
  have hi : (s.exec .toTable).Inv := h.inv.exec trivial
  have hmoved : s.exec .toTable = { s with table := s.table ++ [n], accepting := none } := by
    simp [exec, h.accepting]
  rw [hmoved] at hi ⊢
  exact ⟨trivial, ⟨⟨hi, h.source, rfl⟩, h.current⟩, by simp, h.watch⟩

lemma arm_watch {n : ℕ} (h : s.Idle src) (hn : n ∈ s.table) (hz : s.loop.handle n .watch = 0) :
    s.pre (.arm n .watch) ∧ (s.exec (.arm n .watch)).Idle src := by
  have hp : s.pre (.arm n .watch) := ⟨.inl hn, hz, arms_of_core (by decide)⟩
  exact ⟨hp, ⟨⟨h.inv.exec hp, h.source, h.accepting⟩, h.current⟩⟩

lemma sameMac_mem {mac : ℕ} (h : s.sameMac mac = some c) : c ∈ s.table := by
  unfold sameMac at h
  split at h
  · cases h
  · exact List.mem_of_find?_eq_some h

lemma listen_idle (h : s.Idle src) (a : Arrival) :
    Along pre exec s (s.listenOps a) ∧ (run exec s (s.listenOps a)).Idle src := by
  have hdrop : Leads pre exec
      (fun t => t.Idle src ∧ t.nextClient = s.nextClient ∧ t.table = s.table)
      ((s.sameMac a.mac).elim [] src.clientLost)
      (fun t => t.Idle src ∧ t.nextClient = s.nextClient) := leads_drop fun c hc => sameMac_mem hc
  have hs : s.Idle src ∧ s.nextClient = s.nextClient ∧ s.table = s.table := ⟨h, rfl, rfl⟩
  unfold listenOps
  rw [h.source]
  split
  · exact ⟨trivial, h⟩
  dsimp only
  split
  · exact (hdrop s hs).imp_right And.left
  split
  · exact (hdrop s hs).imp_right And.left
  have halloc : Leads pre exec
      (fun t => t.Idle src ∧ t.nextClient = s.nextClient ∧ t.table = s.table)
      ((s.sameMac a.mac).elim [] src.clientLost ++
        [.alloc ⟨a.mac, a.feedback, true, false, false, false, false⟩])
      (fun t => t.Accepting src s.nextClient ∧ ∀ k, t.loop.handle s.nextClient k = 0) :=
    hdrop.append (Leads.one fun t ht => alloc_accepting _ ht.1 ht.2)
  split
  · exact halloc.append (Leads.one fun s hs => free_idle hs.1 hs.2) s hs
  · refine halloc.append ((leads_acquire h.source a.world).append
      (Leads.cons (R := fun t => t.Idle src ∧ s.nextClient ∈ t.table ∧
        t.loop.handle s.nextClient .watch = 0) (fun t ht => toTable_idle ht) (Leads.one ?_))) s hs
    rintro t ⟨ht, hn, hz⟩
    exact arm_watch ht hn hz

/-! ## Runs -/

/-- **One event.**  All its steps are allowed, and afterwards the loop waits again. -/
lemma Idle.step (h : s.Idle src) (ev : HostEvent) :
    Along pre exec s (s.ops ev) ∧ (s.step ev).Idle src := by
  have hnone : Along pre exec s [] ∧ s.Idle src := ⟨trivial, h⟩
  have hsame : s.Idle src ∧ s.table = s.table := ⟨h, rfl⟩
  unfold Host.step
  cases ev with
  | fire id w =>
      simp only [ops]
      split
      · exact hnone
      · rename_i k c hid
        rw [h.source]
        exact fire_idle h hid w
  | evdi c r w =>
      simp only [ops]
      split <;> rename_i hg
      · have hsrc : src = .evdi := h.source.symm.trans hg.1
        refine (leads_idle (fun op hop => ⟨c, hg.2, ?_⟩) s hsame).imp_right And.left
        rw [hsrc]
        exact for_evdiOps w r op hop
      · exact hnone
  | capture fx =>
      simp only [ops]
      split
      · exact (leads_idle (for_captureOps fx) s hsame).imp_right And.left
      · exact hnone
  | listen a => exact listen_idle h a
  | shutdown =>
      simp only [ops]
      rw [h.source]
      exact (leads_shutdown s.table s ⟨h, rfl, rfl⟩).imp_right And.left

lemma start_idle (src : FrameSource) : (start src).Idle src := by
  refine ⟨⟨⟨⟨fun _ _ => rfl, ⟨Nat.one_pos, rfl⟩, fun _ _ _ h => ?_, fun _ _ _ h => ?_,
    fun _ _ h => ?_⟩, List.nodup_nil, fun _ h => ?_, fun _ h => ?_, fun _ _ h => absurd rfl h⟩, rfl,
    rfl⟩, rfl⟩
  · cases h
  · cases h
  · simp [Alive, start] at h
  · cases h
  · simp [Alive, start] at h

/-- A whole run takes only steps that are allowed. -/
lemma along_trace (h : s.Idle src) (evs : List HostEvent) : Along pre exec s (s.trace evs) := by
  induction evs generalizing s with
  | nil => trivial
  | cons ev evs ih =>
      obtain ⟨halong, hidle⟩ := h.step ev
      exact along_append.mpr ⟨halong, ih hidle⟩

/-- A client that was freed stays away: the numbers of clients are not used twice. -/
def Gone (c : ℕ) (s : Host) : Prop := c < s.nextClient ∧ ¬s.Alive c

lemma Gone.exec (h : s.Gone c) {op : SourceOp} (hp : s.pre op) : (s.exec op).Gone c := by
  obtain ⟨hlt, hgone⟩ := h
  by_cases hadds : op.Adds
  · rcases exec_adds hp hadds with ⟨conn, he⟩ | ⟨c', k', he, -⟩
    · rw [he]
      exact ⟨hlt, hgone⟩
    · rw [he]
      exact ⟨hlt, hgone⟩
  cases op with
  | alloc conn =>
      refine ⟨Nat.lt_succ_of_lt hlt, ?_⟩
      rintro (hmem | hsome)
      · exact hgone (.inl hmem)
      · exact hlt.ne (Option.some.inj hsome).symm
  | toTable =>
      cases hacc : s.accepting with
      | none =>
          have hsame : s.exec .toTable = s := by simp [Host.exec, hacc]
          rw [hsame]
          exact ⟨hlt, hgone⟩
      | some n =>
          have hmoved : s.exec .toTable = { s with table := s.table ++ [n], accepting := none } := by
            simp [Host.exec, hacc]
          rw [hmoved]
          refine ⟨hlt, fun halive => hgone ?_⟩
          simpa [Alive, hacc, eq_comm] using halive
  | free c' =>
      refine ⟨hlt, ?_⟩
      rintro (hmem | hsome)
      · exact hgone (.inl (List.mem_of_mem_erase hmem))
      · exact hgone (.inr (Option.filter_eq_some_iff.mp hsome).1)
  | enter id => exact ⟨hlt, hgone⟩
  | leave again => exact ⟨hlt, hgone⟩
  | arm c' k => exact ⟨hlt, hgone⟩
  | clear c' k => exact ⟨hlt, hgone⟩
  | forget c' k => exact ⟨hlt, hgone⟩
  | _ => exact absurd trivial hadds

/-- A callback that keeps its source only adds, so it does not free its client. -/
lemma adds_of_again (w : World) (h : (callback src c w k).2 = true) :
    ∀ op ∈ (callback src c w k).1, op.Adds := by
  have hfor : ∀ op ∈ w.xmitKicks c, op.For src c ∧ op.Adds := for_xmitKicks w
  have hkicks : ∀ op ∈ w.xmitKicks c, op.Adds := fun op hop => (hfor op hop).2
  cases k with
  | watch =>
      cases hg : w.gone with
      | true => simp [callback, hg] at h
      | false =>
          simp only [callback, hg, Bool.false_eq_true, if_false]
          refine List.forall_mem_append.mpr ⟨hkicks, ?_⟩
          split <;> simp [SourceOp.Adds]
  | outWatch =>
      cases ho : w.out with
      | failed => simp [callback, ho] at h
      | blocked => simp [callback, ho]
      | built => simpa only [callback, ho] using hkicks
      | idle => simp [callback, ho] at h
  | ping =>
      simp only [callback]
      split
      · simp [SourceOp.Adds]
      · exact hkicks
  | mode =>
      cases hp : w.park with
      | true => simp [callback, hp]
      | false => simp [callback, hp] at h
  | outRetry => simp [callback] at h
  | lost => simp [callback] at h
  | kick => simp [callback] at h

/-- **No callback outlives its client.**  At every moment of every run with either frame source, an
armed source belongs to a client of the table or to the one being accepted, there is at most one of
each kind for a client, and none for a client that was freed before; and a callback that frees its
own client returns `G_SOURCE_REMOVE`. -/
theorem no_callback_outlives_its_client (src : FrameSource) (evs : List HostEvent) (n : ℕ) :
    let past := ((start src).trace evs).take n
    let m := run exec (start src) past
    (∀ id k c, m.loop.armed id = some (k, c) → c ∈ m.table ∨ m.accepting = some c) ∧
      (∀ id id' k c, m.loop.armed id = some (k, c) → m.loop.armed id' = some (k, c) → id = id') ∧
      (∀ c, .free c ∈ past → ∀ id k, m.loop.armed id ≠ some (k, c)) ∧
      ∀ c w k, .free c ∈ (callback src c w k).1 → (callback src c w k).2 = false := by
  intro past m
  have hstart := (start_idle src).inv
  have halong : Along pre exec (start src) past := (along_trace (start_idle src) evs).take n
  have hinv : m.Inv := run_invariant (fun _ _ hp hi => hi.exec hp) hstart halong
  refine ⟨fun id k c hid => (hinv.sound.owned id k c hid).1,
    fun id id' k c hid hid' => hinv.sound.unique hid hid', fun c hfree id k hid => ?_,
    fun c w k hfree => ?_⟩
  · have hgone : m.Gone c := run_of_mem (P := Inv) (fun _ _ hp hi => hi.exec hp)
      (fun s hp hi => ⟨hi.below c hp.1, hi.not_alive_free c⟩) (fun _ _ hp _ hg => hg.exec hp)
      hstart halong hfree
    exact hgone.2 (hinv.sound.owned id k c hid).1
  · by_contra hkeep
    exact adds_of_again w (Bool.eq_true_of_not_eq_false hkeep) _ hfree

/-- The mode timer of a client whose connector stays dark frees it, and takes its read watch along. -/
example :
    let s := run step (start .evdi) [.listen ⟨true, 7, true, true, true, {}⟩, .fire 1 {}]
    s.nextClient = 1 ∧ s.table = [] ∧ s.loop.armed 1 = none ∧ s.loop.armed 2 = none := by
  decide

end Host

end Sremfb
