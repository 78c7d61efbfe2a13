import Sremfb.Server.Steps

/-!
# The dirty region covers what the client has not seen

`shadowbuf` is what the client was last sent.  The invariant `Covered` says that a pixel of the
frame where `grabbuf` differs from it lies in the pending region: the whole frame is marked, or
one of at most sixteen rectangles, all inside the frame, holds it.

Three shortcuts could break it and do not.  Trimming drops rows of a report, but only rows that
are identical (`mem_rectTrim`).  Merging into a touching rectangle and the collapse on overflow
both grow rectangles (`InRegion.dirtyAdd`).  And a frame is built later than its damage was
reported, from the `grabbuf` of that moment, which is also what `shadow_update` copies.
-/

namespace Sremfb

open Lib Relation

namespace Tx

variable {t : Tx} {x y : ℤ} {r : Rect}

/-- The pixel is pending. -/
def InRegion (t : Tx) (x y : ℤ) : Prop := t.dirtyAll = true ∨ ∃ r ∈ t.dirty, r.Mem x y

/-- The pixel is in the frame and the client does not have it. -/
def Stale (t : Tx) (x y : ℤ) : Prop :=
  (Rect.full t.width t.height).Mem x y ∧ t.grabbuf x y ≠ t.shadowbuf x y

/-- The dirty rectangles are few, non-empty and inside the frame. -/
structure RegionOk (t : Tx) : Prop where
  count : t.dirty.length ≤ dirtyMax
  inside : ∀ r ∈ t.dirty, r.Inside t.width t.height

/-- **Coverage.**  What the client does not have is pending. -/
structure Covered (t : Tx) : Prop extends t.RegionOk where
  stale : ∀ x y, t.Stale x y → t.InRegion x y

/-! ## Adding a rectangle -/

lemma mergeTouching_spec {ds ds' : List Rect} (h : mergeTouching r ds = some ds') :
    ds'.length = ds.length ∧
      (∀ w h, r.Inside w h → (∀ d ∈ ds, d.Inside w h) → ∀ d ∈ ds', d.Inside w h) ∧
      ∀ x y, (r.Mem x y ∨ ∃ d ∈ ds, d.Mem x y) → ∃ d ∈ ds', d.Mem x y := by
  induction ds generalizing ds' with
  | nil => cases h
  | cons d ds ih =>
      rw [mergeTouching] at h
      by_cases ht : d.touches r = true
      · rw [if_pos ht] at h
        obtain rfl := Option.some.inj h
        refine ⟨rfl, fun w h hr hds e he => ?_, fun x y hm => ?_⟩
        · rcases List.mem_cons.mp he with rfl | he
          · exact (hds d (List.mem_cons_self ..)).union hr
          · exact hds e (List.mem_cons_of_mem _ he)
        · rcases hm with hm | ⟨e, he, hm⟩
          · exact ⟨_, List.mem_cons_self .., Rect.mem_union_right hm⟩
          · rcases List.mem_cons.mp he with rfl | he
            · exact ⟨_, List.mem_cons_self .., Rect.mem_union_left hm⟩
            · exact ⟨e, List.mem_cons_of_mem _ he, hm⟩
      · rw [if_neg ht, Option.map_eq_some_iff] at h
        obtain ⟨ds'', hds, rfl⟩ := h
        obtain ⟨hlen, hin, hmem⟩ := ih hds
        refine ⟨by simp [hlen], fun w h hr hd e he => ?_, fun x y hm => ?_⟩
        · rcases List.mem_cons.mp he with rfl | he
          · exact hd e (List.mem_cons_self ..)
          · exact hin w h hr (fun e he => hd e (List.mem_cons_of_mem _ he)) e he
        · by_cases hd : d.Mem x y
          · exact ⟨d, List.mem_cons_self .., hd⟩
          · have hm' : r.Mem x y ∨ ∃ d ∈ ds, d.Mem x y := by
              refine hm.imp_right ?_
              rintro ⟨e, he, hme⟩
              rcases List.mem_cons.mp he with rfl | he
              · exact absurd hme hd
              · exact ⟨e, he, hme⟩
            obtain ⟨e, he, hm⟩ := hmem x y hm'
            exact ⟨e, List.mem_cons_of_mem _ he, hm⟩

/-- Adding a rectangle keeps the region well formed, loses nothing and covers the rectangle. -/
lemma dirtyAdd_spec (h : t.RegionOk) (hr : r.Inside t.width t.height) :
    (t.dirtyAdd r).RegionOk ∧
      ∀ x y, t.InRegion x y ∨ r.Mem x y → (t.dirtyAdd r).InRegion x y := by
  unfold dirtyAdd
  by_cases ha : t.dirtyAll = true
  · rw [if_pos ha]
    exact ⟨h, fun x y _ => .inl ha⟩
  rw [if_neg ha]
  have hold : ∀ x y, t.InRegion x y ∨ r.Mem x y → r.Mem x y ∨ ∃ d ∈ t.dirty, d.Mem x y := by
    rintro x y ((ha' | hm) | hm)
    · exact absurd ha' ha
    · exact .inr hm
    · exact .inl hm
  cases hm : mergeTouching r t.dirty with
  | some ds =>
      obtain ⟨hlen, hin, hmem⟩ := mergeTouching_spec hm
      refine ⟨⟨?_, hin _ _ hr h.inside⟩, fun x y hp => .inr (hmem x y (hold x y hp))⟩
      rw [show _ = ds from rfl, hlen]
      exact h.count
  | none =>
      dsimp only
      by_cases hn : t.dirty.length < dirtyMax
      · rw [if_pos hn]
        refine ⟨⟨?_, fun d hd => ?_⟩, fun x y hp => .inr ?_⟩
        · rw [List.length_append]
          exact hn
        · rcases List.mem_append.mp hd with hd | hd
          · exact h.inside d hd
          · rw [List.mem_singleton.mp hd]
            exact hr
        · rcases hold x y hp with hm | ⟨d, hd, hm⟩
          · exact ⟨r, by simp, hm⟩
          · exact ⟨d, List.mem_append_left _ hd, hm⟩
      · rw [if_neg hn]
        -- overflow: one box around everything
        cases hd : t.dirty with
        | nil => simp [hd, dirtyMax] at hn
        | cons d ds =>
            have hin := h.inside
            rw [hd] at hin
            refine ⟨⟨Nat.succ_pos 15, fun e he => ?_⟩,
              fun x y hp => .inr ⟨_, List.mem_singleton.mpr rfl, ?_⟩⟩
            · rw [List.mem_singleton.mp he]
              exact (Rect.Inside.foldl_union (hin d (List.mem_cons_self ..))
                (fun e he => hin e (List.mem_cons_of_mem _ he))).union hr
            · rcases hold x y hp with hm | ⟨e, he, hm⟩
              · exact Rect.mem_union_right hm
              · rw [hd] at he
                exact Rect.mem_union_left (Rect.mem_foldl_union (List.mem_cons.mp he) hm)

/-! ## Trimming -/

lemma eq_of_rowSame (h : t.rowSame r y = true) (hx : r.x1 ≤ x) (hx' : x < r.x2) :
    t.grabbuf x y = t.shadowbuf x y := by
  rw [rowSame, List.all_eq_true] at h
  have := h (x - r.x1).toNat (List.mem_range.mpr (by omega))
  rw [beq_iff_eq, show r.x1 + ((x - r.x1).toNat : ℤ) = x by omega] at this
  exact this

/-- Only rows that are identical are trimmed. -/
lemma mem_rectTrim (hm : r.Mem x y) (hne : t.grabbuf x y ≠ t.shadowbuf x y) :
    (t.rectTrim r).Mem x y := by
  obtain ⟨hx1, hx2, hy1, hy2⟩ := hm
  unfold rectTrim
  split
  · exact ⟨hx1, hx2, hy1, hy2⟩
  refine ⟨hx1, hx2, ?_, ?_⟩
  · by_contra hlt
    exact hne (eq_of_rowSame (same_of_lt_trimTop hy1 (not_le.mp hlt)) hx1 hx2)
  · by_contra hle
    have hs := same_of_trimBottom_le hy2 (not_lt.mp hle)
    exact hne (eq_of_rowSame hs hx1 hx2)

lemma mem_clampRect (hm : r.Mem x y) (hf : (Rect.full t.width t.height).Mem x y) :
    (t.clampRect r).Mem x y := by
  obtain ⟨hx1, hx2, hy1, hy2⟩ := hm
  obtain ⟨fx1, fx2, fy1, fy2⟩ := hf
  exact ⟨clamp_le_of_le fx1 hx1 fx2, lt_clamp_of_lt hx2 fx2, clamp_le_of_le fy1 hy1 fy2,
    lt_clamp_of_lt hy2 fy2⟩

/-! ## Damage -/

/-- One reported rectangle: the region stays well formed, loses nothing, and then covers every
stale pixel of the rectangle. -/
lemma damageRect_spec (bpp raw : ℕ) (h : t.RegionOk) (r : Rect) :
    (damageRect bpp (t, raw) r).1.RegionOk ∧
      ∀ x y, t.InRegion x y ∨ t.Stale x y ∧ r.Mem x y →
        (damageRect bpp (t, raw) r).1.InRegion x y := by
  have hcl : ∀ x y, t.Stale x y ∧ r.Mem x y → (t.clampRect r).Mem x y := fun x y hs =>
    mem_clampRect hs.2 hs.1.1
  have htr : ∀ x y, t.Stale x y ∧ r.Mem x y → (t.rectTrim (t.clampRect r)).Mem x y :=
    fun x y hs => mem_rectTrim (hcl x y hs) hs.1.2
  unfold damageRect
  dsimp only
  split
  · -- nothing of the rectangle is in the frame
    rename_i he
    refine ⟨h, fun x y hp => hp.resolve_right fun hs => ?_⟩
    obtain ⟨h1, h2, h3, h4⟩ := hcl x y hs
    omega
  rename_i he
  split
  · -- every row is what the client has
    rename_i he'
    refine ⟨h, fun x y hp => hp.resolve_right fun hs => ?_⟩
    obtain ⟨h1, h2, h3, h4⟩ := htr x y hs
    omega
  rename_i he'
  split
  · exact ⟨⟨h.count, h.inside⟩, fun x y _ => .inl rfl⟩
  · have hb := t.rectTrim_bounds (t.clampRect r)
    have hin : (t.rectTrim (t.clampRect r)).Inside t.width t.height := by
      have hx1 : 0 ≤ (t.clampRect r).x1 := le_clamp (by omega)
      have hx2 : (t.clampRect r).x2 ≤ t.width := clamp_le (by omega)
      have hy1 : 0 ≤ (t.clampRect r).y1 := le_clamp (by omega)
      have hy2 : (t.clampRect r).y2 ≤ t.height := clamp_le (by omega)
      refine ⟨?_, ?_, ?_, ?_, ?_, ?_⟩ <;> omega
    obtain ⟨hok, hmem⟩ := dirtyAdd_spec h hin
    exact ⟨hok, fun x y hp => hmem x y (hp.imp_right (htr x y))⟩

lemma stale_congr {ds : List Rect} {a : Bool} :
    Stale { t with dirty := ds, dirtyAll := a } x y ↔ t.Stale x y := Iff.rfl

lemma foldl_damageRect_spec (bpp : ℕ) (rects : List Rect) (raw : ℕ) (h : t.RegionOk) :
    (rects.foldl (damageRect bpp) (t, raw)).1.RegionOk ∧
      ∀ x y, t.InRegion x y ∨ t.Stale x y ∧ (∃ r ∈ rects, r.Mem x y) →
        (rects.foldl (damageRect bpp) (t, raw)).1.InRegion x y := by
  induction rects generalizing t raw with
  | nil => exact ⟨h, fun x y hp => hp.resolve_right fun ⟨_, r, hr, _⟩ => by cases hr⟩
  | cons r rects ih =>
      obtain ⟨hok, hmem⟩ := damageRect_spec bpp raw h r
      obtain ⟨ds, a, heq⟩ := damageRect_eq bpp t raw r
      obtain ⟨hok', hmem'⟩ := ih (damageRect bpp (t, raw) r).2 hok
      refine ⟨hok', fun x y hp => hmem' x y ?_⟩
      rcases hp with hp | ⟨hs, e, he, hm⟩
      · exact .inl (hmem x y (.inl hp))
      · rcases List.mem_cons.mp he with rfl | he
        · exact .inl (hmem x y (.inr ⟨hs, hm⟩))
        · exact .inr ⟨heq ▸ stale_congr.mpr hs, e, he, hm⟩

/-- The source changed `grabbuf` only inside the rectangles it reports. -/
def HonestDamage (t : Tx) (grab : Frame) (rects : List Rect) : Prop :=
  ∀ x y, (Rect.full t.width t.height).Mem x y → grab x y ≠ t.grabbuf x y →
    ∃ r ∈ rects, r.Mem x y

lemma Covered.damage (h : t.Covered) (bpp : ℕ) {grab : Frame} {rects : List Rect}
    (hd : t.HonestDamage grab rects) :
    ({ t with grabbuf := grab }.damageRects bpp rects).1.Covered := by
  obtain ⟨hok, hmem⟩ := foldl_damageRect_spec (t := { t with grabbuf := grab }) bpp rects 0
    ⟨h.count, h.inside⟩
  obtain ⟨ds, a, heq⟩ := damageRects_eq bpp { t with grabbuf := grab } rects
  refine ⟨hok, fun x y hs => hmem x y ?_⟩
  have hs' : Stale { t with grabbuf := grab } x y := by rw [heq] at hs; exact hs
  obtain ⟨hf, hne⟩ := hs'
  by_cases hg : grab x y = t.grabbuf x y
  · exact .inl (h.stale x y ⟨hf, fun he => hne (hg.trans he)⟩)
  · exact .inr ⟨⟨hf, hne⟩, hd x y hf hg⟩

/-! ## Actions keep the coverage -/

section Actions

variable {env : Env} {neg : Negotiated} {R : Rules} {t' : Tx}

lemma stale_shadowUpdate (hb : t.bufs = true) :
    (t.shadowUpdate r).Stale x y ↔ t.Stale x y ∧ ¬r.Mem x y := by
  unfold shadowUpdate Stale
  rw [if_neg (by simp [hb])]
  by_cases hm : r.Mem x y
  · simp [hm]
  · simp [hm]

/-- What the invariant speaks of. -/
def region (t : Tx) := (t.width, t.height, t.grabbuf, t.shadowbuf, t.dirty, t.dirtyAll)

lemma Covered.congr (h : t.Covered) (hr : t'.region = t.region) : t'.Covered := by
  simp only [region, Prod.mk.injEq] at hr
  obtain ⟨hw, hh, hg, hs, hd, ha⟩ := hr
  obtain ⟨⟨hc, hi⟩, hst⟩ := h
  refine ⟨⟨hd ▸ hc, by rw [hd, hw, hh]; exact hi⟩, fun x y => ?_⟩
  simp only [Stale, InRegion, hw, hh, hg, hs, hd, ha]
  exact hst x y

/-- The whole frame is marked. -/
lemma Covered.all (h : t.RegionOk) (ha : t.dirtyAll = true) : t.Covered :=
  ⟨h, fun _ _ _ => .inl ha⟩

/-- `d` was sent or encoded, and what else was pending still is. -/
lemma Covered.shadowUpdate {t₀ : Tx} (h : t.Covered) (hb : t.bufs = true)
    (h₀ : ∃ ds a, t₀ = { t with dirty := ds, dirtyAll := a }) (hok : t₀.RegionOk)
    (hr : ∀ x y, (Rect.full t.width t.height).Mem x y → t.InRegion x y → ¬r.Mem x y →
      t₀.InRegion x y) : (t₀.shadowUpdate r).Covered := by
  obtain ⟨ds, a, rfl⟩ := h₀
  obtain ⟨f, hf⟩ := shadowUpdate_eq { t with dirty := ds, dirtyAll := a } r
  have hst : ∀ x y, (Tx.shadowUpdate { t with dirty := ds, dirtyAll := a } r).Stale x y →
      InRegion { t with dirty := ds, dirtyAll := a } x y := by
    intro x y hs
    obtain ⟨hs, hm⟩ := (stale_shadowUpdate (t := { t with dirty := ds, dirtyAll := a }) hb).mp hs
    exact hr x y hs.1 (h.stale x y hs) hm
  rw [hf] at hst ⊢
  exact ⟨⟨hok.count, hok.inside⟩, hst⟩

/-- After a full frame nothing needs to be pending. -/
lemma Covered.full (h : t.Covered) (hb : t.bufs = true) :
    (Tx.shadowUpdate { t with dirtyAll := false, dirty := [] }
      (Rect.full t.width t.height)).Covered := by
  refine h.shadowUpdate hb ⟨[], false, rfl⟩ ⟨Nat.zero_le _, fun r hr => by cases hr⟩ ?_
  intro x y hf _ hn
  exact absurd hf hn

lemma Covered.act (hR : ∀ t grab rects, R.damage t grab rects → t.HonestDamage grab rects)
    (h : TxAct env neg R t t') (hc : t.Covered) : t'.Covered := by
  cases h with
  | ctrl m =>
      obtain ⟨-, h⟩ | ⟨-, -, w, h⟩ := t.xmitCtrl_cases m
      · rw [h]
        exact hc
      · rw [h]
        exact hc.congr rfl
  | aux | lose | sendFrame | frameDone | sendHead | popHead =>
      exact hc.congr rfl
  | damage grab rects h => exact hc.damage _ (hR t grab rects h)
  | repaint => exact .all ⟨hc.count, hc.inside⟩ rfl
  | snapshot hr => exact (hc.full hr.bufs).congr rfl
  | rect r ds hr hm ha hd =>
      have hin := hc.inside
      have hlen := hc.count
      rw [hd] at hin hlen
      have hds : Covered (Tx.shadowUpdate { t with dirty := ds } r) := by
        refine hc.shadowUpdate hr.bufs ⟨ds, t.dirtyAll, rfl⟩
          ⟨Nat.le_of_succ_le hlen, fun e he => hin e (List.mem_cons_of_mem _ he)⟩ ?_
        rintro x y - (hall | ⟨e, he, hm⟩) hn
        · exact .inl hall
        · rw [hd] at he
          rcases List.mem_cons.mp he with rfl | he
          · exact absurd hm hn
          · exact .inr ⟨e, he, hm⟩
      exact hds.congr rfl
  | encodeAu nal idr hn hr => exact (hc.full hr.bufs).congr rfl
  | encodeNothing _ hr => exact (hc.full hr.bufs).congr rfl

lemma covered_leaveH264 (t : Tx) : t.leaveH264.Covered := by
  have hnil : ∀ {t' : Tx}, t'.dirty = [] → t'.RegionOk := fun hd =>
    ⟨by simp [hd], by simp [hd]⟩
  obtain ⟨-, h⟩ | ⟨-, -, w, h⟩ := t.leaveH264_cases
  · rw [h]
    exact .all (hnil rfl) rfl
  · rw [h]
    exact .all (hnil rfl) rfl

/-- **Every action keeps the coverage.** -/
lemma Covered.step (hR : ∀ t grab rects, R.damage t grab rects → t.HonestDamage grab rects)
    (h : TxStep env neg R t t') (hc : t.Covered) : t'.Covered := by
  cases h with
  | act h => exact hc.act hR h
  | leave | encodeFail => exact covered_leaveH264 _
  | enter now =>
      rw [enterH264_eq]
      refine ⟨⟨Nat.zero_le _, fun r hr => by cases hr⟩, fun x y hs => .inl ?_⟩
      -- a stale pixel was pending, so there is something to turn into a full frame
      rcases hc.stale x y hs with ha | ⟨r, hr, -⟩
      · simp [ha]
      · simp [List.ne_nil_of_mem hr]

/-- The region stays inside the frame, whatever is reported. -/
lemma RegionOk.step (h : TxStep env neg R t t') (hok : t.RegionOk) : t'.RegionOk := by
  have hnil : ∀ {t : Tx}, t.dirty = [] → t.RegionOk := fun hd => ⟨by simp [hd], by simp [hd]⟩
  cases h with
  | leave | encodeFail => exact (covered_leaveH264 _).toRegionOk
  | enter now =>
      rw [enterH264_eq]
      exact hnil rfl
  | act h =>
      cases h with
      | ctrl m =>
          obtain ⟨-, h⟩ | ⟨-, -, w, h⟩ := t.xmitCtrl_cases m
          · rw [h]
            exact hok
          · rw [h]
            exact ⟨hok.count, hok.inside⟩
      | damage grab rects =>
          exact (foldl_damageRect_spec (t := { t with grabbuf := grab }) neg.pixfmt.bytespp rects 0
            ⟨hok.count, hok.inside⟩).1
      | rect r ds hr hm ha hd =>
          obtain ⟨f, hf⟩ := shadowUpdate_eq { t with dirty := ds } r
          unfold builtRect
          rw [hf]
          have hlen := hok.count
          have hin := hok.inside
          rw [hd] at hlen hin
          exact ⟨Nat.le_of_succ_le hlen, fun e he => hin e (List.mem_cons_of_mem _ he)⟩
      | snapshot | encodeAu | encodeNothing =>
          obtain ⟨f, hf⟩ := shadowUpdate_eq { t with dirtyAll := false, dirty := [] }
            (Rect.full t.width t.height)
          simp only [builtRect, builtAu, builtNothing, hf]
          exact hnil rfl
      | aux | lose | repaint | sendFrame | frameDone | sendHead | popHead =>
          exact ⟨hok.count, hok.inside⟩

end Actions

end Tx

end Sremfb
