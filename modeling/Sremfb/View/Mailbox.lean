import Sremfb.Lib.Rect
import Sremfb.Lib.Run
import Sremfb.View.Stream

/-!
# The window of the viewer (`view/net.c`, `view/sremfb-view.c`)

The network thread writes the stream into the shared framebuffer and notes the damage; the main
thread, in `refresh`, uploads the damage to a texture.  The two meet under a lock, so a run is a
list of locked sections in any order.  What a section does to the batch counter, to the probe and to
the blanking is left out: the upload depends on none of it.

`gen` counts the streams, and a window whose count differs builds a new texture.  The count has 32
bits.  `ViewWindow.missed` is the ghost that does not wrap: how many streams came since the window
last looked.
-/

namespace Sremfb

open Lib

/-! ## The texture -/

/-- A streaming texture. -/
structure ViewTexture where
  w : ℕ
  h : ℕ
  bytespp : ℕ
  cells : Image

/-- `SDL_UpdateTexture` with the rows at `src`, `pitch` bytes apart. -/
def ViewTexture.update (t : ViewTexture) (x y w h : ℕ) (src : ℕ → UInt8) (pitch : ℕ) :
    ViewTexture :=
  { t with cells := fun px py =>
      if x ≤ px ∧ px < x + w ∧ y ≤ py ∧ py < y + h then cell src pitch t.bytespp (px - x) (py - y)
      else t.cells px py }

/-! ## Shared state -/

/-- What the two threads share (`FB`), and what the window keeps (`D`). -/
structure ViewWindow where
  fb : ViewFb := { damageAll := false }
  /-- The stream that is up: its geometry, and `pixels != NULL`. -/
  stream : Option ViewStream := none
  gen : UInt32 := 0
  /-- `D.gen`, first `~0u`. -/
  dGen : UInt32 := 0xFFFFFFFF
  tex : Option ViewTexture := none
  /-- Ghost: the streams since the window last looked. -/
  missed : ℕ := 1

namespace ViewWindow

/-- `fb_set_stream`, with `pixels` all zero. -/
def fbSetStream (stream : Option ViewStream) (s : ViewWindow) : ViewWindow :=
  { s with
    fb := { s.fb with
      pixels := fun _ => 0
      probeArmed := false
      blanked := false
      damage := []
      damageAll := true }
    stream := stream
    gen := s.gen + 1
    missed := s.missed + 1 }

/-- `texture_rebuild`, for which SDL finds the texture; `junk` is what it holds at first. -/
def textureRebuild (junk : Image) (s : ViewWindow) : ViewWindow :=
  { s with
    tex := s.stream.map fun v => { w := v.w, h := v.h, bytespp := v.bytespp, cells := junk } }

/-- The upload of `refresh`. -/
def upload (v : ViewStream) (fb : ViewFb) (t : ViewTexture) : ViewTexture :=
  if fb.damageAll then t.update 0 0 t.w t.h fb.pixels v.stride
  else fb.damage.foldl (fun t r =>
    t.update r.x.toNat r.y.toNat r.w.toNat r.h.toNat
      (fun i => fb.pixels (r.y.toNat * v.stride + r.x.toNat * v.bytespp + i)) v.stride) t

/-- The locked section of `refresh`; without `pull` it only repaints. -/
def refresh (junk : Image) (pull : Bool) (s : ViewWindow) : ViewWindow :=
  if pull then
    let s :=
      if s.gen ≠ s.dGen then
        let s := { s with dGen := s.gen }.textureRebuild junk
        { s with fb := { s.fb with damageAll := true } }
      else s
    let tex :=
      match s.tex, s.stream with
      | some t, some v => some (upload v s.fb t)
      | tex, _ => tex
    { s with tex := tex, fb := { s.fb with damageAll := false, damage := [] }, missed := 0 }
  else s

/-- The locked sections. -/
inductive Event
  /-- The server answers the hello, and `stream_loop` begins. -/
  | connect (h264Broken : Bool) (sh : ServerHello)
  /-- `stream_loop` ends. -/
  | disconnect
  /-- A rectangle that `stream_loop` has checked and received. -/
  | putRect (now : ℕ) (hd : FrameHdr) (raw : List UInt8)
  | picture (now : ℕ) (p : Picture)
  | refresh (junk : Image) (pull : Bool)

/-- What `stream_loop` has made sure of when it calls `fb_put_rect`; `raw` is what that reads of
`scratch`. -/
def Checked (v : ViewStream) (hd : FrameHdr) (raw : List UInt8) : Prop :=
  hd.w.toNat ≠ 0 ∧ hd.h.toNat ≠ 0 ∧ hd.x.toNat + hd.w.toNat ≤ v.w ∧
    hd.y.toNat + hd.h.toNat ≤ v.h ∧ raw.length = hd.h.toNat * (hd.w.toNat * v.bytespp)

instance (v : ViewStream) (hd : FrameHdr) (raw : List UInt8) : Decidable (Checked v hd raw) :=
  inferInstanceAs (Decidable (_ ∧ _ ∧ _ ∧ _ ∧ _))

/-- One locked section; what the network thread cannot do without a stream changes nothing. -/
def step (view : View) (s : ViewWindow) : Event → ViewWindow
  | .connect h264Broken sh =>
      match view.helloExchange h264Broken sh with
      | none => s
      | some v => s.fbSetStream (some v)
  | .disconnect => s.fbSetStream none
  | .putRect now hd raw =>
      match s.stream with
      | none => s
      | some v => if Checked v hd raw then { s with fb := v.fbPutRect now hd raw s.fb } else s
  | .picture now p =>
      match s.stream with
      | none => s
      | some v => { s with fb := (v.h264Show now p { fb := s.fb }).fb }
  | .refresh junk pull => s.refresh junk pull

/-- The count of the streams does not come round while the window looks away. -/
def Counts (s : ViewWindow) : Event → Prop
  | .connect _ _ | .disconnect => s.missed + 1 < 2 ^ 32
  | .putRect _ _ _ | .picture _ _ | .refresh _ _ => True

/-! ## What the damage covers -/

end ViewWindow

/-- The rectangle, in pixels. -/
def ViewRect.rect (r : ViewRect) : Rect :=
  ⟨r.x.toNat, r.y.toNat, r.x.toNat + r.w.toNat, r.y.toNat + r.h.toNat⟩

namespace ViewFb

variable {fb : ViewFb}

/-- Something pending covers the pixel. -/
def Pending (fb : ViewFb) (px py : ℕ) : Prop :=
  fb.damageAll = true ∨ ∃ r ∈ fb.damage, r.rect.Mem px py

/-- The damage fits: no more rectangles than there is room for, each inside the stream. -/
def Fits (fb : ViewFb) (v : ViewStream) : Prop :=
  fb.damage.length ≤ viewDamageMax ∧ ∀ r ∈ fb.damage, r.rect.Inside v.w v.h

end ViewFb

namespace ViewWindow

/-- The texture has the size of the stream and shows it, but for what is pending. -/
def Shows (s : ViewWindow) : Prop :=
  ∀ v ∈ s.stream, ∃ t ∈ s.tex, t.w = v.w ∧ t.h = v.h ∧ t.bytespp = v.bytespp ∧
    ∀ px py, v.Keeps px py → t.cells px py ≠ v.raster s.fb.pixels px py → s.fb.Pending px py

/-- What a run keeps. -/
structure Sound (s : ViewWindow) : Prop where
  counted : s.gen = s.dGen + UInt32.ofNat s.missed
  few : s.missed < 2 ^ 32
  bounded : ∀ v ∈ s.stream, v.w < 2 ^ 16 ∧ v.h < 2 ^ 16
  fits : ∀ v ∈ s.stream, s.fb.Fits v
  idle : s.stream = none → s.fb.damage = []
  shows : s.missed = 0 → s.Shows

end ViewWindow

/-! ## Adding damage -/

namespace ViewFb

variable {fb : ViewFb} {v : ViewStream} {x y w h : ℕ}

/-- The box that the overflow of `damage_add` collects is the hull of the rectangles. -/
lemma foldl_box (rs : List ViewRect) (x0 y0 x1 y1 : ℕ) :
    ∃ a b c d : ℕ, rs.foldl (fun (x0, y0, x1, y1) r =>
        (min x0 r.x.toNat, min y0 r.y.toNat, max x1 (r.x.toNat + r.w.toNat),
          max y1 (r.y.toNat + r.h.toNat))) (x0, y0, x1, y1) = (a, b, c, d) ∧
      (⟨a, b, c, d⟩ : Rect) = (rs.map ViewRect.rect).foldl Rect.union ⟨x0, y0, x1, y1⟩ := by
  induction rs generalizing x0 y0 x1 y1 with
  | nil => exact ⟨x0, y0, x1, y1, rfl, rfl⟩
  | cons r rs ih =>
      obtain ⟨a, b, c, d, hfold, hbox⟩ := ih (min x0 r.x.toNat) (min y0 r.y.toNat)
        (max x1 (r.x.toNat + r.w.toNat)) (max y1 (r.y.toNat + r.h.toNat))
      refine ⟨a, b, c, d, hfold, hbox.trans ?_⟩
      rw [List.map_cons, List.foldl_cons]
      congr 1
      simp only [Rect.union, ViewRect.rect, Nat.cast_min, Nat.cast_max, Nat.cast_add]

/-- Sixteen bits are enough for a rectangle inside the stream. -/
lemma rect_ofNat {a b c d vw vh : ℕ} (hr : (⟨a, b, c, d⟩ : Rect).Inside vw vh)
    (hw : vw < 2 ^ 16) (hh : vh < 2 ^ 16) :
    ViewRect.rect ⟨UInt16.ofNat a, UInt16.ofNat b, UInt16.ofNat (c - a), UInt16.ofNat (d - b)⟩ =
      ⟨a, b, c, d⟩ := by
  simp only [Rect.Inside] at hr
  have hmod : ∀ n : ℕ, n < 2 ^ 16 → (UInt16.ofNat n).toNat = n := fun n hn =>
    Nat.mod_eq_of_lt hn
  simp only [ViewRect.rect, Rect.mk.injEq]
  rw [hmod a (by omega), hmod b (by omega), hmod (c - a) (by omega), hmod (d - b) (by omega)]
  omega

/-- `damage_add` keeps what is pending and adds the rectangle. -/
lemma damageAdd_spec (hfit : fb.Fits v) (hnew : (⟨x, y, x + w, y + h⟩ : Rect).Inside v.w v.h)
    (hw : v.w < 2 ^ 16) (hh : v.h < 2 ^ 16) :
    (fb.damageAdd x y w h).Fits v ∧ ∀ px py : ℕ,
      fb.Pending px py ∨ (⟨x, y, x + w, y + h⟩ : Rect).Mem px py →
        (fb.damageAdd x y w h).Pending px py := by
  have hone : (⟨x, y, x + w, y + h⟩ : Rect) = ⟨x, y, (x + w : ℕ), (y + h : ℕ)⟩ := by
    push_cast
    rfl
  rw [hone] at hnew ⊢
  unfold damageAdd
  dsimp only
  split <;> rename_i hall
  · exact ⟨hfit, fun _ _ _ => .inl hall⟩
  split <;> rename_i hfull
  · obtain ⟨a, b, c, d, hfold, hbox⟩ := foldl_box fb.damage x y (x + w) (y + h)
    have hinside : (⟨a, b, c, d⟩ : Rect).Inside v.w v.h := by
      rw [hbox]
      refine hnew.foldl_union fun r hr => ?_
      obtain ⟨r', hr', rfl⟩ := List.mem_map.mp hr
      exact hfit.2 r' hr'
    rw [hfold]
    have hrect := rect_ofNat hinside hw hh
    refine ⟨⟨by simp [viewDamageMax], fun r hr => ?_⟩,
      fun px py hp => .inr ⟨_, List.mem_singleton_self _, ?_⟩⟩
    · rw [List.mem_singleton.mp hr, hrect]
      exact hinside
    · rw [hrect, hbox]
      obtain (hfalse | ⟨r, hr, hmem⟩) | hmem := hp
      · exact absurd hfalse hall
      · exact Rect.mem_foldl_union (.inr (List.mem_map_of_mem hr)) hmem
      · exact Rect.mem_foldl_union (.inl rfl) hmem
  · have hrect := rect_ofNat hnew hw hh
    rw [Nat.add_sub_cancel_left, Nat.add_sub_cancel_left] at hrect
    refine ⟨⟨?_, fun r hr => ?_⟩, fun px py hp => ?_⟩
    · have := hfit.1
      simp only [List.length_append, List.length_singleton]
      omega
    · obtain hr | hr := List.mem_append.mp hr
      · exact hfit.2 r hr
      · rw [List.mem_singleton.mp hr, hrect]
        exact hnew
    · obtain (hfalse | ⟨r, hr, hmem⟩) | hmem := hp
      · exact absurd hfalse hall
      · exact .inr ⟨r, List.mem_append_left _ hr, hmem⟩
      · exact .inr ⟨_, List.mem_append_right _ (List.mem_singleton_self _), hrect ▸ hmem⟩

/-- What is pending depends on the damage only. -/
lemma Pending.congr {fb' : ViewFb} (hall : fb'.damageAll = fb.damageAll)
    (hdamage : fb'.damage = fb.damage) {px py : ℕ} : fb'.Pending px py ↔ fb.Pending px py := by
  rw [Pending, Pending, hall, hdamage]

end ViewFb

/-! ## The sections -/

namespace ViewWindow

variable {s : ViewWindow} {v : ViewStream}

/-- The probe is no damage. -/
lemma probe_damage (q : ViewFb) (now : ℕ) (c : Prop) [Decidable c] :
    (if c then { q with probeHitNs := now, probeArmed := false } else q : ViewFb).damage =
        q.damage ∧
      (if c then { q with probeHitNs := now, probeArmed := false } else q : ViewFb).damageAll =
        q.damageAll := by
  split <;> exact ⟨rfl, rfl⟩

/-- `fb_put_rect` notes the damage, whatever the probe does. -/
lemma fbPutRect_damage (now : ℕ) (hd : FrameHdr) (raw : List UInt8) (fb : ViewFb) :
    (v.fbPutRect now hd raw fb).damage =
        (fb.damageAdd hd.x.toNat hd.y.toNat hd.w.toNat hd.h.toNat).damage ∧
      (v.fbPutRect now hd raw fb).damageAll =
        (fb.damageAdd hd.x.toNat hd.y.toNat hd.w.toNat hd.h.toNat).damageAll := by
  have hpix : ∀ p : ℕ → UInt8, ∀ x y w h : ℕ,
      (({ fb with pixels := p } : ViewFb).damageAdd x y w h).damage =
        (fb.damageAdd x y w h).damage ∧
      (({ fb with pixels := p } : ViewFb).damageAdd x y w h).damageAll =
        (fb.damageAdd x y w h).damageAll := by
    intro p x y w h
    unfold ViewFb.damageAdd
    dsimp only
    split
    · exact ⟨rfl, rfl⟩
    · split <;> exact ⟨rfl, rfl⟩
  unfold ViewStream.fbPutRect
  dsimp only
  exact ⟨(probe_damage ..).1.trans (hpix ..).1, (probe_damage ..).2.trans (hpix ..).2⟩

/-- A rectangle the texture does not have is pending afterwards. -/
lemma pending_putRect {hd : FrameHdr} {raw : List UInt8} {fb : ViewFb} {t : ViewTexture}
    (now : ℕ) (hc : Checked v hd raw) (hfit : fb.Fits v) (hw : v.w < 2 ^ 16) (hh : v.h < 2 ^ 16)
    (hshow : ∀ px py, v.Keeps px py → t.cells px py ≠ v.raster fb.pixels px py →
      fb.Pending px py) :
    (v.fbPutRect now hd raw fb).Fits v ∧ ∀ px py, v.Keeps px py →
      t.cells px py ≠ v.raster (v.fbPutRect now hd raw fb).pixels px py →
        (v.fbPutRect now hd raw fb).Pending px py := by
  obtain ⟨hwpos, hhpos, hx, hy, hraw⟩ := hc
  have hnew : (⟨hd.x.toNat, hd.y.toNat, hd.x.toNat + hd.w.toNat, hd.y.toNat + hd.h.toNat⟩ :
      Rect).Inside v.w v.h := by
    simp only [Rect.Inside]
    omega
  obtain ⟨hfits, hpending⟩ := ViewFb.damageAdd_spec hfit hnew hw hh
  obtain ⟨hdamage, hall⟩ := fbPutRect_damage (v := v) now hd raw fb
  refine ⟨by rwa [ViewFb.Fits, hdamage], fun px py hkeep hne => ?_⟩
  rw [ViewFb.Pending.congr hall hdamage]
  refine hpending px py ?_
  rw [v.fbPutRect_agreeOn now fb hraw hx px py hkeep, Image.put] at hne
  split at hne <;> rename_i hin
  · right
    simp only [Rect.Mem]
    omega
  · exact .inl (hshow px py hkeep hne)

/-- A picture makes everything pending. -/
lemma h264Show_damage (now : ℕ) (p : Picture) (n : ViewState) :
    (v.h264Show now p n).fb.damage = [] ∧ (v.h264Show now p n).fb.damageAll = true := by
  unfold ViewStream.h264Show ViewState.publish
  exact probe_damage ..

/-! ### The upload -/

lemma cell_shift (buf : ℕ → UInt8) {stride c x y px py : ℕ} (hx : x ≤ px) (hy : y ≤ py) :
    cell (fun i => buf (y * stride + x * c + i)) stride c (px - x) (py - y) =
      cell buf stride c px py := by
  obtain ⟨dx, rfl⟩ := Nat.exists_eq_add_of_le hx
  obtain ⟨dy, rfl⟩ := Nat.exists_eq_add_of_le hy
  simp only [cell, Nat.add_sub_cancel_left]
  refine List.map_congr_left fun i _ => congrArg buf ?_
  ring

/-- Uploading rectangles: a pixel of one of them is the framebuffer's, the others stay. -/
lemma foldl_update (fb : ViewFb) (rs : List ViewRect) (t : ViewTexture)
    (ht : t.bytespp = v.bytespp) (px py : ℕ) :
    let t' := rs.foldl (fun t r => t.update r.x.toNat r.y.toNat r.w.toNat r.h.toNat
      (fun i => fb.pixels (r.y.toNat * v.stride + r.x.toNat * v.bytespp + i)) v.stride) t
    (t'.w = t.w ∧ t'.h = t.h ∧ t'.bytespp = t.bytespp) ∧
      (t'.cells px py = v.raster fb.pixels px py ∨
        (t'.cells px py = t.cells px py ∧ ∀ r ∈ rs, ¬ r.rect.Mem px py)) := by
  induction rs generalizing t with
  | nil => exact ⟨⟨rfl, rfl, rfl⟩, .inr ⟨rfl, fun _ hr => by cases hr⟩⟩
  | cons r rs ih =>
      rw [List.foldl_cons]
      obtain ⟨hsize, hcell⟩ := ih (t.update r.x.toNat r.y.toNat r.w.toNat r.h.toNat
        (fun i => fb.pixels (r.y.toNat * v.stride + r.x.toNat * v.bytespp + i)) v.stride) ht
      refine ⟨hsize, hcell.elim .inl ?_⟩
      rintro ⟨hsame, hnone⟩
      rw [hsame]
      simp only [ViewTexture.update]
      split <;> rename_i hin
      · left
        rw [ht, cell_shift fb.pixels hin.1 hin.2.2.1]
        rfl
      · refine .inr ⟨rfl, fun r' hr' => ?_⟩
        obtain rfl | hr' := List.mem_cons.mp hr'
        · simp only [ViewRect.rect, Rect.Mem]
          omega
        · exact hnone r' hr'

/-- An upload keeps the size. -/
lemma upload_size {fb : ViewFb} {t : ViewTexture} (hb : t.bytespp = v.bytespp) :
    (upload v fb t).w = t.w ∧ (upload v fb t).h = t.h ∧ (upload v fb t).bytespp = t.bytespp := by
  unfold upload
  split
  · exact ⟨rfl, rfl, rfl⟩
  · exact (foldl_update fb fb.damage t hb 0 0).1

/-- An upload of what is pending leaves nothing that differs. -/
lemma upload_shows {fb : ViewFb} {t : ViewTexture} (hw : t.w = v.w) (hh : t.h = v.h)
    (hb : t.bytespp = v.bytespp)
    (hshow : ∀ px py, v.Keeps px py → t.cells px py ≠ v.raster fb.pixels px py →
      fb.Pending px py) :
    ((upload v fb t).w = v.w ∧ (upload v fb t).h = v.h ∧ (upload v fb t).bytespp = v.bytespp) ∧
      ∀ px py, v.Keeps px py → (upload v fb t).cells px py = v.raster fb.pixels px py := by
  obtain ⟨h1, h2, h3⟩ := @upload_size v fb t hb
  refine ⟨⟨h1.trans hw, h2.trans hh, h3.trans hb⟩, fun px py hkeep => ?_⟩
  unfold upload
  split <;> rename_i hall
  · have hin : 0 ≤ px ∧ px < 0 + t.w ∧ 0 ≤ py ∧ py < 0 + t.h := by
      rw [hw, hh]
      exact ⟨px.zero_le, by simpa using hkeep.1, py.zero_le, by simpa using hkeep.2⟩
    simp only [ViewTexture.update]
    rw [if_pos hin, hb]
    rfl
  · obtain ⟨-, hcell | ⟨hsame, hnone⟩⟩ := foldl_update fb fb.damage t hb px py
    · exact hcell
    · rw [hsame]
      by_contra hne
      obtain hfalse | ⟨r, hr, hmem⟩ := hshow px py hkeep hne
      · exact hall hfalse
      · exact hnone r hr hmem

/-! ### What a run keeps -/

lemma Sound.fbSetStream (hs : s.Sound) (hfew : s.missed + 1 < 2 ^ 32) (stream : Option ViewStream)
    (hbound : ∀ v ∈ stream, v.w < 2 ^ 16 ∧ v.h < 2 ^ 16) : (s.fbSetStream stream).Sound where
  counted := by
    have hnext : UInt32.ofNat (s.missed + 1) = UInt32.ofNat s.missed + 1 := UInt32.ofNat_add ..
    simp only [ViewWindow.fbSetStream, hnext, hs.counted, UInt32.add_assoc]
  few := hfew
  bounded := hbound
  fits _ _ := ⟨Nat.zero_le _, fun _ hr => by cases hr⟩
  idle _ := rfl
  shows h := absurd h (Nat.succ_ne_zero _)

/-- The window has the stream of the framebuffer exactly when it missed none. -/
lemma Sound.gen_iff (hs : s.Sound) : s.gen = s.dGen ↔ s.missed = 0 := by
  rw [hs.counted]
  constructor
  · intro h
    have hzero : UInt32.ofNat s.missed = 0 := by simpa using h
    have hnat : (UInt32.ofNat s.missed).toNat = 0 := by rw [hzero]; rfl
    rwa [UInt32.toNat_ofNat', Nat.mod_eq_of_lt hs.few] at hnat
  · intro h
    rw [h]
    exact UInt32.add_zero _

/-- **The upload.**  After a pull the texture is the framebuffer. -/
lemma Sound.refresh_shows (hs : s.Sound) (junk : Image) :
    ∀ v ∈ s.stream, ∃ t ∈ (s.refresh junk true).tex, (t.w = v.w ∧ t.h = v.h ∧
      t.bytespp = v.bytespp) ∧
      ∀ px py, v.Keeps px py → t.cells px py = v.raster s.fb.pixels px py := by
  intro v hv
  unfold refresh
  rw [if_pos rfl]
  by_cases hgen : s.gen = s.dGen
  · obtain ⟨t, ht, hw, hh, hb, hshow⟩ := hs.shows (hs.gen_iff.mp hgen) v hv
    rw [if_neg (not_not.mpr hgen)]
    rw [Option.mem_def] at hv ht
    simp only [hv, ht]
    exact ⟨_, rfl, upload_shows hw hh hb hshow⟩
  · rw [if_pos hgen]
    rw [Option.mem_def] at hv
    simp only [textureRebuild, hv, Option.map_some]
    exact ⟨_, rfl, @upload_shows v { s.fb with damageAll := true } _ rfl rfl rfl
      fun _ _ _ _ => .inl rfl⟩

lemma Sound.refresh (hs : s.Sound) (junk : Image) (pull : Bool) :
    (s.refresh junk pull).Sound := by
  cases pull with
  | false => exact hs
  | true =>
      have hkeep : (s.refresh junk true).gen = s.gen ∧ (s.refresh junk true).dGen = s.gen ∧
          (s.refresh junk true).stream = s.stream ∧ (s.refresh junk true).missed = 0 ∧
          (s.refresh junk true).fb = { s.fb with damageAll := false, damage := [] } := by
        unfold ViewWindow.refresh
        rw [if_pos rfl]
        by_cases hgen : s.gen = s.dGen
        · rw [if_neg (not_not.mpr hgen)]
          exact ⟨rfl, hgen.symm, rfl, rfl, rfl⟩
        · rw [if_pos hgen]
          exact ⟨rfl, rfl, rfl, rfl, rfl⟩
      obtain ⟨hgen, hdgen, hstream, hmissed, hfb⟩ := hkeep
      refine ⟨?_, ?_, ?_, ?_, ?_, ?_⟩
      · rw [hgen, hdgen, hmissed]
        exact (UInt32.add_zero _).symm
      · rw [hmissed]
        decide
      · rw [hstream]
        exact hs.bounded
      · rw [hfb]
        exact fun _ _ => ⟨Nat.zero_le _, fun _ hr => by cases hr⟩
      · rw [hfb]
        exact fun _ => rfl
      · intro _ v hv
        rw [hstream] at hv
        obtain ⟨t, ht, ⟨hw, hh, hb⟩, hshow⟩ := hs.refresh_shows junk v hv
        refine ⟨t, ht, hw, hh, hb, fun px py hk hne => absurd ?_ hne⟩
        rw [hshow px py hk, hfb]

/-- Any change of the framebuffer that stays within the stream and notes what it does. -/
lemma Sound.draw (hs : s.Sound) {fb : ViewFb} (hidle : s.stream ≠ none)
    (hfits : ∀ v ∈ s.stream, fb.Fits v)
    (hshow : ∀ v ∈ s.stream, ∀ t : ViewTexture, (∀ px py, v.Keeps px py →
      t.cells px py ≠ v.raster s.fb.pixels px py → s.fb.Pending px py) →
      ∀ px py, v.Keeps px py → t.cells px py ≠ v.raster fb.pixels px py → fb.Pending px py) :
    Sound { s with fb := fb } where
  counted := hs.counted
  few := hs.few
  bounded := hs.bounded
  fits := hfits
  idle h := absurd h hidle
  shows h v hv := by
    obtain ⟨t, ht, hw, hh, hb, hold⟩ := hs.shows h v hv
    exact ⟨t, ht, hw, hh, hb, hshow v hv t hold⟩

lemma Sound.step (hs : s.Sound) (view : View) (ev : Event) (hc : s.Counts ev) :
    (s.step view ev).Sound := by
  cases ev with
  | connect h264Broken sh =>
      simp only [ViewWindow.step]
      split <;> rename_i v hv
      · exact hs
      · refine hs.fbSetStream hc (some v) fun v' hv' => ?_
        obtain rfl := Option.some.inj hv'
        unfold View.helloExchange at hv
        split_ifs at hv
        obtain rfl := Option.some.inj hv
        exact ⟨sh.width.toNat_lt, sh.height.toNat_lt⟩
  | disconnect => exact hs.fbSetStream hc none fun v hv => by cases hv
  | putRect now hd raw =>
      simp only [ViewWindow.step]
      split <;> rename_i v hv
      · exact hs
      split <;> rename_i hchecked
      · have hone : ∀ v' ∈ s.stream, v' = v := fun v' hv' => by
          rw [hv] at hv'
          exact (Option.some.inj hv').symm
        obtain ⟨hw, hh⟩ := hs.bounded v hv
        refine hs.draw (by rw [hv]; exact nofun) (fun v' hv' => ?_) fun v' hv' t hold => ?_
        · obtain rfl := hone v' hv'
          exact (pending_putRect (t := ⟨0, 0, 0, v'.raster s.fb.pixels⟩) now hchecked
            (hs.fits v' hv) hw hh fun _ _ _ hne => absurd rfl hne).1
        · obtain rfl := hone v' hv'
          exact (pending_putRect now hchecked (hs.fits v' hv) hw hh hold).2
      · exact hs
  | picture now p =>
      simp only [ViewWindow.step]
      split <;> rename_i v hv
      · exact hs
      · obtain ⟨hdamage, hall⟩ := h264Show_damage (v := v) now p { fb := s.fb }
        refine hs.draw (by rw [hv]; exact nofun) (fun _ _ => ?_) fun _ _ _ _ _ _ _ _ => .inl hall
        rw [ViewFb.Fits, hdamage]
        exact ⟨Nat.zero_le _, fun _ hr => by cases hr⟩
  | refresh junk pull => exact hs.refresh junk pull

lemma sound_boot : Sound {} where
  counted := by decide
  few := by decide
  bounded _ h := by cases h
  fits _ h := by cases h
  idle _ := rfl
  shows h := by cases h

/-- **The window shows the stream.**  While the count of the streams does not come round between two
looks of the window: the damage is never more than there is room for, and inside the stream; once
the window has looked at a stream, every pixel in which the texture differs is covered by it; and a
pull makes the texture the framebuffer. -/
theorem damage_covers_window (view : View) (es : List Event)
    (hes : Along Counts (step view) {} es) :
    let s := run (step view) {} es
    (∀ v ∈ s.stream, s.fb.Fits v) ∧ s.fb.damage.length ≤ viewDamageMax ∧
      (s.missed = 0 → s.Shows) ∧
      ∀ junk, ∀ v ∈ s.stream, ∃ t ∈ (s.refresh junk true).tex, (t.w = v.w ∧ t.h = v.h ∧
        t.bytespp = v.bytespp) ∧
        ∀ px py, v.Keeps px py →
          t.cells px py = v.raster (s.refresh junk true).fb.pixels px py := by
  intro s
  have hs : s.Sound := run_invariant (fun _ ev hc hs => hs.step view ev hc) sound_boot hes
  refine ⟨hs.fits, ?_, hs.shows, fun junk v hv => ?_⟩
  · cases hstream : s.stream with
    | none =>
        rw [hs.idle hstream]
        exact Nat.zero_le _
    | some v => exact (hs.fits v hstream).1
  · have hpix : (s.refresh junk true).fb.pixels = s.fb.pixels := by
      unfold ViewWindow.refresh
      rw [if_pos rfl]
      split <;> rfl
    rw [hpix]
    exact hs.refresh_shows junk v hv

/-- A stream of two pixels: the window looks, the second pixel comes, and is pending. -/
theorem damage_covers_pixel :
    let view : View := ⟨.rgb565, 0, 0, true, true, true, true, false⟩
    let sh : ServerHello :=
      { width := 2, height := 1, pixfmt := PixFmt.rgb565.code, flags := 0 }
    let es : List Event := [.connect false sh, .refresh (fun _ _ => []) true,
      .putRect 0 { x := 1, w := 1, h := 1, encoding := Encoding.raw.code } [0xFF, 0xFF]]
    let s := run (step view) {} es
    s.missed = 0 ∧ s.fb.damage = [⟨1, 0, 1, 1⟩] ∧ s.Shows := by
  intro view sh es s
  have hmissed : s.missed = 0 := by decide +kernel
  refine ⟨hmissed, by decide +kernel, ?_⟩
  have hfirst : ({} : ViewWindow).missed + 1 < 2 ^ 32 := by decide
  exact (damage_covers_window view es ⟨hfirst, trivial, trivial, trivial⟩).2.2.1 hmissed

/-- Streams that come and go, as the window does not look. -/
lemma run_reconnects {view : View} {h264Broken : Bool} {sh : ServerHello}
    (hv : view.helloExchange h264Broken sh = some v) (k : ℕ) (hs : s.stream = some v) :
    let s' := run (step view) s
      (List.replicate k [Event.disconnect, Event.connect h264Broken sh]).flatten
    s'.stream = some v ∧ s'.gen = s.gen + UInt32.ofNat (2 * k) ∧ s'.dGen = s.dGen ∧
      s'.tex = s.tex := by
  induction k generalizing s with
  | zero => exact ⟨hs, (UInt32.add_zero _).symm, rfl, rfl⟩
  | succ k ih =>
      have hstep : (step view (step view s .disconnect) (.connect h264Broken sh)) =
          (s.fbSetStream none).fbSetStream (some v) := by simp only [step, hv]
      obtain ⟨hstream, hgen, hdgen, htex⟩ := ih (s := (s.fbSetStream none).fbSetStream (some v)) rfl
      rw [List.replicate_succ, List.flatten_cons, run_append, run_cons, run_cons, run_nil, hstep]
      refine ⟨hstream, ?_, hdgen, htex⟩
      have htwo : UInt32.ofNat (2 * (k + 1)) = 1 + 1 + UInt32.ofNat (2 * k) := by
        rw [Nat.mul_succ, Nat.add_comm, UInt32.ofNat_add]
        rfl
      rw [hgen, htwo, ← UInt32.add_assoc, ← UInt32.add_assoc]
      rfl

/-- A window that looked at a stream one pixel wide, and looks again after `2 * n + 2` changes. -/
lemma stale_texture (view : View) {h264Broken : Bool} {sh sh' : ServerHello} (v v' : ViewStream)
    (junk : Image) (n : ℕ) (hv : view.helloExchange h264Broken sh = some v)
    (hv' : view.helloExchange h264Broken sh' = some v') (hbytes : v.bytespp = v'.bytespp)
    (hround : UInt32.ofNat (2 * n) + 2 = 0) :
    let s := run (step view) {}
      ([.connect h264Broken sh, .refresh junk true, .disconnect, .connect h264Broken sh'] ++
        (List.replicate n [Event.disconnect, Event.connect h264Broken sh']).flatten)
    s.stream.map (·.w) = some v'.w ∧ (s.refresh junk true).tex.map (·.w) = some v.w := by
  intro s
  have hfirst : run (step view) {}
      [.connect h264Broken sh, .refresh junk true, .disconnect, .connect h264Broken sh'] =
      (((fbSetStream (some v) {}).refresh junk true).fbSetStream none).fbSetStream (some v') := by
    simp only [run_cons, run_nil, step, hv, hv']
  have hrun : s = run (step view)
      ((((fbSetStream (some v) {}).refresh junk true).fbSetStream none).fbSetStream (some v'))
      (List.replicate n [Event.disconnect, Event.connect h264Broken sh']).flatten := by
    rw [← hfirst]
    exact run_append ..
  obtain ⟨hstream, hgen, hdgen, htex⟩ := run_reconnects hv' n
    (s := (((fbSetStream (some v) {}).refresh junk true).fbSetStream none).fbSetStream (some v'))
    rfl
  rw [← hrun] at hstream hgen hdgen htex
  have hsame : ¬ s.gen ≠ s.dGen := by
    have hone : s.gen = 1 + (UInt32.ofNat (2 * n) + 2) := by
      rw [hgen, UInt32.add_comm (UInt32.ofNat (2 * n)) 2, ← UInt32.add_assoc]
      rfl
    rw [hone, hround, hdgen, not_not]
    rfl
  obtain ⟨t, ht, hw, hb⟩ : ∃ t, s.tex = some t ∧ t.w = v.w ∧ t.bytespp = v'.bytespp :=
    ⟨_, htex.trans rfl, rfl, hbytes⟩
  refine ⟨by rw [hstream]; rfl, ?_⟩
  unfold ViewWindow.refresh
  rw [if_pos rfl, if_neg hsame]
  simp only [ht, hstream, Option.map_some, upload_size hb, hw]

/-- After `2 ^ 32` changes of the stream the window believes in the texture it has: the stream is
two pixels wide, the texture one. -/
theorem texture_of_the_round_before :
    let view : View := ⟨.rgb565, 0, 0, true, true, true, true, false⟩
    let sh (w : UInt16) : ServerHello :=
      { status := 0, width := w, height := 1, pixfmt := PixFmt.rgb565.code, flags := 0 }
    let s := run (step view) {}
      ([.connect false (sh 1), .refresh (fun _ _ => []) true, .disconnect, .connect false (sh 2)] ++
        (List.replicate 2147483647 [Event.disconnect, Event.connect false (sh 2)]).flatten)
    s.stream.map (·.w) = some 2 ∧ (s.refresh (fun _ _ => []) true).tex.map (·.w) = some 1 := by
  intro view sh
  exact stale_texture view { view with h264Offered := false, w := 1, h := 1 }
    { view with h264Offered := false, w := 2, h := 1 } (fun _ _ => []) 2147483647 rfl rfl
    rfl (by decide)

end ViewWindow

end Sremfb
