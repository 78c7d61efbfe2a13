import Sremfb.Lib.SaveUnder
import Sremfb.Lib.Run
import Sremfb.Server.Convert

/-!
# The composed cursor (`evdi.c`)

The compositor hands the cursor over as an image of its own.  `grabbuf` holds the desktop with
the cursor blended in, as the client shows it, and `cur_under` what the cursor covers.  Around a
grab the cursor is lifted, since the kernel rewrites only the damaged rectangles and the rest has
to be the bare desktop; a cursor event lifts it, changes it, puts it back and reports its old and
new place as damage.  A grab reports no extra damage for the cursor it puts back: outside the
rectangles of the kernel its pixels are as before.

`Composing` adds the bare desktop to the state, which the code never holds in one place: what the
kernel wrote, from the uninitialised buffer of the mode on.  The kernel is asked for one thing
(`Kernel`): the first grab after a mode change reports the whole frame.  A device has an owner only
while the connection is open, so `fd` stays; `xmit_fail` marks the client for loss at any time.

Coordinates are integers; the source's are `int`s, with sums that do not overflow.
-/

namespace Sremfb

open Lib

/-- `struct evdi_cursor_set`.  The buffer is its whole 32-bit words. -/
structure CursorSet where
  enabled : Bool
  buffer : Option (List UInt32)
  bufferLength : ℕ
  width : ℕ
  height : ℕ
  stride : ℕ
  words : ∀ b ∈ buffer, b.length = bufferLength / 4

/-- The client and its `SremfbEvdiClient`, as far as the cursor goes. -/
structure EvdiCursor where
  /-- `geom`. -/
  width : ℤ := 0
  height : ℤ := 0
  /-- `grabbuf != NULL`. -/
  bufs : Bool := false
  modeValid : Bool := false
  grabRegistered : Bool := false
  /-- `fd >= 0`. -/
  fd : Bool := true
  /-- `state == SREMFB_CLIENT_STREAMING`. -/
  streaming : Bool := false
  /-- `lost_id != 0`. -/
  lost : Bool := false
  grabbuf : Frame := fun _ _ => 0
  curOn : Bool := false
  curDrawn : Bool := false
  curX : ℤ := 0
  curY : ℤ := 0
  curW : ℤ := 0
  curH : ℤ := 0
  curStride : ℤ := 0
  curPix : List UInt32 := []
  curRect : Rect := ⟨0, 0, 0, 0⟩
  curUnder : ℕ → UInt32 := fun _ => 0
  curUnderSize : ℕ := 0

namespace EvdiCursor

variable (c : EvdiCursor)

/-- `cursor_rect`. -/
def cursorRect : Option Rect :=
  if c.curOn = false ∨ c.bufs = false ∨ c.modeValid = false then none
  else
    let r : Rect :=
      ⟨max c.curX 0, max c.curY 0, min (c.curX + c.curW) c.width, min (c.curY + c.curH) c.height⟩
    if r.x1 < r.x2 ∧ r.y1 < r.y2 then some r else none

/-- `cursor_lift`, with the rectangle it reports. -/
def cursorLift : EvdiCursor × Option Rect :=
  if c.curDrawn = false then (c, none)
  else if c.bufs = false then ({ c with curDrawn := false }, none)
  else ({ c with
    curDrawn := false
    grabbuf := restore c.grabbuf c.curRect c.curUnder }, some c.curRect)

end EvdiCursor

/-- `over8`. -/
def over8 (s d ia : UInt32) : UInt32 :=
  let t := d * ia + 128
  let t := s + ((t + (t >>> 8)) >>> 8)
  if t > 255 then 255 else t

/-- The body of the inner loop of `cursor_draw`: a cursor pixel over a pixel of the desktop. -/
def blendPixel (s d : UInt32) : UInt32 :=
  let a := s >>> 24
  if a = 0 then d
  else if a = 255 then s &&& 0x00FFFFFF
  else
    let ia := 255 - a
    over8 (s &&& 0xFF) (d &&& 0xFF) ia |||
      over8 ((s >>> 8) &&& 0xFF) ((d >>> 8) &&& 0xFF) ia <<< 8 |||
      over8 ((s >>> 16) &&& 0xFF) ((d >>> 16) &&& 0xFF) ia <<< 16

namespace EvdiCursor

variable (c : EvdiCursor)

/-- Where `cursor_draw` reads the cursor image for a pixel of the screen. -/
def srcIndex (x y : ℤ) : ℤ := (y - c.curY) * c.curStride + (x - c.curX)

/-- The cursor over a pixel of the screen. -/
def blend (x y : ℤ) (d : UInt32) : UInt32 := blendPixel (c.curPix.getD (c.srcIndex x y).toNat 0) d

/-- `cursor_draw`, with the rectangle it reports.  A `cur_under` that is too small is replaced. -/
def cursorDraw : EvdiCursor × Option Rect :=
  if c.curDrawn = true then (c, none)
  else
    match c.cursorRect with
    | none => (c, none)
    | some r =>
        let need := (r.x2 - r.x1).toNat * (r.y2 - r.y1).toNat
        ({ c with
          curUnder := save c.grabbuf r (if c.curUnderSize < need then fun _ => 0 else c.curUnder)
          curUnderSize := max c.curUnderSize need
          grabbuf := overlay c.grabbuf r c.blend
          curRect := r
          curDrawn := true }, some r)

/-- `cursor_repaint`, with the damage it reports; `old` is the rectangle that was lifted. -/
def cursorRepaint (old : Option Rect) : EvdiCursor × List Rect :=
  let (c, new) := c.cursorDraw
  let rects := old.toList ++ new.toList
  if c.grabRegistered = false ∨ c.fd = false ∨ c.streaming = false ∨ c.lost = true then (c, [])
  else (c, rects)

/-- `grab_and_send`, with the damage it reports.  `evdi_grab_pixels` rewrites `rects` with the
desktop. -/
def grabAndSend (desk : Frame) (rects : List Rect) : EvdiCursor × List Rect :=
  if c.grabRegistered = false then (c, [])
  else
    let (c, _) := c.cursorLift
    let c := { c with grabbuf := rewrite c.grabbuf desk rects }
    let (c, _) := c.cursorDraw
    if c.fd = false ∨ c.streaming = false then (c, []) else (c, rects)

/-- The image passes the checks of `on_cursor_set`. -/
def accepts (cs : CursorSet) : Option (List UInt32) :=
  if cs.enabled = true ∧ 0 < cs.width ∧ 0 < cs.height ∧ cs.width ≤ 512 ∧ cs.height ≤ 512 ∧
      cs.width * 4 ≤ cs.stride ∧ cs.stride % 4 = 0 ∧ cs.stride * cs.height ≤ cs.bufferLength then
    cs.buffer
  else none

/-- `on_cursor_set`. -/
def onCursorSet (cs : CursorSet) : EvdiCursor × List Rect :=
  let (c, old) := c.cursorLift
  let c := match accepts cs with
    | some pix => { c with
        curPix := pix
        curW := cs.width
        curH := cs.height
        curStride := (cs.stride / 4 : ℕ)
        curOn := true }
    | none => { c with curPix := [], curOn := false }
  c.cursorRepaint old

/-- `on_cursor_move`. -/
def onCursorMove (x y : ℤ) : EvdiCursor × List Rect :=
  let (c, old) := c.cursorLift
  let c := { c with curX := x, curY := y }
  c.cursorRepaint old

/-- What `on_mode_changed` does to the cursor: its pixels go with the old `grabbuf`.  `grab` is
the new one, uninitialised. -/
def modeChanged (w h : ℤ) (grab : Frame) : EvdiCursor :=
  if w ≤ 0 ∨ h ≤ 0 then c
  else { c with
    width := w
    height := h
    modeValid := true
    curDrawn := false
    grabbuf := grab
    bufs := true
    grabRegistered := true
    streaming := c.streaming || c.fd }

end EvdiCursor

/-! ## The bare desktop -/

/-- What reaches the cursor. -/
inductive CursorEvent
  /-- A grab: the desktop, and the rectangles the kernel rewrites and reports. -/
  | grab (desk : Frame) (rects : List Rect)
  | set (cs : CursorSet)
  | move (x y : ℤ)
  | modeChanged (w h : ℤ) (grab : Frame)
  /-- The connection broke: `xmit_fail` schedules the loss. -/
  | xmitFail

/-- The cursor, with the bare desktop, whether a grab has followed the last mode, and what the
last event reported. -/
structure Composing where
  cur : EvdiCursor
  bare : Frame
  fresh : Bool := true
  reported : List Rect := []

namespace Composing

/-- One event. -/
def step (s : Composing) : CursorEvent → Composing
  | .grab desk rects =>
      let r := s.cur.grabAndSend desk rects
      { cur := r.1
        bare := if s.cur.grabRegistered then rewrite s.bare desk rects else s.bare
        fresh := s.fresh && !s.cur.grabRegistered
        reported := r.2 }
  | .set cs => { s with cur := (s.cur.onCursorSet cs).1, reported := (s.cur.onCursorSet cs).2 }
  | .move x y => { s with
      cur := (s.cur.onCursorMove x y).1, reported := (s.cur.onCursorMove x y).2 }
  | .modeChanged w h grab =>
      if w ≤ 0 ∨ h ≤ 0 then { s with reported := [] }
      else { cur := s.cur.modeChanged w h grab, bare := grab }
  | .xmitFail => { s with cur := { s.cur with lost := true }, reported := [] }

/-- A client whose device was just plugged: no mode and no cursor yet. -/
def start (bare : Frame) : Composing where
  cur := { grabbuf := bare }
  bare := bare

/-- The first grab after a mode change reports the whole frame. -/
def Kernel (s : Composing) : CursorEvent → Prop
  | .grab _ rects => s.fresh = true → s.cur.grabRegistered = true →
      ∀ x y, (Rect.full s.cur.width s.cur.height).Mem x y → ∃ r ∈ rects, r.Mem x y
  | _ => True

end Composing

/-! ## Lifting and drawing -/

namespace EvdiCursor

variable {c : EvdiCursor} {bare : Frame}

/-- The image covers the cursor: rows of `cur_stride` pixels, `cur_h` of them. -/
structure ImageOk (c : EvdiCursor) : Prop where
  pos : 0 < c.curW ∧ 0 < c.curH
  row : c.curW ≤ c.curStride
  rows : c.curH * c.curStride ≤ c.curPix.length

/-- The picture is the bare desktop, with the cursor over it if it is drawn, and what it covers
is saved. -/
structure Composed (c : EvdiCursor) (bare : Frame) : Prop where
  image : c.curOn = true → c.ImageOk
  drawn : c.curDrawn = true → c.cursorRect = some c.curRect ∧
    c.grabbuf = overlay bare c.curRect c.blend ∧
    ∀ x y, c.curRect.Mem x y → c.curUnder (c.curRect.offset x y) = bare x y
  clear : c.curDrawn = false → c.grabbuf = bare

lemma cursorRect_spec {r : Rect} (h : c.cursorRect = some r) :
    c.curOn = true ∧ c.bufs = true ∧ c.modeValid = true ∧ r =
      ⟨max c.curX 0, max c.curY 0, min (c.curX + c.curW) c.width,
        min (c.curY + c.curH) c.height⟩ ∧ r.x1 < r.x2 ∧ r.y1 < r.y2 := by
  unfold cursorRect at h
  split at h
  · cases h
  rename_i hon
  rw [not_or, not_or, Bool.not_eq_false, Bool.not_eq_false, Bool.not_eq_false] at hon
  obtain ⟨hon, hbufs, hmode⟩ := hon
  dsimp only at h
  split at h
  · rename_i hr
    obtain rfl := Option.some.inj h
    exact ⟨hon, hbufs, hmode, rfl, hr⟩
  · cases h

/-- The rectangle lies on the screen. -/
lemma mem_full_of_cursorRect {r : Rect} (h : c.cursorRect = some r) {x y : ℤ} (hm : r.Mem x y) :
    (Rect.full c.width c.height).Mem x y := by
  obtain ⟨-, -, -, rfl, -⟩ := cursorRect_spec h
  obtain ⟨h₁, h₂, h₃, h₄⟩ := hm
  dsimp only at h₁ h₂ h₃ h₄
  exact Rect.mem_full.mpr (by omega)

/-- The fields a lift or a draw leaves alone. -/
structure SameCursor (c c' : EvdiCursor) : Prop where
  rest : c' = { c with
    grabbuf := c'.grabbuf, curDrawn := c'.curDrawn, curRect := c'.curRect,
    curUnder := c'.curUnder, curUnderSize := c'.curUnderSize }

lemma sameCursor_lift (c : EvdiCursor) : c.SameCursor c.cursorLift.1 := by
  unfold cursorLift
  split
  · exact ⟨rfl⟩
  split
  · exact ⟨rfl⟩
  · exact ⟨rfl⟩

lemma sameCursor_draw (c : EvdiCursor) : c.SameCursor c.cursorDraw.1 := by
  unfold cursorDraw
  split
  · exact ⟨rfl⟩
  split
  · exact ⟨rfl⟩
  · exact ⟨rfl⟩

/-- **Lifting restores the bare desktop.** -/
lemma Composed.lift (h : c.Composed bare) : c.cursorLift.1.Composed bare ∧
    c.cursorLift.1.curDrawn = false ∧ c.cursorLift.1.grabbuf = bare ∧
    (c.cursorLift.2 = if c.curDrawn then some c.curRect else none) := by
  unfold cursorLift
  by_cases hd : c.curDrawn = true
  · obtain ⟨hrect, hgrab, hunder⟩ := h.drawn hd
    obtain ⟨-, hbufs, -⟩ := cursorRect_spec hrect
    have hback : restore c.grabbuf c.curRect c.curUnder = bare := by
      rw [hgrab]
      exact restore_overlay hunder
    rw [if_neg (by simp [hd]), if_neg (by simp [hbufs])]
    refine ⟨⟨fun hon => ?_, fun h => Bool.noConfusion h, fun _ => hback⟩, rfl, hback, ?_⟩
    · obtain ⟨hp, hr, hrs⟩ := h.image hon
      exact ⟨hp, hr, hrs⟩
    · simp [hd]
  · rw [Bool.not_eq_true] at hd
    rw [if_pos hd]
    exact ⟨h, hd, h.clear hd, by simp [hd]⟩

/-- Drawing on the bare desktop composes, wherever the cursor shows. -/
lemma Composed.draw (h : c.Composed bare) (hd : c.curDrawn = false) :
    c.cursorDraw.1.Composed bare ∧ c.cursorDraw.2 = c.cursorRect ∧
      (c.cursorDraw.1.curDrawn = c.cursorRect.isSome) := by
  have hgrab := h.clear hd
  unfold cursorDraw
  rw [if_neg (by simp [hd])]
  split <;> rename_i hr
  · exact ⟨h, hr.symm, by rw [hd, hr]; rfl⟩
  · rename_i r
    refine ⟨⟨fun hon => ?_, fun _ => ⟨?_, ?_, ?_⟩, fun h => Bool.noConfusion h⟩, hr.symm,
      by rw [hr]; rfl⟩
    · obtain ⟨hp, hrow, hrs⟩ := h.image hon
      exact ⟨hp, hrow, hrs⟩
    · exact hr
    · dsimp only
      rw [hgrab]
      rfl
    · intro x y hm
      dsimp only at hm ⊢
      rw [save_offset _ _ hm, hgrab]

lemma SameCursor.trans {c' c'' : EvdiCursor} (h : c.SameCursor c') (h' : c'.SameCursor c'') :
    c.SameCursor c'' := by
  refine ⟨?_⟩
  rw [h'.rest, h.rest]

/-- The client behind the cursor is the same. -/
structure SameClient (c c' : EvdiCursor) : Prop where
  bufs : c'.bufs = c.bufs
  valid : c'.modeValid = c.modeValid
  registered : c'.grabRegistered = c.grabRegistered
  fd : c'.fd = c.fd
  streaming : c'.streaming = c.streaming
  lost : c'.lost = c.lost

lemma SameClient.trans {c' c'' : EvdiCursor} (h : c.SameClient c') (h' : c'.SameClient c'') :
    c.SameClient c'' where
  bufs := h'.bufs.trans h.bufs
  valid := h'.valid.trans h.valid
  registered := h'.registered.trans h.registered
  fd := h'.fd.trans h.fd
  streaming := h'.streaming.trans h.streaming
  lost := h'.lost.trans h.lost

lemma SameCursor.sameClient {c' : EvdiCursor} (h : c.SameCursor c') : c.SameClient c' := by
  rw [h.rest]
  exact ⟨rfl, rfl, rfl, rfl, rfl, rfl⟩

lemma SameCursor.cursorRect {c' : EvdiCursor} (h : c.SameCursor c') :
    c'.cursorRect = c.cursorRect := by
  rw [h.rest]
  rfl

lemma SameCursor.blend {c' : EvdiCursor} (h : c.SameCursor c') : c'.blend = c.blend := by
  rw [h.rest]
  rfl

/-- The picture differs from the bare desktop only under the cursor. -/
lemma Composed.mem_of_ne (h : c.Composed bare) {x y : ℤ} (hne : c.grabbuf x y ≠ bare x y) :
    c.curDrawn = true ∧ c.curRect.Mem x y := by
  by_cases hd : c.curDrawn = true
  · refine ⟨hd, ?_⟩
    by_contra hm
    rw [(h.drawn hd).2.1, overlay_of_not_mem hm] at hne
    exact hne rfl
  · rw [h.clear (by simpa using hd)] at hne
    exact absurd rfl hne

/-- The client takes damage. -/
def Live (c : EvdiCursor) : Prop :=
  c.grabRegistered = true ∧ c.fd = true ∧ c.streaming = true ∧ c.lost = false

/-- `cursor_repaint` after a lift: the cursor is drawn wherever it shows, and a live client is
told of the old and the new place. -/
lemma Composed.repaint (h : c.Composed bare) (hd : c.curDrawn = false) (old : Option Rect) :
    (c.cursorRepaint old).1 = c.cursorDraw.1 ∧
      (c.Live → (c.cursorRepaint old).2 = old.toList ++ c.cursorRect.toList) := by
  obtain ⟨-, hnew, -⟩ := h.draw hd
  have hs := sameCursor_draw c
  unfold cursorRepaint
  constructor
  · dsimp only
    split
    · rfl
    · rfl
  · rintro ⟨hreg, hfd, hstream, hlost⟩
    dsimp only
    rw [if_neg, hnew]
    rw [hs.rest]
    simp [hreg, hfd, hstream, hlost]

/-- A cursor event: the cursor was lifted to `c₁`, changed to `c₂`, and put back. -/
lemma Composed.change (h : c.Composed bare) {c₂ : EvdiCursor}
    (h₂ : c₂.Composed bare) (hd₂ : c₂.curDrawn = false) :
    let r := c₂.cursorRepaint c.cursorLift.2
    r.1.Composed bare ∧ (r.1.curDrawn = false → r.1.cursorRect = none) ∧ c₂.SameCursor r.1 ∧
      (c₂.Live → ∀ x y, r.1.grabbuf x y ≠ c.grabbuf x y → ∃ q ∈ r.2, q.Mem x y) := by
  intro r
  obtain ⟨hr, hrep⟩ := h₂.repaint hd₂ c.cursorLift.2
  obtain ⟨hc, -, hdrawn⟩ := h₂.draw hd₂
  have hs := sameCursor_draw c₂
  rw [← hr] at hc hdrawn hs
  refine ⟨hc, fun hnd => ?_, hs, fun hlive x y hne => ?_⟩
  · rw [hs.cursorRect]
    rw [hdrawn] at hnd
    simpa using hnd
  · rw [hrep hlive]
    by_cases hold : c.grabbuf x y = bare x y
    · -- the pixel is under the new place
      obtain ⟨hd, hm⟩ := hc.mem_of_ne (x := x) (y := y) fun he => hne (he.trans hold.symm)
      have hrect := (hc.drawn hd).1
      rw [hs.cursorRect] at hrect
      refine ⟨_, List.mem_append_right _ ?_, hm⟩
      rw [hrect]
      exact List.mem_singleton.mpr rfl
    · obtain ⟨hd, hm⟩ := h.mem_of_ne hold
      refine ⟨_, List.mem_append_left _ ?_, hm⟩
      rw [h.lift.2.2.2, if_pos hd]
      exact List.mem_singleton.mpr rfl

/-- `grab_and_send` of a registered buffer: the cursor is back over the fresh desktop, and a pixel
that no rectangle holds is as before, unless this is the first grab of a mode. -/
lemma Composed.grab (h : c.Composed bare) (hreg : c.grabRegistered = true) (desk : Frame)
    (rects : List Rect) :
    let r := c.grabAndSend desk rects
    r.1.Composed (rewrite bare desk rects) ∧ c.SameCursor r.1 ∧
      (r.1.curDrawn = c.cursorRect.isSome) ∧
      (c.fd = true → c.streaming = true → r.2 = rects) := by
  obtain ⟨hl, hd, hbare, -⟩ := h.lift
  have hsl := sameCursor_lift c
  set c₁ := c.cursorLift.1 with hc₁
  set c₂ : EvdiCursor := { c₁ with grabbuf := rewrite c₁.grabbuf desk rects } with hc₂
  have h₂ : c₂.Composed (rewrite bare desk rects) := by
    refine ⟨fun hon => ?_, fun h => ?_, fun _ => ?_⟩
    · obtain ⟨hp, hrow, hrows⟩ := hl.image hon
      exact ⟨hp, hrow, hrows⟩
    · simp [hc₂, hd] at h
    · rw [hc₂, hbare]
  have hs₂ : c.SameCursor c₂ := hsl.trans ⟨rfl⟩
  obtain ⟨h₃, -, hdrawn⟩ := h₂.draw hd
  have hs₃ := hs₂.trans (sameCursor_draw c₂)
  rw [hs₂.cursorRect] at hdrawn
  obtain ⟨-, -, -, hfd, hst, -⟩ := hs₃.sameClient
  intro r
  have hr : r = if c₂.cursorDraw.1.fd = false ∨ c₂.cursorDraw.1.streaming = false then
      (c₂.cursorDraw.1, []) else (c₂.cursorDraw.1, rects) := by
    change c.grabAndSend desk rects = _
    unfold grabAndSend
    rw [if_neg (by simp [hreg])]
  have hr₁ : r.1 = c₂.cursorDraw.1 := by
    rw [hr]
    split
    · rfl
    · rfl
  rw [hr₁]
  refine ⟨h₃, hs₃, hdrawn, fun hfd' hst' => ?_⟩
  rw [hr, if_neg]
  rw [hfd, hst, hfd', hst']
  decide

/-- An image that `on_cursor_set` takes covers its cursor. -/
lemma imageOk_of_accepts {cs : CursorSet} {pix : List UInt32} (h : accepts cs = some pix) :
    0 < cs.width ∧ 0 < cs.height ∧ cs.width ≤ cs.stride / 4 ∧
      cs.height * (cs.stride / 4) ≤ pix.length := by
  unfold accepts at h
  split at h
  · rename_i hc
    obtain ⟨-, hw, hh, -, -, hrow, hmod, hlen⟩ := hc
    refine ⟨hw, hh, by omega, ?_⟩
    rw [cs.words pix h]
    have hs : cs.stride = 4 * (cs.stride / 4) := by omega
    rw [hs, Nat.mul_assoc, Nat.mul_comm (cs.stride / 4)] at hlen
    omega
  · cases h

/-- `on_cursor_set` replaces the image of a lifted cursor. -/
lemma Composed.set (h : c.Composed bare) (hd : c.curDrawn = false) (cs : CursorSet) :
    let c₂ := match accepts cs with
      | some pix => { c with
          curPix := pix
          curW := cs.width
          curH := cs.height
          curStride := (cs.stride / 4 : ℕ)
          curOn := true }
      | none => { c with curPix := [], curOn := false }
    c₂.Composed bare ∧ c₂.curDrawn = false ∧ c.SameClient c₂ := by
  have hnd : ∀ {p : Prop}, c.curDrawn = true → p := fun h => by simp [hd] at h
  split <;> rename_i hacc
  · obtain ⟨hw, hh, hrow, hrows⟩ := imageOk_of_accepts hacc
    refine ⟨⟨fun _ => ⟨⟨?_, ?_⟩, ?_, ?_⟩, fun h => hnd h, fun _ => h.clear hd⟩, hd, rfl, rfl, rfl, rfl,
      rfl, rfl⟩
    · exact Int.natCast_pos.mpr hw
    · exact Int.natCast_pos.mpr hh
    · exact Int.ofNat_le.mpr hrow
    · have hcast := Int.ofNat_le.mpr hrows
      push_cast at hcast
      exact hcast
  · exact ⟨⟨fun h => Bool.noConfusion h, fun h => hnd h, fun _ => h.clear hd⟩, hd, rfl, rfl, rfl, rfl,
      rfl, rfl⟩

end EvdiCursor

/-! ## Runs -/

namespace Composing

open EvdiCursor

variable {s : Composing}

/-- **The invariant.**  The picture is composed; a client with a mode has its buffer registered
and streams; and a cursor that shows is drawn, up to the first grab of a mode. -/
structure Good (s : Composing) : Prop where
  composed : s.cur.Composed s.bare
  registered : s.cur.grabRegistered = s.cur.bufs
  valid : s.cur.modeValid = s.cur.bufs
  connected : s.cur.fd = true
  stream : s.cur.bufs = true → s.cur.streaming = true
  placed : s.cur.curDrawn = false → s.fresh = false → s.cur.cursorRect = none

/-- Every pixel of the picture that changes in an event lies in a rectangle it reports. -/
def Reports (s : Composing) (ev : CursorEvent) : Prop :=
  ∀ x y, (s.step ev).cur.grabbuf x y ≠ s.cur.grabbuf x y →
    ∃ r ∈ (s.step ev).reported, r.Mem x y

/-- A cursor event: `c₂` is the lifted cursor, changed. -/
lemma Good.change (hg : s.Good) {c₂ : EvdiCursor} (h₂ : c₂.Composed s.bare)
    (hd₂ : c₂.curDrawn = false) (hsame₂ : s.cur.SameClient c₂) :
    let r := c₂.cursorRepaint s.cur.cursorLift.2
    Good { s with cur := r.1, reported := r.2 } ∧ (s.cur.lost = false →
      ∀ x y, r.1.grabbuf x y ≠ s.cur.grabbuf x y → ∃ q ∈ r.2, q.Mem x y) := by
  intro r
  obtain ⟨hc, hplaced, hsame, hrep⟩ := hg.composed.change h₂ hd₂
  obtain ⟨hb, hv, hr, hfd, hst, -⟩ := hsame₂.trans hsame.sameClient
  refine ⟨⟨hc, ?_, ?_, hfd.trans hg.connected, ?_, fun hnd _ => hplaced hnd⟩, fun hlost x y hne => ?_⟩
  · exact hr.trans (hg.registered.trans hb.symm)
  · exact hv.trans (hg.valid.trans hb.symm)
  · intro hbufs
    exact hst.trans (hg.stream (hb.symm.trans hbufs))
  · by_cases hbufs : s.cur.bufs = true
    · refine hrep ⟨?_, hsame₂.fd.trans hg.connected, ?_, hsame₂.lost.trans hlost⟩ x y hne
      · rw [hsame₂.registered, hg.registered, hbufs]
      · rw [hsame₂.streaming, hg.stream hbufs]
    · -- without a buffer there is no cursor on the screen, before or after
      have hnone : ∀ {d : EvdiCursor}, d.bufs = s.cur.bufs → d.Composed s.bare →
          d.grabbuf = s.bare := by
        intro d hdb hdc
        funext px py
        by_contra hp
        obtain ⟨hdd, -⟩ := hdc.mem_of_ne hp
        obtain ⟨-, hdb', -⟩ := cursorRect_spec (hdc.drawn hdd).1
        exact hbufs (hdb.symm.trans hdb')
      have hsame' : r.1.grabbuf = s.cur.grabbuf :=
        (hnone hb hc).trans (hnone rfl hg.composed).symm
      exact absurd (congrFun (congrFun hsame' x) y) hne

lemma Good.set (hg : s.Good) (cs : CursorSet) :
    (s.step (.set cs)).Good ∧ (s.cur.lost = false → Reports s (.set cs)) := by
  obtain ⟨hl, hd, -, -⟩ := hg.composed.lift
  obtain ⟨h₂, hd₂, hsame⟩ := hl.set hd cs
  exact hg.change h₂ hd₂ ((sameCursor_lift s.cur).sameClient.trans hsame)

lemma Good.move (hg : s.Good) (x y : ℤ) :
    (s.step (.move x y)).Good ∧ (s.cur.lost = false → Reports s (.move x y)) := by
  obtain ⟨hl, hd, hbare, -⟩ := hg.composed.lift
  have h₂ : Composed { s.cur.cursorLift.1 with curX := x, curY := y } s.bare := by
    refine ⟨fun hon => ?_, fun h => ?_, fun _ => hbare⟩
    · obtain ⟨hp, hrow, hrows⟩ := hl.image hon
      exact ⟨hp, hrow, hrows⟩
    · simp [hd] at h
  refine hg.change h₂ hd ((sameCursor_lift s.cur).sameClient.trans ?_)
  exact ⟨rfl, rfl, rfl, rfl, rfl, rfl⟩

/-- A grab with a registered buffer. -/
lemma Good.grab_registered (hg : s.Good) (hreg : s.cur.grabRegistered = true) {desk : Frame}
    {rects : List Rect} (hk : Kernel s (.grab desk rects)) :
    (s.step (.grab desk rects)).Good ∧ Reports s (.grab desk rects) := by
  obtain ⟨hc, hs, hdrawn, hrep⟩ := hg.composed.grab hreg desk rects
  have hbufs : s.cur.bufs = true := hg.registered.symm.trans hreg
  obtain ⟨hb, hv, hr, hfd, hst, -⟩ := hs.sameClient
  have hbare : (s.step (.grab desk rects)).bare = rewrite s.bare desk rects := if_pos hreg
  refine ⟨⟨?_, ?_, ?_, hfd.trans hg.connected, ?_, fun hnd _ => ?_⟩, fun x y hne => ?_⟩
  · rw [hbare]
    exact hc
  · exact hr.trans (hg.registered.trans hb.symm)
  · exact hv.trans (hg.valid.trans hb.symm)
  · intro _
    exact hst.trans (hg.stream hbufs)
  · have hnone : s.cur.cursorRect.isSome = false := hdrawn.symm.trans hnd
    exact hs.cursorRect.trans (by simpa using hnone)
  · have hrects : (s.step (.grab desk rects)).reported = rects := hrep hg.connected (hg.stream hbufs)
    rw [hrects]
    by_contra hout
    have hkept : rewrite s.bare desk rects x y = s.bare x y := rewrite_of_not_mem hout
    change (s.cur.grabAndSend desk rects).1.grabbuf x y ≠ s.cur.grabbuf x y at hne
    by_cases hd : s.cur.curDrawn = true
    · -- the cursor goes back where it was, over the same pixel
      obtain ⟨hrect, hgrab, -⟩ := hg.composed.drawn hd
      have hd' : (s.cur.grabAndSend desk rects).1.curDrawn = true := by
        rw [hdrawn, hrect]
        rfl
      obtain ⟨hrect', hgrab', -⟩ := hc.drawn hd'
      rw [hs.cursorRect, hrect] at hrect'
      rw [hgrab', hgrab, ← Option.some.inj hrect', hs.blend, overlay, overlay, hkept] at hne
      exact hne rfl
    · -- it was not on the screen: the first grab of a mode reports the whole of it
      rw [Bool.not_eq_true] at hd
      rw [hg.composed.clear hd, ← hkept] at hne
      obtain ⟨hd', hm⟩ := hc.mem_of_ne hne
      have hrect := (hc.drawn hd').1
      rw [hs.cursorRect] at hrect
      have hfresh : s.fresh = true := by
        by_contra hf
        rw [hg.placed hd (by simpa using hf)] at hrect
        cases hrect
      exact hout (hk hfresh hreg x y (mem_full_of_cursorRect hrect hm))

lemma Good.grab (hg : s.Good) {desk : Frame} {rects : List Rect}
    (hk : Kernel s (.grab desk rects)) :
    (s.step (.grab desk rects)).Good ∧ Reports s (.grab desk rects) := by
  by_cases hreg : s.cur.grabRegistered = true
  · exact hg.grab_registered hreg hk
  · rw [Bool.not_eq_true] at hreg
    have hcur : (s.step (.grab desk rects)).cur = s.cur := by
      simp only [step, EvdiCursor.grabAndSend, if_pos hreg]
    have hbare : (s.step (.grab desk rects)).bare = s.bare := if_neg (by simp [hreg])
    have hfresh : (s.step (.grab desk rects)).fresh = s.fresh := by
      simp only [step, hreg, Bool.not_false, Bool.and_true]
    constructor
    · obtain ⟨hc, hr, hv, ho, hst, hp⟩ := hg
      rw [← hcur, ← hbare] at hc
      rw [← hcur] at hr hv ho hst hp
      rw [← hfresh] at hp
      exact ⟨hc, hr, hv, ho, hst, hp⟩
    · intro x y hne
      rw [hcur] at hne
      exact absurd rfl hne

lemma Good.modeChanged (hg : s.Good) (w h : ℤ) (grab : Frame) :
    (s.step (.modeChanged w h grab)).Good := by
  simp only [step]
  split <;> rename_i hsize
  · obtain ⟨hc, hr, hv, ho, hst, hp⟩ := hg
    exact ⟨hc, hr, hv, ho, hst, hp⟩
  · have himage := hg.composed.image
    unfold EvdiCursor.modeChanged
    rw [if_neg hsize]
    refine ⟨⟨fun hon => ?_, fun h => Bool.noConfusion h, fun _ => rfl⟩, rfl, rfl, hg.connected, ?_,
      fun _ h => Bool.noConfusion h⟩
    · obtain ⟨hp, hrow, hrows⟩ := himage hon
      exact ⟨hp, hrow, hrows⟩
    · intro _
      dsimp only
      rw [hg.connected, Bool.or_true]

lemma Good.xmitFail (hg : s.Good) : (s.step .xmitFail).Good := by
  obtain ⟨⟨himage, hdrawn, hclear⟩, hr, hv, ho, hst, hp⟩ := hg
  refine ⟨⟨fun hon => ?_, hdrawn, hclear⟩, hr, hv, ho, hst, hp⟩
  obtain ⟨hpos, hrow, hrows⟩ := himage hon
  exact ⟨hpos, hrow, hrows⟩

/-- One event. -/
lemma Good.step (hg : s.Good) {ev : CursorEvent} (hk : Kernel s ev) : (s.step ev).Good := by
  cases ev with
  | grab desk rects => exact (hg.grab hk).1
  | set cs => exact (hg.set cs).1
  | move x y => exact (hg.move x y).1
  | modeChanged w h grab => exact hg.modeChanged w h grab
  | xmitFail => exact hg.xmitFail

end Composing

end Sremfb
