import Sremfb.Protocol
import Sremfb.Lib.Raster

/-!
# Where the SBC client's rows go (`output_fb.c`, `output_drm.c`)

A backend writes rows, already clipped to the panel, into its current target.  The framebuffer
has one buffer.  DRM has two: a batch that rewrites the whole stream goes to the back buffer and
`present` flips; any other batch is written in place.

How a flip ends is up to the driver (`Flip`).  When the page flip and the modeset are both
refused, the batch stays in the back buffer and the next one is written in place.
-/

namespace Sremfb

open Lib

/-- A pixel buffer, by byte offset. -/
abbrev Buf := ℕ → UInt8

/-- The panel behind an output: its geometry and format, and the line length of its buffers. -/
structure Panel where
  w : ℕ
  h : ℕ
  pixfmt : PixFmt
  stride : ℕ
  /-- A line holds the pixels of a row. -/
  line : w * pixfmt.bytespp ≤ stride

/-- What the driver does with `drmModePageFlip`, and with `drmModeSetCrtc` when it refuses. -/
inductive Flip
  | landed
  /-- The flip was queued, but its event never came. -/
  | eventLost
  /-- No flip, but a modeset to the new buffer. -/
  | modeset
  | refused
  deriving DecidableEq, Repr

/-- The state of `output_drm.c`; the buffers are indexed by `0` and `1`. -/
structure Drm where
  buf : Bool → Buf
  front : Bool := false
  target : Bool := false
  noFlip : Bool := false
  /-- The connector has a DPMS property. -/
  dpmsProp : Bool := true

/-- The two backends. -/
inductive Output
  | fb (mem : Buf)
  | drm (d : Drm)

/-- What the display answers during one message. -/
structure Display where
  flip : Flip := .landed
  /-- `FBIOBLANK` is supported. -/
  fbBlank : Bool := true

namespace Output

/-- `begin`: full batches of DRM target the back buffer. -/
def beginBatch (full : Bool) : Output → Output
  | .fb mem => .fb mem
  | .drm d => .drm { d with target := if full && !d.noFlip then !d.front else d.front }

/-- `write_row`: `npix` pixels at `(dx, dy)` of the panel. -/
def writeRow (p : Panel) (dx dy : ℕ) (src : List UInt8) (npix : ℕ) : Output → Output
  | .fb mem =>
      .fb (blit mem (dy * p.stride + dx * p.pixfmt.bytespp) (src.take (npix * p.pixfmt.bytespp)))
  | .drm d => .drm { d with
      buf := Function.update d.buf d.target (blit (d.buf d.target)
        (dy * p.stride + dx * p.pixfmt.bytespp) (src.take (npix * p.pixfmt.bytespp))) }

/-- `present`. -/
def present (r : Flip) : Output → Output
  | .fb mem => .fb mem
  | .drm d =>
      if d.target = d.front then .drm d
      else
        match r with
        | .landed => .drm { d with front := d.target }
        | .eventLost => .drm { d with noFlip := true, front := d.target }
        | .modeset => .drm { d with front := d.target }
        | .refused => .drm { d with noFlip := true, target := d.front }

/-- `blank`: panel power, or black pixels where there is no such control. -/
def blank (disp : Display) (on : Bool) : Output → Output
  | .fb mem => if disp.fbBlank then .fb mem else if on then .fb (fun _ => 0) else .fb mem
  | .drm d =>
      if d.dpmsProp then .drm d
      else if on then .drm { d with buf := Function.update d.buf d.front (fun _ => 0) }
      else .drm d

/-- The buffer on the panel. -/
def visible : Output → Buf
  | .fb mem => mem
  | .drm d => d.buf d.front

/-- The buffer rows are written to. -/
def written : Output → Buf
  | .fb mem => mem
  | .drm d => d.buf d.target

lemma written_writeRow (p : Panel) (dx dy : ℕ) (src : List UInt8) (npix : ℕ) (o : Output) :
    (o.writeRow p dx dy src npix).written =
      blit o.written (dy * p.stride + dx * p.pixfmt.bytespp)
        (src.take (npix * p.pixfmt.bytespp)) := by
  cases o with
  | fb mem => rfl
  | drm d => simp [writeRow, written]

/-- A batch that is not full is written where it is seen. -/
lemma written_beginBatch_false (o : Output) : (o.beginBatch false).written = o.visible := by
  cases o with
  | fb mem => rfl
  | drm d => simp [beginBatch, written, visible]

/-- Unless the driver refuses both ways to show the new buffer, what was written is seen. -/
lemma visible_present {o : Output} {r : Flip} (h : r ≠ .refused) :
    (o.present r).visible = o.written := by
  cases o with
  | fb mem => rfl
  | drm d =>
      by_cases ht : d.target = d.front
      · simp [present, visible, written, ht]
      · cases r with
        | refused => exact absurd rfl h
        | landed | eventLost | modeset => simp [present, ht, visible, written]

/-- Switching the panel on writes nothing. -/
lemma visible_unblank (disp : Display) (o : Output) : (o.blank disp false).visible = o.visible := by
  cases o with
  | fb mem => simp [blank]
  | drm d => simp [blank]

end Output

end Sremfb
