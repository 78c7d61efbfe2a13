import Sremfb.Lib.Doorbell
import Sremfb.View.Mailbox

/-!
# Waking the window (`view/sremfb-view.c`, `view/net.c`)

The network thread changes the shared framebuffer under the lock and then calls `wake_main`, which
posts at most one event to the queue of SDL; the main thread sleeps on that queue, and on an event
lowers `wake_pending` and pulls in `refresh`.  The two are a doorbell: what is shared is a
`ViewMain`, a section of the network thread is a `Section`, the locked part of `refresh` with what
follows it is `pull`, and `refresh (0)` presents once more what was pulled before.

A rectangle is drawn long before it is published, so any sections may come before a ring; that
`stream_loop` never waits with one unpublished is `ViewConn.never_waits_unpublished`.  The statistics,
the dump of frames and the probe are left out.
-/

namespace Sremfb

open Lib

/-- The shared framebuffer, what the main thread copies from it (`D`), and what is on the screen. -/
structure ViewMain where
  window : ViewWindow := {}
  /-- `FB.input`. -/
  input : Bool := false
  dConnected : Bool := false
  dBlanked : Bool := false
  dInput : Bool := false
  /-- The frame that was presented last: the texture, or black. -/
  frame : Option ViewTexture := none

namespace ViewMain

/-- The locked sections of the network thread after which it rings, at once or with the batch. -/
inductive Section
  /-- `fb_set_stream` at the start of `stream_loop`. -/
  | connect (h264Broken : Bool) (sh : ServerHello)
  /-- `fb_set_stream` at its end. -/
  | disconnect
  | putRect (now : ℕ) (hd : FrameHdr) (raw : List UInt8)
  | picture (now : ℕ) (p : Picture)
  /-- BLANK or UNBLANK. -/
  | blank (on : Bool)
  | publish

/-- A section of the network thread. -/
def change (view : View) (s : ViewMain) : Section → ViewMain
  | .connect h264Broken sh =>
      match view.helloExchange h264Broken sh with
      | none => s
      | some _ => { s with
          window := s.window.step view (.connect h264Broken sh)
          input := decide (sh.flags &&& srvFlagInput ≠ 0) }
  | .disconnect => { s with window := s.window.step view .disconnect, input := false }
  | .putRect now hd raw => { s with window := s.window.step view (.putRect now hd raw) }
  | .picture now p => { s with window := s.window.step view (.picture now p) }
  | .blank on =>
      match s.window.stream with
      | none => s
      | some _ => { s with window := { s.window with fb := { s.window.fb with blanked := on } } }
  | .publish =>
      match s.window.stream with
      | none => s
      | some _ => { s with window := { s.window with
          fb := { s.window.fb with batches := s.window.fb.batches + 1 } } }

/-- What `refresh` does without the lock: render and present. -/
def present (s : ViewMain) : ViewMain :=
  { s with frame := if s.dConnected && !s.dBlanked then s.window.tex else none }

/-- `refresh (1)` from the lock on. -/
def pull (s : ViewMain) (junk : Image) : ViewMain :=
  { s with
    window := s.window.refresh junk true
    dConnected := s.window.stream.isSome
    dBlanked := s.window.fb.blanked
    dInput := s.input }.present

/-- The steps of the two threads. -/
abbrev Act := Doorbell.Act Section Image Unit

/-- The count of the streams does not come round while the window looks away. -/
def Counts (s : ViewMain) : Section → Prop
  | .connect _ _ | .disconnect => s.window.missed + 1 < 2 ^ 32
  | .putRect _ _ _ | .picture _ _ | .blank _ | .publish => True

variable {s : ViewMain}

end ViewMain

end Sremfb
