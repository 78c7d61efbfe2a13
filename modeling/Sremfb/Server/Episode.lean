import Sremfb.Lib.Trace
import Sremfb.Server.Framing

/-!
# The grammar of H.264 episodes

A client's messages alternate between RAW phases and H.264 episodes.  An episode is opened by a
switch to H.264 and closed by an EOS.  The EOS travels in the control queue and frames outside
it, and switches fire from inside builds and deliveries; what makes the order come out right is
that a frame is only built when the queue is drained.

The four rules are stated over the log with the operators of `Lib.Trace`:

* a rectangle never follows an access unit without an EOS between them;
* an access unit or an EOS comes in an episode that was opened and not closed;
* the first access unit after a switch was encoded with `force_idr`;
* the first frame after an EOS repaints everything: a snapshot, or a forced access unit.

The first holds of a client that is not scheduled for loss.  For one that is, `sremfb_xmit_ctrl`
drops every message, the EOS included, while the write watch may still be armed: a snapshot then
follows the access units directly (`rect_in_episode_of_lost_client`).
-/

namespace Sremfb

open Lib Relation

variable {D : Type}

namespace Sent

def isOpened : Sent → Bool
  | .opened _ => true
  | _ => false

def isRect : Sent → Bool
  | .rect .. => true
  | _ => false

def isAu : Sent → Bool
  | .au .. => true
  | _ => false

def isEos (s : Sent) : Bool := decide (s = .ctrl eosMsg)

/-- The encoder was told to force an IDR. -/
def isForced : Sent → Bool
  | .au _ _ forced => forced
  | _ => false

/-- A snapshot of the whole frame, or a forced access unit. -/
def Repaints (env : Env) (neg : Negotiated) (w h : ℕ) (s : Sent) : Prop :=
  (∃ f, s = .rect (rectMessage env neg f (Rect.full w h)).1
    (rectMessage env neg f (Rect.full w h)).2) ∨ s.isForced = true

/-- Neither a frame nor a switch nor an EOS. -/
structure Neutral (s : Sent) : Prop where
  opened : s.isOpened = false
  frame : s.isFrame = false
  rect : s.isRect = false
  au : s.isAu = false
  eos : s.isEos = false

lemma neutral_ctrl {m : List UInt8} (h : m ≠ eosMsg) : Neutral (.ctrl m) :=
  ⟨rfl, rfl, rfl, rfl, by simp [isEos, h]⟩

end Sent

/-! ## The rules -/

/-- No rectangle between an access unit and the next EOS. -/
def NoRectInEpisode (l : List Sent) : Prop :=
  Always (fun past x => x.isRect = true → Since Sent.isAu Sent.isEos past = false) l

/-- An access unit or an EOS comes in an episode that was opened and not closed. -/
def InOpenEpisode (l : List Sent) : Prop :=
  Always (fun past x => x.isAu = true ∨ x.isEos = true →
    Since Sent.isOpened Sent.isEos past = true) l

/-- The first access unit of an episode is forced. -/
def FirstForced (l : List Sent) : Prop :=
  Always (fun past x => x.isAu = true → Since Sent.isOpened Sent.isAu past = true →
    x.isForced = true) l

/-- The first frame after an EOS repaints everything. -/
def RepaintsAfterEos (env : Env) (neg : Negotiated) (w h : ℕ) (l : List Sent) : Prop :=
  Always (fun past x => x.isFrame = true → Since Sent.isEos Sent.isFrame past = true →
    x.Repaints env neg w h) l

/-- The four rules; the first one for a client that is not given up. -/
structure Grammar (env : Env) (neg : Negotiated) (w h : ℕ) (lost : Bool) (l : List Sent) :
    Prop where
  noRect : lost = false → NoRectInEpisode l
  inOpen : InOpenEpisode l
  firstForced : FirstForced l
  repaints : RepaintsAfterEos env neg w h l

lemma Grammar.snoc {env : Env} {neg : Negotiated} {w h : ℕ} {lost : Bool} {l : List Sent}
    (hg : Grammar env neg w h lost l) {x : Sent}
    (hrect : lost = false → x.isRect = true → Since Sent.isAu Sent.isEos l = false)
    (hopen : x.isAu = true ∨ x.isEos = true → Since Sent.isOpened Sent.isEos l = true)
    (hau : x.isAu = true → Since Sent.isOpened Sent.isAu l = true → x.isForced = true)
    (hframe : x.isFrame = true → Since Sent.isEos Sent.isFrame l = true →
      x.Repaints env neg w h) : Grammar env neg w h lost (l ++ [x]) where
  noRect hl := always_snoc.mpr ⟨hg.noRect hl, hrect hl⟩
  inOpen := always_snoc.mpr ⟨hg.inOpen, hopen⟩
  firstForced := always_snoc.mpr ⟨hg.firstForced, hau⟩
  repaints := always_snoc.mpr ⟨hg.repaints, hframe⟩

namespace Tx

/-- What the transmitter owes to the rules. -/
structure Owes (t : Tx) : Prop where
  /-- H.264 is only sent in an open episode. -/
  opened : t.xmitMode = .h264 → Since Sent.isOpened Sent.isEos t.log = true
  forced : t.xmitMode = .h264 → Since Sent.isOpened Sent.isAu t.log = true → t.forceIdr = true
  /-- The repaint after an EOS is pending. -/
  repaintRaw : t.xmitMode = .raw → Since Sent.isEos Sent.isFrame t.log = true →
    t.dirtyAll = true
  repaintH264 : t.xmitMode = .h264 → Since Sent.isEos Sent.isFrame t.log = true →
    t.forceIdr = true
  /-- RAW is only sent outside of episodes. -/
  closed : t.xmitMode = .raw → t.lost = false → Since Sent.isAu Sent.isEos t.log = false

/-- The invariant. -/
structure Episodic (env : Env) (w h : ℕ) (neg : Negotiated) (t : Tx) : Prop where
  grammar : Grammar env neg w h t.lost t.log
  owes : t.Owes
  width : t.width = w
  height : t.height = h
  fd : t.fd = true

variable {env : Env} {neg : Negotiated} {R : Rules} {t t' : Tx} {w h : ℕ}

lemma Episodic.of_sameStream (he : t.Episodic env w h neg) (hs : t.SameStream t')
    (hg : Grammar env neg w h t'.lost t'.log) (ho : t'.Owes) : t'.Episodic env w h neg :=
  ⟨hg, ho, hs.width.trans he.width, hs.height.trans he.height, hs.fd.trans he.fd⟩

lemma Owes.of_raw (hm : t.xmitMode = .raw)
    (hr : Since Sent.isEos Sent.isFrame t.log = true → t.dirtyAll = true)
    (hc : t.lost = false → Since Sent.isAu Sent.isEos t.log = false) : t.Owes :=
  ⟨fun h => absurd h (by simp [hm]), fun h => absurd h (by simp [hm]), fun _ => hr,
    fun h => absurd h (by simp [hm]), fun _ => hc⟩

lemma Owes.of_h264 (hm : t.xmitMode = .h264)
    (ho : Since Sent.isOpened Sent.isEos t.log = true)
    (hf : Since Sent.isOpened Sent.isAu t.log = true → t.forceIdr = true)
    (hr : Since Sent.isEos Sent.isFrame t.log = true → t.forceIdr = true) : t.Owes :=
  ⟨fun _ => ho, fun _ => hf, fun h => absurd h (by simp [hm]), fun _ => hr,
    fun h => absurd h (by simp [hm])⟩

/-! ## Actions keep the grammar -/

/-- Nothing is logged and nothing that is owed is forgotten. -/
lemma Episodic.still (he : t.Episodic env w h neg) (hs : t.SameStream t')
    (hlog : t'.log = t.log) (hm : t'.xmitMode = t.xmitMode) (hf : t'.forceIdr = t.forceIdr)
    (hd : t.dirtyAll = true → t'.dirtyAll = true) (hl : t'.lost = false → t.lost = false) :
    t'.Episodic env w h neg := by
  obtain ⟨hrect, heos, hau, hframe⟩ := he.grammar
  obtain ⟨h₁, h₂, h₃, h₄, h₅⟩ := he.owes
  refine he.of_sameStream hs ?_ ?_
  · rw [hlog]
    exact ⟨fun hlost => hrect (hl hlost), heos, hau, hframe⟩
  · constructor
    · rw [hlog, hm]
      exact h₁
    · rw [hlog, hm, hf]
      exact h₂
    · rw [hlog, hm]
      exact fun hraw ho => hd (h₃ hraw ho)
    · rw [hlog, hm, hf]
      exact h₄
    · rw [hlog, hm]
      exact fun hraw hlost => h₅ hraw (hl hlost)

/-- A message that is no EOS is queued. -/
lemma Episodic.ctrl (he : t.Episodic env w h neg) {m : List UInt8} (hne : m ≠ eosMsg)
    (n : ℕ) (watch : Bool) : Episodic env w h neg { t with
      outq := t.outq ++ [m], wireTotal := n, log := t.log ++ [.ctrl m], outWatch := watch } := by
  have hx := Sent.neutral_ctrl hne
  obtain ⟨h₁, h₂, h₃, h₄, h₅⟩ := he.owes
  refine he.of_sameStream ⟨rfl, rfl, rfl, rfl, rfl⟩ (he.grammar.snoc ?_ ?_ ?_ ?_) ?_
  · simp [hx.rect]
  · simp [hx.eos, hx.au]
  · simp [hx.au]
  · simp [hx.frame]
  · constructor
    · simpa [hx.opened, hx.eos] using h₁
    · simpa [hx.opened, hx.au] using h₂
    · simpa [hx.eos, hx.frame] using h₃
    · simpa [hx.eos, hx.frame] using h₄
    · simpa [hx.au, hx.eos] using h₅

/-- Leaving H.264: the EOS closes the episode and the snapshot is owed.  Only a client given up
gets no EOS. -/
lemma Episodic.leave {t₀ : Tx} (he : t.Episodic env w h neg) (hm : t.xmitMode = .h264)
    (hlog : t₀.log = t.log) (hlost : t₀.lost = t.lost) (hs : t.SameStream t₀) :
    t₀.leaveH264.Episodic env w h neg := by
  have hs' := hs.trans t₀.sameStream_leaveH264
  have hg : Grammar env neg w h t₀.lost t₀.log := by
    rw [hlost, hlog]
    exact he.grammar
  obtain ⟨hc, h⟩ | ⟨-, -, watch, h⟩ := t₀.leaveH264_cases
  · have hgone : t₀.lost = true := hc.resolve_left (by simp [hs.fd, he.fd])
    rw [h] at hs' ⊢
    exact he.of_sameStream hs' hg (.of_raw rfl (fun _ => rfl) fun hl => by simp [hgone] at hl)
  · rw [h] at hs' ⊢
    refine he.of_sameStream hs' (hg.snoc ?_ ?_ ?_ ?_) (.of_raw rfl (fun _ => rfl) fun _ => ?_)
    · exact fun _ => Bool.noConfusion
    · rw [hlog]
      exact fun _ => he.owes.opened hm
    · exact Bool.noConfusion
    · exact Bool.noConfusion
    · simp [Sent.isAu, Sent.isEos]

lemma Episodic.enter (he : t.Episodic env w h neg) (now : ℤ) :
    (t.enterH264 now).Episodic env w h neg := by
  rw [enterH264_eq]
  refine he.of_sameStream ⟨rfl, rfl, rfl, rfl, rfl⟩ (he.grammar.snoc ?_ ?_ ?_ ?_)
    (.of_h264 rfl ?_ (fun _ => rfl) fun _ => rfl)
  · exact fun _ => Bool.noConfusion
  · simp [Sent.isAu, Sent.isEos]
  · exact Bool.noConfusion
  · exact Bool.noConfusion
  · simp [Sent.isOpened]

/-- A rectangle is built in RAW mode.  Right after an EOS it is the snapshot. -/
lemma Episodic.rect (he : t.Episodic env w h neg) (hm : t.xmitMode = .raw) {r : Rect}
    {ds : List Rect} {a : Bool}
    (hfull : t.dirtyAll = true → r = Rect.full t.width t.height) :
    ({ t with dirty := ds, dirtyAll := a }.builtRect env neg r).Episodic env w h neg := by
  obtain ⟨f, hf⟩ := shadowUpdate_eq { t with dirty := ds, dirtyAll := a } r
  unfold builtRect frameStart
  rw [hf]
  refine he.of_sameStream ⟨rfl, rfl, rfl, rfl, rfl⟩ (he.grammar.snoc ?_ ?_ ?_ ?_)
    (.of_raw hm ?_ fun hl => ?_)
  · exact fun hl _ => he.owes.closed hm hl
  · simp [Sent.isAu, Sent.isEos]
  · exact Bool.noConfusion
  · intro _ howed
    rw [hfull (he.owes.repaintRaw hm howed), he.width, he.height]
    exact .inl ⟨_, rfl⟩
  · simp [Sent.isEos, Sent.isFrame]
  · simpa [Sent.isAu, Sent.isEos] using he.owes.closed hm hl

/-- An access unit is encoded in H.264 mode, forced when one of the rules asks for it. -/
lemma Episodic.au (he : t.Episodic env w h neg) (hm : t.xmitMode = .h264) (nal : List UInt8)
    (idr : Bool) :
    ({ t with dirtyAll := false, dirty := [] }.builtAu nal idr).Episodic env w h neg := by
  obtain ⟨f, hf⟩ := shadowUpdate_eq { t with dirtyAll := false, dirty := [] }
    (Rect.full t.width t.height)
  unfold builtAu frameStart
  dsimp only
  rw [hf]
  refine he.of_sameStream ⟨rfl, rfl, rfl, rfl, rfl⟩ (he.grammar.snoc ?_ ?_ ?_ ?_)
    (.of_h264 hm ?_ ?_ ?_)
  · exact fun _ => Bool.noConfusion
  · exact fun _ => he.owes.opened hm
  · exact fun _ ho => he.owes.forced hm ho
  · exact fun _ ho => .inr (he.owes.repaintH264 hm ho)
  · simpa [Sent.isOpened, Sent.isEos] using he.owes.opened hm
  · simp [Sent.isOpened, Sent.isAu]
  · simp [Sent.isEos, Sent.isFrame]

/-- Marking everything is never undone by damage. -/
lemma damageRects_dirtyAll (bpp : ℕ) (rects : List Rect) {t : Tx} (h : t.dirtyAll = true) :
    (t.damageRects bpp rects).1.dirtyAll = true := by
  have hone : ∀ (t : Tx) (raw : ℕ) (r : Rect), t.dirtyAll = true →
      (damageRect bpp (t, raw) r).1.dirtyAll = true := by
    intro t raw r ha
    unfold damageRect dirtyAdd
    dsimp only
    rw [if_pos ha]
    split_ifs <;> first | exact ha | rfl
  have hall : ∀ (rects : List Rect) (t : Tx) (raw : ℕ), t.dirtyAll = true →
      (rects.foldl (damageRect bpp) (t, raw)).1.dirtyAll = true := by
    intro rects
    induction rects with
    | nil => exact fun t raw ha => ha
    | cons r rects ih => exact fun t raw ha => ih _ _ (hone t raw r ha)
  exact hall rects t 0 h

/-- **Every action keeps the grammar.** -/
lemma Episodic.step (hR : ∀ m, R.ctrl m → m ≠ eosMsg) (hne : ¬R.encoderEmpty)
    (hstep : TxStep env neg R t t') (he : t.Episodic env w h neg) : t'.Episodic env w h neg := by
  have hs := hstep.sameStream
  cases hstep with
  | enter now => exact he.enter now
  | leave _ hm => exact he.leave hm rfl rfl ⟨rfl, rfl, rfl, rfl, rfl⟩
  | encodeFail _ _ hm =>
      obtain ⟨f, hf⟩ := builtNothing_eq { t with dirtyAll := false, dirty := [] }
      unfold encodeFailed
      rw [hf]
      exact he.leave hm rfl rfl ⟨rfl, rfl, rfl, rfl, rfl⟩
  | act hact =>
      cases hact with
      | ctrl m hm =>
          obtain ⟨-, heq⟩ | ⟨-, -, watch, heq⟩ := t.xmitCtrl_cases m
          · rw [heq]
            exact he
          · rw [heq]
            exact he.ctrl (hR m hm) _ watch
      | damage grab rects =>
          have hd := damageRects_dirtyAll neg.pixfmt.bytespp rects (t := { t with grabbuf := grab })
          obtain ⟨ds, a, heq⟩ := damageRects_eq neg.pixfmt.bytespp
            { t with grabbuf := grab } rects
          rw [heq] at hs hd ⊢
          exact he.still hs rfl rfl rfl hd id
      | lose => exact he.still hs rfl rfl rfl id fun hl => Bool.noConfusion hl
      | repaint => exact he.still hs rfl rfl rfl (fun _ => rfl) id
      | snapshot _ hm => exact he.rect hm fun _ => rfl
      | rect r ds _ hm ha => exact he.rect hm fun hall => by simp [ha] at hall
      | encodeAu nal idr _ _ hm => exact he.au hm nal idr
      | encodeNothing hempty => exact absurd hempty hne
      | aux | sendFrame | frameDone | sendHead | popHead => exact he.still hs rfl rfl rfl id id

/-- No episode yet: RAW, and nothing logged but control messages other than EOS. -/
structure Quiet (t : Tx) : Prop where
  raw : t.xmitMode = .raw
  fd : t.fd = true
  log : ∀ x ∈ t.log, x.Neutral

lemma Quiet.episodic (hq : t.Quiet) (env : Env) (neg : Negotiated) :
    t.Episodic env t.width t.height neg := by
  have hmem : ∀ {past x future}, t.log = past ++ x :: future → x.Neutral := by
    intro past x future hl
    exact hq.log x (by simp [hl])
  have hsince : ∀ {p q : Sent → Bool}, (∀ x : Sent, x.Neutral → p x = false) →
      Since p q t.log = false := by
    intro p q hp
    by_contra hs
    rw [Bool.not_eq_false, since_iff] at hs
    obtain ⟨past, x, after, hl, hx, -⟩ := hs
    rw [hp x (hmem hl)] at hx
    cases hx
  refine ⟨⟨?_, ?_, ?_, ?_⟩, .of_raw hq.raw ?_ ?_, rfl, rfl, hq.fd⟩
  · exact fun _ past x future hl hx => absurd hx (by simp [(hmem hl).rect])
  · exact fun past x future hl hx => absurd hx (by simp [(hmem hl).au, (hmem hl).eos])
  · exact fun past x future hl hx => absurd hx (by simp [(hmem hl).au])
  · exact fun past x future hl hx => absurd hx (by simp [(hmem hl).frame])
  · exact fun ho => absurd ho (by simp [hsince fun x hx => hx.eos])
  · exact fun _ => hsince fun x hx => hx.au

/-- A stream starts quiet, behind its hello. -/
lemma quiet_startStreaming [CDouble D] (env : Env) {c : Client D} (hfd : c.tx.fd = true)
    (hlog : c.tx.log = []) (extra : UInt8) (token : UInt16) :
    (startStreaming env c extra token).tx.Quiet := by
  rw [startStreaming_tx, xmitHello]
  set hello : ServerHello := {
    width := UInt16.ofNat c.tx.width
    height := UInt16.ofNat c.tx.height
    pixfmt := c.neg.pixfmt.code
    flags := srvFlags env c extra
    audioToken := if srvFlags env c extra &&& srvFlagAudio = 0 then 0 else token }
  have hne : hello.bytes ≠ eosMsg := by
    intro he
    have := congrArg List.length he
    simp [eosMsg, serverHelloSize, frameHdrSize] at this
  obtain ⟨-, h⟩ | ⟨-, -, w, h⟩ := c.tx.xmitCtrl_cases hello.bytes
  · rw [h]
    exact ⟨rfl, hfd, by simp [hlog]⟩
  · rw [h]
    exact ⟨rfl, hfd, by simpa [hlog] using Sent.neutral_ctrl hne⟩

end Tx

/-! ## Whole runs -/

/-- No compositor mode change, and no EOS from anywhere but the mode switch. -/
def Event.Plain : Event → Prop
  | .modeChanged .. => False
  | .ctrl m => m ≠ eosMsg
  | _ => True

lemma ctrlMsg_ne_eosMsg {e : Encoding} (h : e ≠ .h264Eos) : ctrlMsg e ≠ eosMsg :=
  fun he => h (ctrlMsg_injective he)

/-- **The episode grammar.**  In every run without a mode change, with an encoder that returns
an access unit or fails: access units and EOS come in open episodes, the first access unit of
an episode is forced, and the first frame after an EOS repaints everything; and as long as the
client is not scheduled for loss no rectangle comes between an access unit and the next EOS. -/
theorem episode_grammar [CDouble D] (env : Env) (henc : ∀ k idr, env.encode k ≠ some ([], idr))
    {c : Client D} (hq : c.tx.Quiet) (es : List Event) (hes : ∀ ev ∈ es, ev.Plain) :
    let t := (run (step env) c es).tx
    (t.lost = false → NoRectInEpisode t.log) ∧ InOpenEpisode t.log ∧ FirstForced t.log ∧
      RepaintsAfterEos env c.neg c.tx.width c.tx.height t.log := by
  let R : Rules := { ctrl := fun m => m ≠ eosMsg, encoderEmpty := False }
  have hadm : ∀ (d : Client D) ev, ev.Plain → R.Admits env d ev := by
    intro d ev hev
    cases ev with
    | modeChanged => exact hev
    | ctrl m => exact hev
    | outReady => exact fun k _ => ⟨fun _ => trivial, fun idr he => henc k idr he⟩
    | pingTick => exact pingMsg_ne_eosMsg
    | dpms on => exact ctrlMsg_ne_eosMsg (by cases on <;> decide)
    | repaint => exact ⟨trivial, ctrlMsg_ne_eosMsg (by decide)⟩
    | damage | retry | pong | setMode | lost => exact trivial
  obtain ⟨-, he⟩ := run_txInvariant (P := Tx.Episodic env c.tx.width c.tx.height)
    (Tx.Episodic.step (fun m hm => hm) id) (hq.episodic env c.neg)
    ((along_of_forall hes).mono hadm)
  exact ⟨he.grammar.noRect, he.grammar.inOpen, he.grammar.firstForced, he.grammar.repaints⟩

/-- Late echoes open an episode and one access unit goes out. -/
def lateEchoes : List Event :=
  [.pong 2800000, .pong 5800000, .damage (fun _ _ => 0xFFFFFF) [⟨0, 0, 2, 1⟩], .outReady false,
    .outReady false]

/-- Echoes without delay for nearly as long as it takes to close it. -/
def calmEchoes : List Event :=
  [20000000, 22000000, 24000000, 26000000, 29000000, 32000000, 36000000].map Event.pong

/-- An episode of one access unit, its EOS and the snapshot. -/
theorem episode_grammar_tiny :
    let t := (run (step Env.willing) (Client.tiny Env.willing)
      (lateEchoes ++ calmEchoes ++ [.pong 39000000, .pong 42000000, .outReady false])).tx
    t.log.map Sent.isAu = [false, false, true, false, false] ∧ NoRectInEpisode t.log ∧
      InOpenEpisode t.log := by
  have hq : (Client.tiny Env.willing).tx.Quiet :=
    Tx.quiet_startStreaming Env.willing rfl rfl 0 0
  obtain ⟨hrect, hopen, -⟩ := episode_grammar Env.willing (fun k idr => by simp [Env.willing]) hq
    (lateEchoes ++ calmEchoes ++ [.pong 39000000, .pong 42000000, .outReady false])
    (by simp [lateEchoes, calmEchoes, Event.Plain])
  exact ⟨by decide +kernel, hrect (by decide +kernel), hopen⟩

/-- **A rectangle in an episode.**  A PING goes unanswered, and a tick of the ping timer gives
the client up while the watch is armed for one more access unit.  The report of that unit to the
controller ends the episode, the EOS is dropped, and the next pass builds the snapshot. -/
theorem rect_in_episode_of_lost_client :
    ¬NoRectInEpisode (run (step Env.willing) (Client.tiny Env.willing)
      (lateEchoes ++ calmEchoes ++ [.pingTick, .damage (fun _ _ => 7) [⟨0, 0, 2, 1⟩], .pingTick,
        .outReady false, .outReady false])).tx.log := by
  intro h
  set l := (run (step Env.willing) (Client.tiny Env.willing) _).tx.log with hl
  have hrect : l[5]?.map Sent.isRect = some true := by
    rw [hl]
    decide +kernel
  obtain ⟨x, hx, hr⟩ := Option.map_eq_some_iff.mp hrect
  have hsince : Since Sent.isAu Sent.isEos (l.take 5) = true := by
    rw [hl]
    decide +kernel
  rw [h.getElem? hx hr] at hsince
  cases hsince

end Sremfb
