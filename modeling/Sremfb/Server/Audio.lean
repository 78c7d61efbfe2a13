import Sremfb.Lib.Run
import Mathlib.Data.List.Infix
import Mathlib.Data.List.Nodup
import Mathlib.Data.Option.Basic

/-!
# The default audio output (`audio.c`)

Every audio client is an output device of the desktop and becomes its default; the previous
default comes back when the client leaves.  The configured default is a value in PipeWire's
metadata.  The server does not read it: it learns every change, its own and the user's, from
`on_md_property`, some time later.

`Audio` is the server's record together with the metadata (`configured`, and the changes not yet
delivered, `pending`) and, in `chosen`, what the user last chose among the outputs that are not
ours.  `orig` is remembered when the first output takes the default and forgotten only when the
default is restored from it.  A user who picks another output in between is respected when the
client leaves, but the remembered value stays, and the next client brings it back
(`stale_default_restored`).  `default_given_back` says under which conditions on the single steps
the default is right whenever no client is left.
-/

namespace Sremfb

open Lib

namespace Audio

/-! ## Names and values -/

abbrev Text := List Char

/-- `NODE_PREFIX`. -/
def nodePrefix : Text := ['s', 'r', 'e', 'm', 'f', 'b', '.']

/-- `strstr(hay, needle) != NULL`. -/
def strstr (hay needle : Text) : Bool := decide (needle <:+: hay)

/-- The value names one of our outputs. -/
def isOurs (json : Text) : Bool := strstr json ('"' :: nodePrefix)

/-- `names_node`, for a value that is set. -/
def namesNode (json node : Text) : Bool := strstr json ('"' :: node ++ ['"'])

/-- A byte in hexadecimal. -/
def hex (b : UInt8) : Text := [Nat.digitChar (b.toNat / 16), Nat.digitChar (b.toNat % 16)]

/-- `node_name` of a client. -/
def nodeName (mac : List UInt8) : Text := nodePrefix ++ mac.flatMap hex

/-- The value that makes a node the default, `{ "name": "..." }`. -/
def nodeJson (node : Text) : Text :=
  ['{', ' ', '"', 'n', 'a', 'm', 'e', '"', ':', ' ', '"'] ++ node ++ ['"', ' ', '}']

/-- An optional value that names one of our outputs. -/
def Ours (v : Option Text) : Prop := v.any isOurs = true

instance (v : Option Text) : Decidable (Ours v) := inferInstanceAs (Decidable (_ = true))

lemma ours_of_namesNode {json : Text} {mac : List UInt8}
    (h : namesNode json (nodeName mac) = true) : isOurs json = true := by
  have hinfix : '"' :: nodeName mac ++ ['"'] <:+: json := by simpa [namesNode, strstr] using h
  have hprefix : '"' :: nodePrefix <+: '"' :: nodeName mac ++ ['"'] :=
    ⟨mac.flatMap hex ++ ['"'], by simp [nodeName]⟩
  simpa [isOurs, strstr] using hprefix.isInfix.trans hinfix

lemma namesNode_nodeJson (node : Text) : namesNode (nodeJson node) node = true := by
  have hinfix : '"' :: node ++ ['"'] <:+: nodeJson node :=
    ⟨['{', ' ', '"', 'n', 'a', 'm', 'e', '"', ':', ' '], [' ', '}'], by simp [nodeJson]⟩
  simpa [namesNode, strstr] using hinfix

end Audio

/-! ## The state -/

/-- `struct SremfbAudio`; `id` stands for its address. -/
structure AudioStream where
  id : ℕ
  mac : List UInt8
  announced : Bool := false
  madeDefault : Bool := false
  deriving DecidableEq

/-- `static struct ... A`, with the metadata, the saved file and the user's choice. -/
structure Audio where
  /-- The value in the metadata. -/
  configured : Option Audio.Text
  /-- The changes of it that were not delivered yet. -/
  pending : List (Option Audio.Text)
  curDefault : Option Audio.Text := none
  saved : Bool := false
  origDefault : Option Audio.Text := none
  live : List AudioStream := []
  /-- The content of the saved file, if there is one. -/
  file : Option Audio.Text := none
  nextId : ℕ := 0
  /-- The last value the user, or the desktop before the first client, chose and that is not one
  of our outputs. -/
  chosen : Option Audio.Text

namespace AudioStream

def node (a : AudioStream) : Audio.Text := Audio.nodeName a.mac

end AudioStream

namespace Audio

/-- The server has just connected to PipeWire, which reports the value the desktop has. -/
def init (v : Option Text) (file : Option Text) : Audio where
  configured := v
  pending := v.toList.map some
  file := file
  chosen := v

/-- `default_set`. -/
def defaultSet (v : Option Text) (s : Audio) : Audio :=
  { s with configured := v, pending := s.pending ++ [v] }

/-- `audio_take_default`. -/
def takeDefault (a : AudioStream) (s : Audio) : Audio :=
  let s :=
    if s.saved then s
    else
      -- never one of our own outputs
      let orig := s.curDefault.filter fun v => !isOurs v
      { s with origDefault := orig, saved := true, file := some (orig.getD ['-']) }
  let s := s.defaultSet (some (nodeJson a.node))
  { s with live := s.live.map fun o => if o.id = a.id then { o with madeDefault := true } else o }

/-- `audio_give_back_default`, of an output that is not in `live` any more. -/
def giveBackDefault (a : AudioStream) (s : Audio) : Audio :=
  if a.madeDefault = false then s
  else if s.curDefault.any fun v => !namesNode v a.node then s
  else
    match s.live with
    | o :: _ => s.takeDefault o
    | [] => { s.defaultSet s.origDefault with origDefault := none, saved := false, file := none }

/-- `on_md_property`, with the recovery from a crash. -/
def onMdProperty (v : Option Text) (s : Audio) : Audio :=
  let s := { s with curDefault := v }
  match s.file with
  | some saved =>
      if s.live = [] ∧ Ours v then
        { s.defaultSet (if saved = ['-'] then none else some saved) with file := none }
      else s
  | none => s

/-- `sremfb_audio_start`: a new output. -/
def start (mac : List UInt8) (s : Audio) : Audio :=
  { s with live := s.live ++ [{ id := s.nextId, mac := mac }], nextId := s.nextId + 1 }

/-- `on_state`: the graph has registered the output. -/
def onState (id : ℕ) (s : Audio) : Audio :=
  match s.live.find? fun a => a.id = id with
  | some a =>
      if a.announced then s
      else
        let live := s.live.map fun o => if o.id = id then { o with announced := true } else o
        ({ s with live := live } : Audio).takeDefault a
  | none => s

/-- `sremfb_audio_stop`. -/
def stop (id : ℕ) (s : Audio) : Audio :=
  match s.live.find? fun a => a.id = id with
  | some a => ({ s with live := s.live.filter fun o => o.id ≠ id } : Audio).giveBackDefault a
  | none => s

/-- What happens to the default output. -/
inductive Event
  | start (mac : List UInt8)
  | state (id : ℕ)
  | stop (id : ℕ)
  /-- The user picks an output, or unsets the default. -/
  | user (v : Option Text)
  /-- The oldest change that was not delivered reaches the server. -/
  | deliver

def step (s : Audio) : Event → Audio
  | .start mac => s.start mac
  | .state id => s.onState id
  | .stop id => s.stop id
  | .user v => { s.defaultSet v with chosen := if Ours v then s.chosen else v }
  | .deliver =>
      match s.pending with
      | [] => s
      | v :: rest => { s with pending := rest }.onMdProperty v

/-! ## When the default is given back -/

/-- What is remembered is what is being replaced: the default is one of our outputs, or the
remembered value itself. -/
def Remembers (s : Audio) : Prop := Ours s.configured ∨ s.configured = s.origDefault

/-- The conditions on the single steps.

An output takes the default when nothing is remembered and the server knows the current value, or
when the remembered value is right.  It gives the default back with all changes delivered, and not
after the user has unset a default that was set before.  The user picks one of our outputs only if
it has taken the default before, and with the remembered value right. -/
def Orderly (s : Audio) : Event → Prop
  | .state id => ∀ a ∈ s.live, a.id = id → a.announced = false →
      if s.saved then s.Remembers else s.pending = []
  | .stop id => ∀ a ∈ s.live, a.id = id → a.madeDefault = true →
      s.pending = [] ∧ (s.configured = none → s.origDefault = none)
  | .user v => Ours v → s.saved = true ∧ s.Remembers ∧
      ∃ b ∈ s.live, b.madeDefault = true ∧ v.any (namesNode · b.node) = true
  | .start _ | .deliver => True

/-- One of our outputs has the default, and will give it back. -/
def Holds (s : Audio) (b : AudioStream) : Prop :=
  b ∈ s.live ∧ b.madeDefault = true ∧ s.configured.any (namesNode · b.node) = true

/-- The invariant: while the default is one of our outputs, the user's choice is remembered and
somebody gives it back; otherwise the default is the user's choice. -/
structure Keeps (s : Audio) : Prop where
  /-- The server knows the value up to what is pending. -/
  seen : s.configured = s.pending.getLast?.getD s.curDefault
  orig : ¬Ours s.origDefault
  held : Ours s.configured → s.saved = true ∧ s.origDefault = s.chosen ∧ ∃ b, s.Holds b
  free : ¬Ours s.configured → s.configured = s.chosen
  marked : ∀ b ∈ s.live, b.madeDefault = true → s.saved = true
  pend : ∀ v ∈ s.pending, Ours v → ∃ b ∈ s.live, b.madeDefault = true
  ids : (s.live.map (·.id)).Nodup
  fresh : ∀ b ∈ s.live, b.id < s.nextId

section Steps

variable {s : Audio} {a : AudioStream}

/-- **Taking the default.**  When the remembered value is right, or nothing is remembered and the
current value is known, an output that takes the default leaves it in good hands. -/
lemma keeps_takeDefault (hseen : s.configured = s.pending.getLast?.getD s.curDefault)
    (horig : ¬Ours s.origDefault) (hids : (s.live.map (·.id)).Nodup)
    (hfresh : ∀ b ∈ s.live, b.id < s.nextId) (ha : ∃ b ∈ s.live, b.id = a.id ∧ b.mac = a.mac)
    (hr : s.saved = true ∧ s.origDefault = s.chosen ∨
      s.saved = false ∧ s.pending = [] ∧ ¬Ours s.configured ∧ s.configured = s.chosen) :
    (s.takeDefault a).Keeps := by
  set mark : AudioStream → AudioStream := fun o =>
    if o.id = a.id then { o with madeDefault := true } else o with hmark
  have hid : ∀ o, (mark o).id = o.id := by
    intro o
    simp only [hmark]
    split_ifs <;> rfl
  obtain ⟨b, hb, hba, hmac⟩ := ha
  have hbm : (mark b).madeDefault = true ∧ (mark b).node = a.node := by
    simp [hmark, hba, AudioStream.node, hmac]
  have hnames : namesNode (nodeJson a.node) a.node = true := namesNode_nodeJson _
  -- what is remembered after the step
  obtain ⟨orig, file, hstep, horig', hchosen⟩ : ∃ orig file, s.takeDefault a = { s with
      configured := some (nodeJson a.node)
      pending := s.pending ++ [some (nodeJson a.node)]
      saved := true
      origDefault := orig
      file := file
      live := s.live.map mark } ∧ ¬Ours orig ∧ orig = s.chosen := by
    rcases hr with ⟨hs, ho⟩ | ⟨hs, hp, hn, hc⟩
    · exact ⟨s.origDefault, s.file, by simp [takeDefault, hs, defaultSet, hmark], horig, ho⟩
    · have hcur : s.curDefault = s.chosen := by
        rw [hp] at hseen
        exact hseen.symm.trans hc
      have hkeep : s.curDefault.filter (fun v => !isOurs v) = s.chosen := by
        rw [hcur]
        rw [hc] at hn
        cases hv : s.chosen with
        | none => rfl
        | some v =>
            rw [hv] at hn
            simpa [Ours, Option.filter] using hn
      refine ⟨s.chosen, some (s.chosen.getD ['-']), ?_, hc ▸ hn, rfl⟩
      simp [takeDefault, hs, defaultSet, hmark, hkeep]
  rw [hstep]
  refine ⟨?_, horig', ?_, ?_, fun _ _ _ => rfl, ?_, ?_, ?_⟩
  · simp
  · intro _
    exact ⟨rfl, hchosen, mark b, List.mem_map_of_mem hb, hbm.1, by simpa [hbm.2] using hnames⟩
  · intro hno
    exact absurd (ours_of_namesNode hnames) (by simpa [Ours] using hno)
  · exact fun _ _ _ => ⟨mark b, List.mem_map_of_mem hb, hbm.1⟩
  · rw [List.map_map]
    simpa [Function.comp_def, hid] using hids
  · intro o ho
    obtain ⟨o', ho', rfl⟩ := List.mem_map.mp ho
    rw [hid]
    exact hfresh o' ho'

/-- What is remembered is the user's choice, if it is what would be replaced. -/
lemma Keeps.orig_eq_chosen (h : s.Keeps) (hr : s.Remembers) : s.origDefault = s.chosen := by
  by_cases ho : Ours s.configured
  · exact (h.held ho).2.1
  · rw [← h.free ho]
    exact (hr.resolve_left ho).symm

lemma find_spec {id : ℕ} (h : s.live.find? (fun a => a.id = id) = some a) :
    a ∈ s.live ∧ a.id = id :=
  ⟨List.mem_of_find?_eq_some h, by simpa using List.find?_some h⟩

lemma Keeps.start (h : s.Keeps) (mac : List UInt8) : (s.start mac).Keeps := by
  refine ⟨h.seen, h.orig, ?_, h.free, ?_, ?_, ?_, ?_⟩
  · intro ho
    obtain ⟨hs, hc, b, hb, hm⟩ := h.held ho
    exact ⟨hs, hc, b, List.mem_append_left _ hb, hm⟩
  · intro b hb hm
    rcases List.mem_append.mp hb with hb | hb
    · exact h.marked b hb hm
    · rw [List.mem_singleton.mp hb] at hm
      cases hm
  · intro v hv ho
    obtain ⟨b, hb, hm⟩ := h.pend v hv ho
    exact ⟨b, List.mem_append_left _ hb, hm⟩
  · simp only [Audio.start, List.map_append, List.map_cons, List.map_nil]
    refine List.Nodup.append h.ids (List.nodup_singleton _) ?_
    intro i hi hi'
    obtain ⟨b, hb, rfl⟩ := List.mem_map.mp hi
    exact absurd (List.mem_singleton.mp hi') (h.fresh b hb).ne
  · intro b hb
    rcases List.mem_append.mp hb with hb | hb
    · exact (h.fresh b hb).trans (Nat.lt_succ_self _)
    · rw [List.mem_singleton.mp hb]
      exact Nat.lt_succ_self _

lemma Keeps.onState (h : s.Keeps) (id : ℕ) (hok : s.Orderly (.state id)) :
    (s.onState id).Keeps := by
  unfold Audio.onState
  cases hfind : s.live.find? fun a => a.id = id with
  | none => exact h
  | some a =>
      obtain ⟨ha, hid⟩ := find_spec hfind
      dsimp only
      by_cases hann : a.announced = true
      · rw [if_pos hann]
        exact h
      rw [if_neg hann]
      have hok := hok a ha hid (by simpa using hann)
      have hmap : ∀ o : AudioStream,
          (if o.id = id then { o with announced := true } else o).id = o.id := by
        intro o
        split_ifs <;> rfl
      apply keeps_takeDefault
      · exact h.seen
      · exact h.orig
      · simpa [Function.comp_def, hmap] using h.ids
      · intro o ho
        obtain ⟨o', ho', rfl⟩ := List.mem_map.mp ho
        rw [hmap]
        exact h.fresh o' ho'
      · exact ⟨_, List.mem_map_of_mem ha, by simp [hid]⟩
      · cases hs : s.saved with
        | true =>
            rw [hs, if_pos rfl] at hok
            exact .inl ⟨rfl, h.orig_eq_chosen hok⟩
        | false =>
            rw [hs, if_neg (by decide)] at hok
            have hno : ¬Ours s.configured := fun ho => by simpa [hs] using (h.held ho).1
            exact .inr ⟨rfl, hok, hno, h.free hno⟩

lemma Keeps.stop (h : s.Keeps) (id : ℕ) (hok : s.Orderly (.stop id)) : (s.stop id).Keeps := by
  unfold Audio.stop
  cases hfind : s.live.find? fun a => a.id = id with
  | none => exact h
  | some a =>
      obtain ⟨ha, hid⟩ := find_spec hfind
      -- nobody else has the address
      have hother : ∀ b ∈ s.live, b ≠ a → b ∈ s.live.filter fun o => o.id ≠ id := by
        intro b hb hne
        refine List.mem_filter.mpr ⟨hb, ?_⟩
        have hinj := List.inj_on_of_nodup_map h.ids hb ha
        simpa [← hid] using fun he => hne (hinj he)
      have hsub : ∀ b ∈ s.live.filter fun o => o.id ≠ id, b ∈ s.live := fun b hb =>
        List.mem_of_mem_filter hb
      have hids : ((s.live.filter fun o => o.id ≠ id).map (·.id)).Nodup :=
        h.ids.sublist (List.filter_sublist.map _)
      have hquiet : (∀ b, s.Holds b → b ≠ a) → (∀ v ∈ s.pending, Ours v → ∃ b ∈ s.live,
          b.madeDefault = true ∧ b ≠ a) →
          Keeps { s with live := s.live.filter fun o => o.id ≠ id } := by
        intro hhold hpend
        refine ⟨h.seen, h.orig, ?_, h.free, fun b hb => h.marked b (hsub b hb), ?_, hids,
          fun b hb => h.fresh b (hsub b hb)⟩
        · intro ho
          obtain ⟨hs, hc, b, hb⟩ := h.held ho
          exact ⟨hs, hc, b, hother b hb.1 (hhold b hb), hb.2⟩
        · intro v hv ho
          obtain ⟨b, hb, hm, hne⟩ := hpend v hv ho
          exact ⟨b, hother b hb hne, hm⟩
      dsimp only
      unfold giveBackDefault
      by_cases hmade : a.madeDefault = false
      · rw [if_pos hmade]
        have hne : ∀ b : AudioStream, b.madeDefault = true → b ≠ a := by
          rintro b hb rfl
          simp [hmade] at hb
        refine hquiet (fun b hb => hne b hb.2.1) ?_
        intro v hv ho
        obtain ⟨b, hb, hm⟩ := h.pend v hv ho
        exact ⟨b, hb, hm, hne b hm⟩
      rw [if_neg hmade]
      obtain ⟨hpend, hunset⟩ := hok a ha hid (by simpa using hmade)
      have hcur : s.configured = s.curDefault := by simpa [hpend] using h.seen
      have hsaved := h.marked a ha (by simpa using hmade)
      by_cases huser : (s.curDefault.any fun v => !namesNode v a.node) = true
      · rw [if_pos huser]
        refine hquiet ?_ (by simp [hpend])
        -- the default does not name the one that leaves
        rintro b ⟨-, -, hb⟩ rfl
        rw [hcur] at hb
        cases hv : s.curDefault with
        | none => simp [hv] at hb
        | some v =>
            rw [hv] at hb huser
            simp only [Option.any_some] at hb huser
            simp [hb] at huser
      rw [if_neg huser]
      have hchosen : s.origDefault = s.chosen := by
        cases hv : s.curDefault with
        | none =>
            rw [hv] at hcur
            rw [hunset hcur, ← h.free (by simp [Ours, hcur]), hcur]
        | some v =>
            rw [hv] at huser
            have hours : isOurs v = true :=
              @ours_of_namesNode v a.mac (by simpa [AudioStream.node] using huser)
            exact (h.held (by rw [hcur, hv]; exact hours)).2.1
      cases hlive : s.live.filter fun o => o.id ≠ id with
      | cons o rest =>
          dsimp only
          rw [hlive] at hids hsub
          exact keeps_takeDefault h.seen h.orig hids (fun b hb => h.fresh b (hsub b hb))
            ⟨o, List.mem_cons_self .., rfl, rfl⟩ (.inl ⟨hsaved, hchosen⟩)
      | nil =>
          dsimp only [defaultSet]
          refine ⟨by simp, by simp [Ours], fun ho => absurd ho h.orig, fun _ => hchosen, by simp,
            ?_, by simp, by simp⟩
          intro v hv ho
          rw [hpend, List.nil_append, List.mem_singleton] at hv
          exact absurd (hv ▸ ho) h.orig

lemma Keeps.user (h : s.Keeps) (v : Option Text) (hok : s.Orderly (.user v)) :
    (s.step (.user v)).Keeps := by
  have hpend : ∀ w ∈ s.pending ++ [v], Ours w → ∃ b ∈ s.live, b.madeDefault = true := by
    intro w hw ho
    rcases List.mem_append.mp hw with hw | hw
    · exact h.pend w hw ho
    · obtain ⟨-, -, b, hb, hm, -⟩ := hok (List.mem_singleton.mp hw ▸ ho)
      exact ⟨b, hb, hm⟩
  refine ⟨by simp [step, defaultSet], h.orig, ?_, ?_, h.marked, hpend, h.ids, h.fresh⟩
  · intro ho
    obtain ⟨hs, hr, b, hb⟩ := hok ho
    refine ⟨hs, ?_, b, hb⟩
    exact (h.orig_eq_chosen hr).trans (if_pos (show Ours v from ho)).symm
  · intro hno
    exact (if_neg (show ¬Ours v from hno)).symm

lemma Keeps.deliver (h : s.Keeps) : (s.step .deliver).Keeps := by
  unfold step
  cases hp : s.pending with
  | nil => exact h
  | cons v rest =>
      dsimp only
      have hkeep : Keeps { s with pending := rest, curDefault := v } := by
        refine ⟨?_, h.orig, h.held, h.free, h.marked, ?_, h.ids, h.fresh⟩
        · rw [h.seen, hp, List.getLast?_cons]
          rfl
        · intro w hw ho
          exact h.pend w (hp ▸ List.mem_cons_of_mem _ hw) ho
      -- one of our values in flight means that an output is still there
      have hlive : ¬(s.live = [] ∧ Ours v) := by
        rintro ⟨hl, ho⟩
        obtain ⟨b, hb, -⟩ := h.pend v (hp ▸ List.mem_cons_self ..) ho
        simp [hl] at hb
      unfold onMdProperty
      dsimp only
      split
      · rw [if_neg hlive]
        exact hkeep
      · exact hkeep

lemma Keeps.step (h : s.Keeps) (ev : Event) (hok : s.Orderly ev) : (s.step ev).Keeps := by
  cases ev with
  | start mac => exact h.start mac
  | state id => exact h.onState id hok
  | stop id => exact h.stop id hok
  | user v => exact h.user v hok
  | deliver => exact h.deliver

lemma keeps_init {v : Option Text} (hv : ¬Ours v) (file : Option Text) : (init v file).Keeps := by
  refine ⟨?_, by simp [Ours, init], fun ho => absurd ho hv, fun _ => rfl, by simp [init], ?_,
    by simp [init], by simp [init]⟩
  · cases v <;> rfl
  · intro w hw ho
    cases v with
    | none => simp [init] at hw
    | some v =>
        rw [List.mem_singleton.mp hw] at ho
        exact absurd ho hv

end Steps

/-- **The default output is given back.**  In a run of orderly steps, whenever no client is left,
the configured default is what the user last chose, also while changes of it are in flight. -/
theorem default_given_back {v file : Option Text} (hv : ¬Ours v) {es : List Event}
    (hes : Along Orderly step (init v file) es)
    (hlive : (run step (init v file) es).live = []) :
    (run step (init v file) es).configured = (run step (init v file) es).chosen := by
  have h : (run step (init v file) es).Keeps :=
    run_invariant (fun s ev hok hs => hs.step ev hok) (keeps_init hv file) hes
  apply h.free
  intro ho
  obtain ⟨-, -, b, hb, -⟩ := h.held ho
  simp [hlive] at hb

/-- Two outputs of the desktop. -/
def hdmi : Text := ['{', '"', 'n', 'a', 'm', 'e', '"', ':', '"', 'h', 'd', 'm', 'i', '"', '}']

@[inherit_doc hdmi]
def usb : Text := ['{', '"', 'n', 'a', 'm', 'e', '"', ':', '"', 'u', 's', 'b', '"', '}']

/-- A client that comes and goes without the user touching the default. -/
def visit (id : ℕ) : List Event :=
  [.start [2, 0, 0, 0, 0, 1], .state id, .deliver, .stop id, .deliver]

theorem default_given_back_visit :
    (run step (init (some hdmi) none) (.deliver :: visit 0)).live = [] ∧
      (run step (init (some hdmi) none) (.deliver :: visit 0)).configured =
        (run step (init (some hdmi) none) (.deliver :: visit 0)).chosen := by
  have hlive : (run step (init (some hdmi) none) (.deliver :: visit 0)).live = [] := by
    decide +kernel
  refine ⟨hlive, default_given_back (by decide +kernel) ?_ hlive⟩
  simp only [Along, visit, Orderly, Remembers]
  decide +kernel

/-- The user picks the other output while a client is there.  It is kept when the client leaves,
and lost when the next one does. -/
theorem stale_default_restored :
    ¬∀ (v file : Option Text) (es : List Event), ¬Ours v →
      (run step (init v file) es).live = [] → (run step (init v file) es).pending = [] →
      (run step (init v file) es).configured = (run step (init v file) es).chosen := by
  intro h
  have hstale := h (some hdmi) none
    ([.deliver, .start [2, 0, 0, 0, 0, 1], .state 0, .deliver, .user (some usb), .deliver,
      .stop 0] ++ visit 1) (by decide +kernel) (by decide +kernel) (by decide +kernel)
  exact absurd hstale (by decide +kernel)

end Audio

end Sremfb
