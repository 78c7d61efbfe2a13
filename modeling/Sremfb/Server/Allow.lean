import Sremfb.Lib.Inet
import Mathlib.Data.List.Forall2

/-!
# The allowlist (`net.c`)

`SREMFB_ALLOW` lists the networks a client may connect from.  `net_allow_parse` cuts the text at
commas, spaces and tabs, and each piece at its first slash; what follows the slash is read by
`strtol`.

`Cidr` is an entry as it is meant: a dotted quad, alone or with a slash and a number of digits up
to 32.  `strtol` reads more than that.  It takes the empty text for 0 with `end` at the
terminator, and it skips white space and a sign (`LooseCidr`), so that `192.0.2.0/` is a network of
all addresses.  `allow_list_iff` says that this is all there is: an allowlist means what it says
unless it is accepted with such an entry in it.
-/

namespace Sremfb

open Lib

/-! ## Parsing -/

/-- `SremfbAllowNet`. -/
structure AllowNet where
  addr : BitVec 32
  mask : BitVec 32
  deriving DecidableEq, Repr

/-- The characters `g_strsplit_set` cuts at. -/
def isSep (c : Char) : Bool := c = ',' || c = ' ' || c = '\t'

/-- `g_strsplit_set(spec, ", \t", -1)`. -/
def gStrsplitSet (spec : List Char) : List (List Char) :=
  if spec = [] then [] else spec.splitOnP isSep

/-- The length behind the slash, 32 without one. -/
def entryLen (p : List Char) : Option ℤ :=
  match p.dropWhile (· ≠ '/') with
  | [] => some 32
  | _ :: t =>
      let (len, rest) := strtol t
      if rest ≠ [] ∨ len < 0 ∨ 32 < len then none else some len

/-- One turn of the loop in `net_allow_parse`. -/
def allowNet (p : List Char) : Option AllowNet := do
  let len ← entryLen p
  let a ← inetPton (p.takeWhile (· ≠ '/'))
  some
    { addr := a.sAddr
      mask := if len = 0 then 0 else htonl (BitVec.allOnes 32 <<< (32 - len.toNat)) }

/-- The loop, which stops at the first piece that is not an entry. -/
def allowNets : List (List Char) → Option (List AllowNet)
  | [] => some []
  | p :: ps =>
      if p = [] then allowNets ps
      else do
        let net ← allowNet p
        let nets ← allowNets ps
        some (net :: nets)

/-- `net_allow_parse`: the result, and `srv->allow` after it. -/
def netAllowParse (allow : List AllowNet) (spec : List Char) : Bool × List AllowNet :=
  match allowNets (gStrsplitSet spec) with
  | some (net :: nets) => (true, net :: nets)
  | _ => (false, allow)

/-! ## Admission -/

/-- The IPv4 address an allowlist compares. -/
def peerV4 : SockAddr → Option InAddr
  | .inet addr _ => some addr
  | .inet6 addr _ =>
      if addr.isV4Mapped then some addr.tail
      else if addr.isLoopback then some ⟨127, 0, 0, 1⟩
      else none

/-- `peer_allowed`.  The listening socket has no other address families. -/
def peerAllowed (allow : List AllowNet) (ss : SockAddr) : Bool :=
  if allow = [] then true
  else
    match peerV4 ss with
    | none => false
    | some v4 => allow.any fun net => v4.sAddr &&& net.mask == net.addr &&& net.mask

/-! ## The grammar -/

/-- An entry: an address and a prefix length. -/
def Cidr (e : List Char) (net : InAddr × ℕ) : Prop :=
  (e = net.1.text ∧ net.2 = 32) ∨
    ∃ ds : List Char, ds ≠ [] ∧ ds.all Char.isDigit = true ∧ net.2 = Nat.ofDigitChars 10 ds 0 ∧
      net.2 ≤ 32 ∧ e = net.1.text ++ '/' :: ds

/-- The pieces of a text between separators. -/
def entries (spec : List Char) : List (List Char) := (spec.splitOnP isSep).filter (· ≠ [])

/-- A text that lists networks. -/
def AllowList (spec : List Char) (nets : List (InAddr × ℕ)) : Prop :=
  nets ≠ [] ∧ List.Forall₂ Cidr (entries spec) nets

/-- What `net_allow_parse` and `peer_allowed` are to do with a text. -/
structure Honours (allow : List AllowNet) (spec : List Char) : Prop where
  accepts : (netAllowParse allow spec).1 = true ↔ ∃ nets, AllowList spec nets
  unchanged : (netAllowParse allow spec).1 = false → (netAllowParse allow spec).2 = allow
  admits : (netAllowParse allow spec).1 = true → ∀ nets, AllowList spec nets → ∀ ss,
    (peerAllowed (netAllowParse allow spec).2 ss = true ↔
      ∃ v4, peerV4 ss = some v4 ∧ ∃ net ∈ nets, v4.AgreeOn net.2 net.1)

/-! ## What `strtol` lets through -/

/-- An entry as the code reads it. -/
def LooseCidr (e : List Char) (net : InAddr × ℕ) : Prop :=
  (e = net.1.text ∧ net.2 = 32) ∨
    ∃ t : List Char, (t = [] ∧ net.2 = 0 ∨ Numeral t net.2) ∧ net.2 ≤ 32 ∧
      e = net.1.text ++ '/' :: t

/-- The text behind the slash, if there is one, begins with a digit. -/
def DigitLed (e : List Char) : Prop :=
  ∀ t, e.dropWhile (· ≠ '/') = '/' :: t → t.head?.any Char.isDigit = true

/-- No entry is left to `strtol`'s own rules, or another entry makes the text fail. -/
def Plain (spec : List Char) : Prop :=
  (∀ e ∈ entries spec, DigitLed e) ∨ ∃ e ∈ entries spec, ∀ net, ¬ LooseCidr e net

/-- The record kept for an entry. -/
def AllowNet.of (net : InAddr × ℕ) : AllowNet where
  addr := net.1.sAddr
  mask := htonl (BitVec.allOnes 32 <<< (32 - net.2))

/-! ## One entry -/

lemma ne_slash_of_mem_text (x : InAddr) : ∀ c ∈ x.text, decide (c ≠ '/') = true := by
  intro c hc
  simp only [ne_eq, decide_eq_true_eq]
  rintro rfl
  exact x.not_mem_text (by decide) (by decide) hc

lemma takeWhile_slash {x : InAddr} {t : List Char} :
    (x.text ++ '/' :: t).takeWhile (· ≠ '/') = x.text ∧
      (x.text ++ '/' :: t).dropWhile (· ≠ '/') = '/' :: t := by
  rw [List.takeWhile_append_of_pos (ne_slash_of_mem_text x),
    List.dropWhile_append_of_pos (ne_slash_of_mem_text x)]
  simp

lemma takeWhile_text (x : InAddr) :
    x.text.takeWhile (· ≠ '/') = x.text ∧ x.text.dropWhile (· ≠ '/') = [] :=
  ⟨List.takeWhile_eq_self_iff.mpr (ne_slash_of_mem_text x),
    List.dropWhile_eq_nil_iff.mpr (ne_slash_of_mem_text x)⟩

/-- A text is cut at its first slash. -/
lemma cut_at_slash (e : List Char) :
    e.dropWhile (· ≠ '/') = [] ∨ ∃ t, e.dropWhile (· ≠ '/') = '/' :: t := by
  cases h : e.dropWhile (· ≠ '/') with
  | nil => exact Or.inl rfl
  | cons c t =>
      have hc : (fun c : Char => decide (c ≠ '/')) c = false := by
        have hhead := List.head?_dropWhile_not (fun c : Char => decide (c ≠ '/')) e
        rw [h] at hhead
        simpa using hhead
      have hslash : c = '/' := by simpa using hc
      exact Or.inr ⟨t, by rw [hslash]⟩

/-- `strtol` with the checks that follow it. -/
lemma entryLen_slash {e t : List Char} (h : e.dropWhile (· ≠ '/') = '/' :: t) {len : ℤ} :
    entryLen e = some len ↔ (t = [] ∧ len = 0 ∨ Numeral t len) ∧ 0 ≤ len ∧ len ≤ 32 := by
  unfold entryLen
  rw [h]
  dsimp only
  constructor
  · intro hlen
    split at hlen <;> rename_i hbad
    · cases hlen
    · obtain rfl := Option.some.inj hlen
      simp only [ne_eq, not_or, not_not, not_lt] at hbad
      obtain ⟨hend, hlow, hhigh⟩ := hbad
      exact ⟨(strtol_end_iff (by omega) (by omega)).mp (by rw [← hend]), hlow, hhigh⟩
  · rintro ⟨hread, hlow, hhigh⟩
    rw [(strtol_end_iff (by omega) (by omega)).mpr hread]
    simp only [ne_eq, not_true_eq_false, false_or]
    rw [if_neg (by omega)]

/-- **What one turn of the loop accepts.** -/
lemma allowNet_eq_some {e : List Char} {a : AllowNet} :
    allowNet e = some a ↔ ∃ net, LooseCidr e net ∧ a = AllowNet.of net := by
  have hzero : htonl 0#32 = 0#32 := by decide
  constructor
  · intro h
    simp only [allowNet, Option.bind_eq_bind, Option.bind_eq_some_iff, Option.some.injEq,
      inetPton_eq_some_iff] at h
    obtain ⟨len, hlen, x, hx, rfl⟩ := h
    rcases cut_at_slash e with hnone | ⟨t, ht⟩
    · have he : e = x.text := by
        rw [← List.takeWhile_append_dropWhile (p := (· ≠ '/')) (l := e), hnone, List.append_nil, hx]
      rw [entryLen, hnone] at hlen
      obtain rfl := Option.some.inj hlen
      exact ⟨(x, 32), Or.inl ⟨he, rfl⟩, rfl⟩
    · have he : e = x.text ++ '/' :: t := by
        rw [← List.takeWhile_append_dropWhile (p := (· ≠ '/')) (l := e), ht, hx]
      obtain ⟨hread, hlow, hhigh⟩ := (entryLen_slash ht).mp hlen
      lift len to ℕ using hlow
      refine ⟨(x, len), Or.inr ⟨t, ?_, ?_, he⟩, ?_⟩
      · simpa using hread
      · omega
      · by_cases hlen : len = 0
        · subst hlen
          simp [AllowNet.of, hzero]
        · simp [AllowNet.of, hlen]
  · rintro ⟨⟨x, n⟩, ⟨he, hn⟩ | ⟨t, hread, hn, he⟩, rfl⟩
    · dsimp only at he hn
      subst he hn
      obtain ⟨htake, hdrop⟩ := takeWhile_text x
      have hlen : entryLen x.text = some 32 := by rw [entryLen, hdrop]
      rw [allowNet, hlen, htake, inetPton_eq_some_iff.mpr rfl]
      rfl
    · dsimp only at hread hn he
      subst he
      obtain ⟨htake, hdrop⟩ := @takeWhile_slash x t
      have hlen : entryLen (x.text ++ '/' :: t) = some (n : ℤ) :=
        (entryLen_slash hdrop).mpr ⟨by simpa using hread, by omega, by omega⟩
      rw [allowNet, hlen, htake, inetPton_eq_some_iff.mpr rfl]
      by_cases hlen : n = 0
      · subst hlen
        simp [AllowNet.of, hzero]
      · simp [AllowNet.of, hlen]

/-! ## Entries as they are meant -/

lemma Cidr.loose {e : List Char} {net : InAddr × ℕ} (h : Cidr e net) : LooseCidr e net := by
  obtain h | ⟨ds, hne, hds, hn, hle, he⟩ := h
  · exact Or.inl h
  · refine Or.inr ⟨ds, Or.inr ⟨[], [], ds, rfl, by simp, hne, hds, rfl, ?_⟩, hle, he⟩
    simp [hn]

lemma Cidr.digitLed {e : List Char} {net : InAddr × ℕ} (h : Cidr e net) : DigitLed e := by
  intro t ht
  obtain ⟨he, -⟩ | ⟨ds, hne, hds, -, -, he⟩ := h
  · rw [he, (takeWhile_text net.1).2] at ht
    cases ht
  · rw [he, takeWhile_slash.2] at ht
    obtain rfl : ds = t := (List.cons.inj ht).2
    obtain ⟨c, cs, rfl⟩ := List.exists_cons_of_ne_nil hne
    exact (Bool.and_eq_true _ _ ▸ hds).1

lemma LooseCidr.cidr {e : List Char} {net : InAddr × ℕ} (h : LooseCidr e net) (hled : DigitLed e) :
    Cidr e net := by
  obtain h | ⟨t, hread, hle, he⟩ := h
  · exact Or.inl h
  · have ht : t.head?.any Char.isDigit = true := hled t (by rw [he, takeWhile_slash.2])
    obtain ⟨rfl, -⟩ | hnum := hread
    · cases ht
    · obtain ⟨hne, hds, hv⟩ := hnum.digits ht
      exact Or.inr ⟨t, hne, hds, by exact_mod_cast hv, hle, he⟩

/-! ## The list -/

lemma allowNets_filter (ps : List (List Char)) : allowNets (ps.filter (· ≠ [])) = allowNets ps := by
  induction ps with
  | nil => rfl
  | cons p ps ih =>
      by_cases hp : p = []
      · rw [List.filter_cons_of_neg (by simp [hp]), ih, allowNets, if_pos hp]
      · rw [List.filter_cons_of_pos (by simp [hp]), allowNets, allowNets, if_neg hp, if_neg hp, ih]

lemma allowNets_split (spec : List Char) :
    allowNets (gStrsplitSet spec) = allowNets (entries spec) := by
  rw [entries, allowNets_filter]
  unfold gStrsplitSet
  split <;> rename_i h
  · rw [h]
    rfl
  · rfl

/-- **What the loop accepts.** -/
lemma allowNets_eq_some {es : List (List Char)} (hes : ∀ e ∈ es, e ≠ []) {as : List AllowNet} :
    allowNets es = some as ↔
      ∃ nets, List.Forall₂ LooseCidr es nets ∧ as = nets.map AllowNet.of := by
  induction es generalizing as with
  | nil =>
      constructor
      · intro h
        exact ⟨[], List.Forall₂.nil, (Option.some.inj h).symm⟩
      · rintro ⟨nets, hnets, rfl⟩
        cases hnets
        rfl
  | cons e es ih =>
      obtain ⟨he, hes⟩ := List.forall_mem_cons.mp hes
      simp only [allowNets, he, if_false, Option.bind_eq_bind, Option.bind_eq_some_iff,
        Option.some.injEq]
      constructor
      · rintro ⟨a, ha, as, has, rfl⟩
        obtain ⟨net, hnet, rfl⟩ := allowNet_eq_some.mp ha
        obtain ⟨nets, hnets, rfl⟩ := (ih hes).mp has
        exact ⟨net :: nets, hnets.cons hnet, rfl⟩
      · rintro ⟨nets, hnets, rfl⟩
        cases hnets with
        | cons hnet hnets =>
            exact ⟨_, allowNet_eq_some.mpr ⟨_, hnet, rfl⟩, _, (ih hes).mpr ⟨_, hnets, rfl⟩, rfl⟩

lemma ne_nil_of_mem_entries {spec e : List Char} (h : e ∈ entries spec) : e ≠ [] := by
  simpa using (List.mem_filter.mp h).2

/-- The parser succeeds on the loose lists, and this is the list it keeps. -/
lemma netAllowParse_of_loose {allow : List AllowNet} {spec : List Char} {nets : List (InAddr × ℕ)}
    (hne : nets ≠ []) (h : List.Forall₂ LooseCidr (entries spec) nets) :
    netAllowParse allow spec = (true, nets.map AllowNet.of) := by
  have hsome : allowNets (gStrsplitSet spec) = some (nets.map AllowNet.of) := by
    rw [allowNets_split]
    exact (allowNets_eq_some fun e he => ne_nil_of_mem_entries he).mpr ⟨nets, h, rfl⟩
  obtain ⟨net, rest, rfl⟩ := List.exists_cons_of_ne_nil hne
  rw [netAllowParse, hsome]
  rfl

lemma loose_of_netAllowParse {allow : List AllowNet} {spec : List Char}
    (h : (netAllowParse allow spec).1 = true) :
    ∃ nets, nets ≠ [] ∧ List.Forall₂ LooseCidr (entries spec) nets := by
  unfold netAllowParse at h
  split at h <;> rename_i hsome
  · rw [allowNets_split] at hsome
    obtain ⟨nets, hnets, hmap⟩ :=
      (allowNets_eq_some fun e he => ne_nil_of_mem_entries he).mp hsome
    refine ⟨nets, ?_, hnets⟩
    rintro rfl
    cases hmap
  · cases h

lemma netAllowParse_fails {allow : List AllowNet} {spec : List Char}
    (h : (netAllowParse allow spec).1 = false) : (netAllowParse allow spec).2 = allow := by
  unfold netAllowParse at h ⊢
  split at h
  · cases h
  · rfl

lemma Forall₂.cidr {es : List (List Char)} {nets : List (InAddr × ℕ)}
    (h : List.Forall₂ LooseCidr es nets) (hled : ∀ e ∈ es, DigitLed e) :
    List.Forall₂ Cidr es nets := by
  induction h with
  | nil => exact List.Forall₂.nil
  | cons hnet _ ih =>
      obtain ⟨he, hes⟩ := List.forall_mem_cons.mp hled
      exact (ih hes).cons (hnet.cidr he)

lemma exists_mem_of_forall₂ {R : List Char → InAddr × ℕ → Prop} {es : List (List Char)}
    {nets : List (InAddr × ℕ)} (h : List.Forall₂ R es nets) {e : List Char} (he : e ∈ es) :
    ∃ net, R e net := by
  induction h with
  | nil => cases he
  | cons hnet _ ih =>
      rcases List.mem_cons.mp he with rfl | hmem
      · exact ⟨_, hnet⟩
      · exact ih hmem

lemma forall₂_of_forall {R : List Char → InAddr × ℕ → Prop} {es : List (List Char)}
    (h : ∀ e ∈ es, ∃ net, R e net) : ∃ nets, List.Forall₂ R es nets := by
  induction es with
  | nil => exact ⟨[], List.Forall₂.nil⟩
  | cons e es ih =>
      obtain ⟨⟨net, hnet⟩, hes⟩ := List.forall_mem_cons.mp h
      obtain ⟨nets, hnets⟩ := ih hes
      exact ⟨net :: nets, hnets.cons hnet⟩

/-! ## Admission -/

/-- **A network admits the addresses that share its leading bits.** -/
lemma peerAllowed_map {nets : List (InAddr × ℕ)} (hne : nets ≠ []) (hle : ∀ net ∈ nets, net.2 ≤ 32)
    (ss : SockAddr) : peerAllowed (nets.map AllowNet.of) ss = true ↔
      ∃ v4, peerV4 ss = some v4 ∧ ∃ net ∈ nets, v4.AgreeOn net.2 net.1 := by
  have hmap : nets.map AllowNet.of ≠ [] := by simpa using hne
  unfold peerAllowed
  rw [if_neg hmap]
  cases hv4 : peerV4 ss with
  | none => simp
  | some v4 =>
      simp only [List.any_map, List.any_eq_true, Function.comp_apply, beq_iff_eq, AllowNet.of,
        Option.some.injEq, exists_eq_left']
      refine exists_congr fun net => and_congr_right fun hmem => ?_
      exact masked_eq_iff (hle net hmem) v4 net.1

lemma LooseCidr.le {e : List Char} {net : InAddr × ℕ} (h : LooseCidr e net) : net.2 ≤ 32 := by
  obtain ⟨-, hn⟩ | ⟨t, -, hle, -⟩ := h
  · omega
  · exact hle

lemma forall₂_le {es : List (List Char)} {nets : List (InAddr × ℕ)}
    (h : List.Forall₂ LooseCidr es nets) : ∀ net ∈ nets, net.2 ≤ 32 := by
  induction h with
  | nil => exact fun x hx => by cases hx
  | cons hnet _ ih => exact List.forall_mem_cons.mpr ⟨hnet.le, ih⟩

/-- **An allowlist means what it says, unless `strtol` alone makes an entry of it readable.** -/
theorem allow_list_iff (allow : List AllowNet) (spec : List Char) :
    Honours allow spec ↔ Plain spec := by
  constructor
  · intro h
    by_contra hplain
    simp only [Plain, not_or, not_exists, not_and, not_forall, not_not] at hplain
    obtain ⟨⟨e, he, hled⟩, hread⟩ := hplain
    obtain ⟨nets, hnets⟩ := forall₂_of_forall hread
    have hne : nets ≠ [] := by
      rintro rfl
      rw [List.forall₂_nil_right_iff.mp hnets] at he
      cases he
    have hok : (netAllowParse allow spec).1 = true := by rw [netAllowParse_of_loose hne hnets]
    obtain ⟨nets', -, hnets'⟩ := h.accepts.mp hok
    obtain ⟨net, hnet⟩ := exists_mem_of_forall₂ hnets' he
    exact hled hnet.digitLed
  · intro hplain
    have hloose : ∀ {nets}, AllowList spec nets → List.Forall₂ LooseCidr (entries spec) nets :=
      fun hnets => hnets.2.imp fun _ _ hnet => hnet.loose
    refine ⟨⟨?_, ?_⟩, netAllowParse_fails, ?_⟩
    · intro hok
      obtain ⟨nets, hne, hnets⟩ := loose_of_netAllowParse hok
      rcases hplain with hled | ⟨e, he, hbad⟩
      · exact ⟨nets, hne, Forall₂.cidr hnets hled⟩
      · obtain ⟨net, hnet⟩ := exists_mem_of_forall₂ hnets he
        exact absurd hnet (hbad net)
    · rintro ⟨nets, hnets⟩
      rw [netAllowParse_of_loose hnets.1 (hloose hnets)]
    · intro _ nets hnets ss
      rw [netAllowParse_of_loose hnets.1 (hloose hnets)]
      exact peerAllowed_map hnets.1 (forall₂_le (hloose hnets)) ss

/-- `192.0.2.0/` is no network of the grammar, and lets every IPv4 address in. -/
theorem empty_length_admits_all :
    ¬ Honours [] "192.0.2.0/".toList ∧ (netAllowParse [] "192.0.2.0/".toList).1 = true ∧
      peerAllowed (netAllowParse [] "192.0.2.0/".toList).2 (.inet ⟨203, 0, 113, 9⟩ 4000) = true := by
  have hok : (netAllowParse [] "192.0.2.0/".toList).1 = true := by decide +kernel
  have hentries : entries "192.0.2.0/".toList = ["192.0.2.0/".toList] := by decide +kernel
  refine ⟨?_, hok, by decide +kernel⟩
  intro h
  obtain ⟨nets, -, hnets⟩ := h.accepts.mp hok
  rw [hentries] at hnets
  obtain ⟨net, hnet⟩ := exists_mem_of_forall₂ hnets (List.mem_singleton.mpr rfl)
  have hled := hnet.digitLed [] (by decide +kernel)
  cases hled

end Sremfb
