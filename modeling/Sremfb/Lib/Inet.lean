import Sremfb.Lib.Text
import Mathlib.Data.List.Basic

/-!
# Internet addresses

IPv4 addresses as a C program holds them: four bytes in the order in which they are written, read
as one 32-bit word by a little-endian machine (`InAddr.sAddr`) or, in the order of the network, as
the number whose leading bits a netmask counts (`InAddr.value`).

`inetPton` reads the dotted quads and nothing else (`inetPton_eq_some_iff`), so that an address is
determined by its text (`InAddr.text_injective`).  `masked_eq_iff` is what a netmask in network
order compares: the first `n` bits.

An IPv6 address is kept as its first twelve bytes and its last four, which is where a v4-mapped
address has its IPv4 address.
-/

namespace Lib

/-- `struct in_addr`. -/
structure InAddr where
  a : BitVec 8
  b : BitVec 8
  c : BitVec 8
  d : BitVec 8
  deriving DecidableEq, Repr

/-! ## Dotted quads -/

namespace InAddr

/-- `inet_ntop(AF_INET, ...)`. -/
def text (x : InAddr) : List Char :=
  Nat.toDigits 10 x.a.toNat ++ '.' :: (Nat.toDigits 10 x.b.toNat ++ '.' ::
    (Nat.toDigits 10 x.c.toNat ++ '.' :: Nat.toDigits 10 x.d.toNat))

end InAddr

/-- One number of a dotted quad: up to 255, in decimal, without leading zeros. -/
def octet (p : List Char) : Option (BitVec 8) :=
  let n := Nat.ofDigitChars 10 p 0
  if Nat.toDigits 10 n = p ∧ n < 256 then some (BitVec.ofNat 8 n) else none

/-- `inet_pton(AF_INET, ...)`. -/
def inetPton (s : List Char) : Option InAddr :=
  match s.splitOn '.' with
  | [p, q, r, t] => do
      let a ← octet p
      let b ← octet q
      let c ← octet r
      let d ← octet t
      some ⟨a, b, c, d⟩
  | _ => none

lemma octet_eq_some_iff {p : List Char} {x : BitVec 8} :
    octet p = some x ↔ p = Nat.toDigits 10 x.toNat := by
  unfold octet
  constructor
  · intro h
    dsimp only at h
    split at h <;> rename_i hp
    · obtain rfl := Option.some.inj h
      rw [BitVec.toNat_ofNat, Nat.mod_eq_of_lt hp.2, hp.1]
    · cases h
  · rintro rfl
    have hx : x.toNat < 256 := x.isLt
    dsimp only
    rw [Nat.ofDigitChars_ten_toDigits, if_pos ⟨rfl, hx⟩, BitVec.ofNat_toNat, BitVec.setWidth_eq]

lemma splitOn_text (x : InAddr) : x.text.splitOn '.' =
    [Nat.toDigits 10 x.a.toNat, Nat.toDigits 10 x.b.toNat, Nat.toDigits 10 x.c.toNat,
      Nat.toDigits 10 x.d.toNat] := by
  have hdot : ∀ n, '.' ∉ Nat.toDigits 10 n := not_mem_toDigits (by decide)
  simp only [InAddr.text, List.splitOn_append_cons_self, List.splitOn_eq_singleton (hdot _),
    List.cons_append, List.nil_append]

/-- **Exactly the dotted quads are read.** -/
theorem inetPton_eq_some_iff {s : List Char} {x : InAddr} :
    inetPton s = some x ↔ s = x.text := by
  constructor
  · intro h
    unfold inetPton at h
    split at h <;> rename_i hs
    · simp only [Option.bind_eq_bind, Option.bind_eq_some_iff, Option.some.injEq,
        octet_eq_some_iff] at h
      obtain ⟨a, rfl, b, rfl, c, rfl, d, rfl, rfl⟩ := h
      rw [← @List.intercalate_splitOn _ s _ _ '.', hs]
      simp [InAddr.text]
    · cases h
  · rintro rfl
    have ho : ∀ y : BitVec 8, octet (Nat.toDigits 10 y.toNat) = some y := fun y =>
      octet_eq_some_iff.mpr rfl
    simp only [inetPton, splitOn_text, ho, Option.bind_eq_bind, Option.bind_some]

lemma InAddr.text_injective : Function.Injective InAddr.text := by
  intro x y h
  have hx : inetPton x.text = some x := inetPton_eq_some_iff.mpr rfl
  have hy : inetPton y.text = some y := inetPton_eq_some_iff.mpr rfl
  rw [h, hy] at hx
  exact (Option.some.inj hx).symm

/-- The only characters of a dotted quad are digits and the dot. -/
lemma InAddr.not_mem_text {c : Char} (h : c.isDigit = false) (hdot : c ≠ '.') (x : InAddr) :
    c ∉ x.text := by
  have hdigits : ∀ n, c ∉ Nat.toDigits 10 n := not_mem_toDigits h
  simp [InAddr.text, hdigits, hdot]

lemma length_toDigits_byte (x : BitVec 8) : (Nat.toDigits 10 x.toNat).length ≤ 3 := by
  rw [Nat.length_toDigits_le_iff (by decide) (by decide)]
  have := x.isLt
  omega

lemma InAddr.length_text (x : InAddr) : x.text.length ≤ 15 := by
  have ha := length_toDigits_byte x.a
  have hb := length_toDigits_byte x.b
  have hc := length_toDigits_byte x.c
  have hd := length_toDigits_byte x.d
  simp only [InAddr.text, List.length_append, List.length_cons]
  omega

lemma toDigits_injective {b : ℕ} (hb : 1 < b) (hb' : b ≤ 16) :
    Function.Injective (Nat.toDigits b) := by
  have hchar : ∀ m < 16, ∀ n < 16, Nat.digitChar m = Nat.digitChar n → m = n := by decide
  intro m
  induction m using Nat.strong_induction_on with
  | _ m ih =>
    intro n h
    rw [Nat.toDigits_eq_if hb, Nat.toDigits_eq_if (n := n) hb] at h
    have hpos : ∀ k, 0 < (Nat.toDigits b k).length := fun _ => Nat.length_toDigits_pos
    split at h <;> split at h
    · exact hchar m (by omega) n (by omega) (List.singleton_inj.mp h)
    · have hlen := congrArg List.length h
      have := hpos (n / b)
      simp only [List.length_append, List.length_cons, List.length_nil] at hlen
      omega
    · have hlen := congrArg List.length h
      have := hpos (m / b)
      simp only [List.length_append, List.length_cons, List.length_nil] at hlen
      omega
    · obtain ⟨hdiv, hmod⟩ := List.append_inj' h rfl
      have hm := Nat.mod_lt m (show b > 0 by omega)
      have hn := Nat.mod_lt n (show b > 0 by omega)
      have heq : m % b = n % b := hchar _ (by omega) _ (by omega) (List.singleton_inj.mp hmod)
      have hq : m / b = n / b := ih _ (Nat.div_lt_self (by omega) hb) hdiv
      rw [← Nat.div_add_mod m b, ← Nat.div_add_mod n b, hq, heq]

/-! ## Words and netmasks -/

/-- The word a little-endian machine reads from the four bytes. -/
def InAddr.sAddr (x : InAddr) : BitVec 32 := x.d ++ x.c ++ x.b ++ x.a

/-- The number in the order of the network. -/
def InAddr.value (x : InAddr) : BitVec 32 := x.a ++ x.b ++ x.c ++ x.d

/-- `htonl` on a little-endian machine. -/
def htonl (v : BitVec 32) : BitVec 32 :=
  v.extractLsb' 0 8 ++ v.extractLsb' 8 8 ++ v.extractLsb' 16 8 ++ v.extractLsb' 24 8

/-- The first `n` bits are the same. -/
def InAddr.AgreeOn (n : ℕ) (x y : InAddr) : Prop :=
  ∀ i < n, x.value.getMsbD i = y.value.getMsbD i

instance (n : ℕ) (x y : InAddr) : Decidable (x.AgreeOn n y) :=
  inferInstanceAs (Decidable (∀ i < n, _))

lemma htonl_and (v w : BitVec 32) : htonl v &&& htonl w = htonl (v &&& w) := by
  apply BitVec.eq_of_getLsbD_eq
  intro i hi
  simp only [htonl, BitVec.getLsbD_and, BitVec.getLsbD_append, BitVec.getLsbD_extractLsb']
  grind

lemma htonl_htonl (v : BitVec 32) : htonl (htonl v) = v := by
  apply BitVec.eq_of_getLsbD_eq
  intro i hi
  simp only [htonl, BitVec.getLsbD_append, BitVec.getLsbD_extractLsb']
  grind

lemma htonl_value (x : InAddr) : htonl x.value = x.sAddr := by
  apply BitVec.eq_of_getLsbD_eq
  intro i hi
  simp only [htonl, InAddr.value, InAddr.sAddr, BitVec.getLsbD_append, BitVec.getLsbD_extractLsb']
  grind

/-- **A netmask compares the leading bits.** -/
theorem masked_eq_iff {n : ℕ} (hn : n ≤ 32) (x y : InAddr) :
    x.sAddr &&& htonl (BitVec.allOnes 32 <<< (32 - n)) =
        y.sAddr &&& htonl (BitVec.allOnes 32 <<< (32 - n)) ↔ x.AgreeOn n y := by
  have hinj : Function.Injective htonl := Function.LeftInverse.injective htonl_htonl
  have hbit : ∀ i, (BitVec.allOnes 32 <<< (32 - n)).getMsbD i = decide (i < n) := by
    intro i
    rw [BitVec.getMsbD_shiftLeft, BitVec.getMsbD_allOnes, decide_eq_decide]
    omega
  rw [← htonl_value, ← htonl_value, htonl_and, htonl_and, hinj.eq_iff]
  constructor
  · intro h i hi
    have hmsb : (x.value &&& BitVec.allOnes 32 <<< (32 - n)).getMsbD i =
        (y.value &&& BitVec.allOnes 32 <<< (32 - n)).getMsbD i := by rw [h]
    rwa [BitVec.getMsbD_and, BitVec.getMsbD_and, hbit, decide_eq_true hi, Bool.and_true,
      Bool.and_true] at hmsb
  · intro h
    apply BitVec.eq_of_getMsbD_eq
    intro i _
    rw [BitVec.getMsbD_and, BitVec.getMsbD_and, hbit]
    by_cases hi : i < n
    · rw [h i hi]
    · simp [hi]

/-! ## Socket addresses -/

/-- `struct in6_addr`. -/
structure In6Addr where
  head : BitVec 96
  tail : InAddr
  deriving DecidableEq, Repr

/-- `IN6_IS_ADDR_V4MAPPED`. -/
def In6Addr.isV4Mapped (x : In6Addr) : Bool := x.head = 0xffff#96

/-- `IN6_IS_ADDR_LOOPBACK`. -/
def In6Addr.isLoopback (x : In6Addr) : Bool := x.head = 0#96 && x.tail = ⟨0, 0, 0, 1⟩

/-- The eight groups of the text form. -/
def In6Addr.groups (x : In6Addr) : List (BitVec 16) :=
  [x.head.extractLsb' 80 16, x.head.extractLsb' 64 16, x.head.extractLsb' 48 16,
    x.head.extractLsb' 32 16, x.head.extractLsb' 16 16, x.head.extractLsb' 0 16,
    x.tail.a ++ x.tail.b, x.tail.c ++ x.tail.d]

/-- The text with all eight groups written out, which is `inet_ntop`'s where no group is zero. -/
def In6Addr.fullText (x : In6Addr) : List Char :=
  [':'].intercalate (x.groups.map fun g => Nat.toDigits 16 g.toNat)

lemma append_byte_injective {a b a' b' : BitVec 8} (h : a ++ b = a' ++ b') : a = a' ∧ b = b' := by
  have hhigh := congrArg (fun v : BitVec 16 => v.extractLsb' 8 8) h
  have hlow := congrArg (fun v : BitVec 16 => v.extractLsb' 0 8) h
  simp only [BitVec.extractLsb'_append_eq_left, BitVec.extractLsb'_append_eq_right] at hhigh hlow
  exact ⟨hhigh, hlow⟩

lemma In6Addr.groups_injective : Function.Injective In6Addr.groups := by
  rintro ⟨head, a, b, c, d⟩ ⟨head', a', b', c', d'⟩ h
  simp only [In6Addr.groups, List.cons.injEq, and_true] at h
  obtain ⟨h80, h64, h48, h32, h16, h0, htop, hbottom⟩ := h
  have hhead : head = head' := by
    apply BitVec.eq_of_getLsbD_eq
    intro i hi
    replace h80 := congrArg (·.getLsbD (i - 80)) h80
    replace h64 := congrArg (·.getLsbD (i - 64)) h64
    replace h48 := congrArg (·.getLsbD (i - 48)) h48
    replace h32 := congrArg (·.getLsbD (i - 32)) h32
    replace h16 := congrArg (·.getLsbD (i - 16)) h16
    replace h0 := congrArg (·.getLsbD i) h0
    simp only [BitVec.getLsbD_extractLsb'] at h80 h64 h48 h32 h16 h0
    grind
  obtain ⟨rfl, rfl⟩ := append_byte_injective htop
  obtain ⟨rfl, rfl⟩ := append_byte_injective hbottom
  rw [hhead]

lemma colon_not_mem_toDigits (n : ℕ) : ':' ∉ Nat.toDigits 16 n := by
  have hchar : ∀ m < 16, Nat.digitChar m ≠ ':' := by decide
  induction n using Nat.strong_induction_on with
  | _ n ih =>
      rw [Nat.toDigits_eq_if (by decide)]
      split <;> rename_i hn
      · exact fun h => hchar n hn (List.mem_singleton.mp h).symm
      · intro h
        rcases List.mem_append.mp h with hfront | hlast
        · exact ih _ (Nat.div_lt_self (by omega) (by decide)) hfront
        · exact hchar _ (Nat.mod_lt _ (by decide)) (List.mem_singleton.mp hlast).symm

lemma In6Addr.fullText_injective : Function.Injective In6Addr.fullText := by
  have hcolon : ∀ x : In6Addr, ∀ l ∈ x.groups.map fun g => Nat.toDigits 16 g.toNat, ':' ∉ l := by
    intro x l hl
    obtain ⟨g, -, rfl⟩ := List.mem_map.mp hl
    exact colon_not_mem_toDigits _
  have hsplit : ∀ x : In6Addr,
      x.fullText.splitOn ':' = x.groups.map fun g => Nat.toDigits 16 g.toNat := fun x =>
    List.splitOn_intercalate ':' (hcolon x) (by simp [In6Addr.groups])
  intro x y h
  have hgroups := hsplit x
  rw [h, hsplit y] at hgroups
  have hinj : Function.Injective fun g : BitVec 16 => Nat.toDigits 16 g.toNat :=
    (toDigits_injective (by decide) (by decide)).comp fun _ _ hg => BitVec.eq_of_toNat_eq hg
  exact In6Addr.groups_injective (hinj.list_map hgroups).symm

lemma In6Addr.length_fullText (x : In6Addr) : x.fullText.length ≤ 39 := by
  have hlen : ∀ g : BitVec 16, (Nat.toDigits 16 g.toNat).length ≤ 4 := by
    intro g
    rw [Nat.length_toDigits_le_iff (by decide) (by decide)]
    exact g.isLt
  simp only [In6Addr.fullText, In6Addr.groups, List.map_cons, List.map_nil, List.intercalate,
    List.intersperse_cons_cons, List.intersperse_singleton, List.flatten_cons, List.flatten_nil,
    List.length_append, List.length_cons, List.length_nil]
  have h80 := hlen (x.head.extractLsb' 80 16)
  have h64 := hlen (x.head.extractLsb' 64 16)
  have h48 := hlen (x.head.extractLsb' 48 16)
  have h32 := hlen (x.head.extractLsb' 32 16)
  have h16 := hlen (x.head.extractLsb' 16 16)
  have h0 := hlen (x.head.extractLsb' 0 16)
  have htop := hlen (x.tail.a ++ x.tail.b)
  have hbottom := hlen (x.tail.c ++ x.tail.d)
  linarith

/-- `struct sockaddr_storage` of an Internet socket. -/
inductive SockAddr
  | inet (addr : InAddr) (port : UInt16)
  | inet6 (addr : In6Addr) (port : UInt16)
  deriving DecidableEq, Repr

end Lib
