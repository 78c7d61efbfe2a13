import Sremfb.Kvm.Hid
import Sremfb.Lib.Slots
import Mathlib.Data.List.Nodup

/-!
# The keyboard of the gadget (`input_hid.c`, `hidmap.c`)

What is held on the keyboard is kept three times: as the slots and the modifier byte that go into
the report, and as a bitmap of codes.  `HidKbd.Represents` says what all three are for: they show
one list of codes, the keys that are held, oldest first.  `Represents.key` follows the list through
a call of `sremfb_hid_kbd_key`, whatever the call, and `HidKbd.answer` says what the call answers.

A slot is found again by its usage, so no two keys with a slot may share one: `hidUsage_apart` is
that fact about the generated table.
-/

namespace Sremfb

open Lib

/-! ## The table -/

/-- `sremfb_hid_usage`, without the keys that have no usage: codes as the kernel numbers them, and
usages of the page Keyboard/Keypad. -/
def hidUsages : List (ℕ × UInt8) := [
  -- ESC 1 2 3 4 5 6 7 8
  (1, 0x29), (2, 0x1E), (3, 0x1F), (4, 0x20), (5, 0x21), (6, 0x22), (7, 0x23), (8, 0x24), (9, 0x25),
  -- 9 0 MINUS EQUAL BACKSPACE TAB Q W
  (10, 0x26), (11, 0x27), (12, 0x2D), (13, 0x2E), (14, 0x2A), (15, 0x2B), (16, 0x14), (17, 0x1A),
  -- E R T Y U I O P
  (18, 0x08), (19, 0x15), (20, 0x17), (21, 0x1C), (22, 0x18), (23, 0x0C), (24, 0x12), (25, 0x13),
  -- LEFTBRACE RIGHTBRACE ENTER LEFTCTRL A S D F
  (26, 0x2F), (27, 0x30), (28, 0x28), (29, 0xE0), (30, 0x04), (31, 0x16), (32, 0x07), (33, 0x09),
  -- G H J K L SEMICOLON APOSTROPHE GRAVE
  (34, 0x0A), (35, 0x0B), (36, 0x0D), (37, 0x0E), (38, 0x0F), (39, 0x33), (40, 0x34), (41, 0x35),
  -- LEFTSHIFT BACKSLASH Z X C V B N
  (42, 0xE1), (43, 0x31), (44, 0x1D), (45, 0x1B), (46, 0x06), (47, 0x19), (48, 0x05), (49, 0x11),
  -- M COMMA DOT SLASH RIGHTSHIFT KPASTERISK LEFTALT SPACE
  (50, 0x10), (51, 0x36), (52, 0x37), (53, 0x38), (54, 0xE5), (55, 0x55), (56, 0xE2), (57, 0x2C),
  -- CAPSLOCK F1 F2 F3 F4 F5 F6 F7
  (58, 0x39), (59, 0x3A), (60, 0x3B), (61, 0x3C), (62, 0x3D), (63, 0x3E), (64, 0x3F), (65, 0x40),
  -- F8 F9 F10 NUMLOCK SCROLLLOCK KP7 KP8 KP9
  (66, 0x41), (67, 0x42), (68, 0x43), (69, 0x53), (70, 0x47), (71, 0x5F), (72, 0x60), (73, 0x61),
  -- KPMINUS KP4 KP5 KP6 KPPLUS KP1 KP2 KP3
  (74, 0x56), (75, 0x5C), (76, 0x5D), (77, 0x5E), (78, 0x57), (79, 0x59), (80, 0x5A), (81, 0x5B),
  -- KP0 KPDOT ZENKAKUHANKAKU 102ND F11 F12 RO KATAKANA
  (82, 0x62), (83, 0x63), (85, 0x94), (86, 0x64), (87, 0x44), (88, 0x45), (89, 0x87), (90, 0x92),
  -- HIRAGANA HENKAN KATAKANAHIRAGANA MUHENKAN KPJPCOMMA KPENTER RIGHTCTRL KPSLASH
  (91, 0x93), (92, 0x8A), (93, 0x88), (94, 0x8B), (95, 0x8C), (96, 0x58), (97, 0xE4), (98, 0x54),
  -- SYSRQ RIGHTALT HOME UP PAGEUP LEFT RIGHT
  (99, 0x46), (100, 0xE6), (102, 0x4A), (103, 0x52), (104, 0x4B), (105, 0x50), (106, 0x4F),
  -- END DOWN PAGEDOWN INSERT DELETE MUTE VOLUMEDOWN
  (107, 0x4D), (108, 0x51), (109, 0x4E), (110, 0x49), (111, 0x4C), (113, 0x7F), (114, 0x81),
  -- VOLUMEUP POWER KPEQUAL PAUSE KPCOMMA HANGEUL HANJA
  (115, 0x80), (116, 0x66), (117, 0x67), (119, 0x48), (121, 0x85), (122, 0x90), (123, 0x91),
  -- YEN LEFTMETA RIGHTMETA COMPOSE STOP AGAIN PROPS
  (124, 0x89), (125, 0xE3), (126, 0xE7), (127, 0x65), (128, 0x78), (129, 0x79), (130, 0x76),
  -- UNDO FRONT COPY OPEN PASTE FIND CUT
  (131, 0x7A), (132, 0x77), (133, 0x7C), (134, 0x74), (135, 0x7D), (136, 0x7E), (137, 0x7B),
  -- HELP KPLEFTPAREN KPRIGHTPAREN F13 F14 F15 F16
  (138, 0x75), (179, 0xB6), (180, 0xB7), (183, 0x68), (184, 0x69), (185, 0x6A), (186, 0x6B),
  -- F17 F18 F19 F20 F21 F22 F23
  (187, 0x6C), (188, 0x6D), (189, 0x6E), (190, 0x6F), (191, 0x70), (192, 0x71), (193, 0x72),
  -- F24
  (194, 0x73)]

/-- `sremfb_hid_usage`. -/
def hidUsage (code : ℕ) : UInt8 := (hidUsages.find? fun p => p.1 = code).elim 0 Prod.snd

namespace HidKbd

/-- Keys with a slot or a bit of the report do not share it. -/
def Apart (usage : ℕ → UInt8) : Prop :=
  ∀ c c', Usable usage c → Usable usage c' → usage c = usage c' → c = c'

lemma mem_hidUsages {code : ℕ} (h : hidUsage code ≠ 0) : (code, hidUsage code) ∈ hidUsages := by
  unfold hidUsage at h ⊢
  cases hfind : hidUsages.find? fun p => p.1 = code with
  | none =>
      rw [hfind] at h
      exact absurd rfl h
  | some p =>
      have hcode : p.1 = code := by simpa using List.find?_some hfind
      have hmem := List.mem_of_find?_eq_some hfind
      rwa [← hcode]

lemma nodup_hidUsages : (hidUsages.map fun p => p.2.toNat).Nodup := by decide +kernel

/-- **The table** gives no usage twice. -/
lemma hidUsage_apart : Apart hidUsage := by
  intro c c' hc hc' heq
  have hinj := List.inj_on_of_nodup_map nodup_hidUsages
    (mem_hidUsages hc.2.1) (mem_hidUsages hc'.2.1) (congrArg UInt8.toNat heq)
  exact congrArg Prod.fst hinj

/-! ## What the keyboard represents -/

section represents

variable (usage : ℕ → UInt8)

/-- The usages that the slots show. -/
def slotUsages (held : List ℕ) : List UInt8 := (held.filter fun c => usage c < 0xE0).map usage

/-- The keyboard shows the codes of the list, which were pressed in this order. -/
structure Represents (k : HidKbd) (held : List ℕ) : Prop where
  nodup : held.Nodup
  usable : ∀ c ∈ held, Usable usage c
  down : ∀ c, k.down c = true ↔ c ∈ held
  keys : Holds k.keys 0 (slotUsages usage held)
  mods : ∀ i < 8, k.mods.toNat.testBit i = true ↔ ∃ c ∈ held, (usage c).toNat = 0xE0 + i

/-- What a call answers when these codes are held. -/
def answer (held : List ℕ) (code : ℕ) (value : ℤ) : HidKey :=
  if ¬Usable usage code then .noUsage
  else if value ≠ 0 ∧ value ≠ 1 then .same
  else if value = 1 ↔ code ∈ held then .same
  else if value = 1 ∧ usage code < 0xE0 ∧ (slotUsages usage held).length = 6 then .rollover
  else .changed

end represents

/-- An accepted press comes last, an accepted release takes the code out. -/
def follow (held : List ℕ) (code : ℕ) (value : ℤ) (a : HidKey) : List ℕ :=
  if a = .changed then (if value = 1 then held ++ [code] else held.erase code) else held

lemma represents_empty (usage : ℕ → UInt8) : Represents usage {} [] where
  nodup := List.nodup_nil
  usable := by simp
  down := by simp
  keys := holds_replicate 6 0
  mods i _ := by simp

/-! ## Modifiers -/

lemma toNat_modBit {u : UInt8} (hu : 0xE0 ≤ u ∧ u ≤ 0xE7) :
    (modBit u).toNat = 2 ^ (u.toNat - 0xE0) := by
  have hall : ∀ j : Fin 8, (modBit (UInt8.ofNat (0xE0 + j))).toNat =
      2 ^ ((UInt8.ofNat (0xE0 + j)).toNat - 0xE0) := by decide
  obtain ⟨j, rfl⟩ : ∃ j : Fin 8, u = UInt8.ofNat (0xE0 + j) := by
    have hlow : 0xE0 ≤ u.toNat := UInt8.le_iff_toNat_le.mp hu.1
    have hhigh : u.toNat ≤ 0xE7 := UInt8.le_iff_toNat_le.mp hu.2
    refine ⟨⟨u.toNat - 0xE0, by omega⟩, ?_⟩
    rw [Nat.add_sub_cancel' hlow, UInt8.ofNat_toNat]
  exact hall j

lemma testBit_modBit {u : UInt8} (hu : 0xE0 ≤ u ∧ u ≤ 0xE7) (i : ℕ) :
    (modBit u).toNat.testBit i = decide (u.toNat = 0xE0 + i) := by
  have hlow : 0xE0 ≤ u.toNat := UInt8.le_iff_toNat_le.mp hu.1
  rw [toNat_modBit hu, Nat.testBit_two_pow, decide_eq_decide]
  omega

lemma testBit_or (m b : UInt8) (i : ℕ) :
    (m ||| b).toNat.testBit i = (m.toNat.testBit i || b.toNat.testBit i) := by
  rw [UInt8.toNat_or, Nat.testBit_or]

lemma testBit_and_not (m b : UInt8) {i : ℕ} (hi : i < 8) :
    (m &&& ~~~b).toNat.testBit i = (m.toNat.testBit i && !b.toNat.testBit i) := by
  have hnot : (~~~b).toNat.testBit i = !b.toNat.testBit i := by
    rw [← UInt8.toNat_toBitVec, ← UInt8.toNat_toBitVec, BitVec.testBit_toNat, BitVec.testBit_toNat,
      UInt8.toBitVec_not, BitVec.getLsbD_not, decide_eq_true hi, Bool.true_and]
  rw [UInt8.toNat_and, Nat.testBit_and, hnot]

/-! ## Slots -/

section slots

variable {usage : ℕ → UInt8} {held : List ℕ} {c : ℕ}

lemma slotUsages_append_of_lt (hc : usage c < 0xE0) :
    slotUsages usage (held ++ [c]) = slotUsages usage held ++ [usage c] := by
  simp [slotUsages, hc]

lemma slotUsages_append_of_le (hc : ¬usage c < 0xE0) :
    slotUsages usage (held ++ [c]) = slotUsages usage held := by
  simp [slotUsages, hc]

lemma nodup_slotUsages (hap : Apart usage) (hnodup : held.Nodup)
    (husable : ∀ c ∈ held, Usable usage c) : (slotUsages usage held).Nodup := by
  refine (hnodup.filter _).map_on fun c hc c' hc' heq => ?_
  exact hap c c' (husable c (List.mem_of_mem_filter hc)) (husable c' (List.mem_of_mem_filter hc')) heq

lemma zero_not_mem_slotUsages (husable : ∀ c ∈ held, Usable usage c) :
    0 ∉ slotUsages usage held := by
  intro hmem
  obtain ⟨c, hc, hzero⟩ := List.mem_map.mp hmem
  exact (husable c (List.mem_of_mem_filter hc)).2.1 hzero

lemma mem_slotUsages (hap : Apart usage) (husable : ∀ c ∈ held, Usable usage c)
    (hc : Usable usage c) : usage c ∈ slotUsages usage held ↔ c ∈ held ∧ usage c < 0xE0 := by
  constructor
  · intro hmem
    obtain ⟨c', hc', heq⟩ := List.mem_map.mp hmem
    have hheld := List.mem_of_mem_filter hc'
    have hlow : usage c' < 0xE0 := by simpa using (List.mem_filter.mp hc').2
    obtain rfl := hap c' c (husable c' hheld) hc heq
    exact ⟨hheld, hlow⟩
  · rintro ⟨hheld, hlow⟩
    exact List.mem_map.mpr ⟨c, List.mem_filter.mpr ⟨hheld, by simpa using hlow⟩, rfl⟩

lemma slotUsages_erase_of_lt (hap : Apart usage) (hnodup : held.Nodup)
    (husable : ∀ c ∈ held, Usable usage c) (hc : Usable usage c) :
    slotUsages usage (held.erase c) = (slotUsages usage held).erase (usage c) := by
  rw [(nodup_slotUsages hap hnodup husable).erase_eq_filter, hnodup.erase_eq_filter, slotUsages,
    slotUsages, List.filter_map, List.filter_filter, List.filter_filter]
  congr 1
  refine List.filter_congr fun d hd => ?_
  have hiff : d = c ↔ usage d = usage c :=
    ⟨fun heq => heq ▸ rfl, fun heq => hap d c (husable d hd) hc heq⟩
  simp only [Function.comp_apply, bne, Bool.and_comm]
  congr 2
  rw [Bool.eq_iff_iff, beq_iff_eq, beq_iff_eq, hiff]

lemma slotUsages_erase_of_le (hnodup : held.Nodup) (hc : ¬usage c < 0xE0) :
    slotUsages usage (held.erase c) = slotUsages usage held := by
  rw [hnodup.erase_eq_filter, slotUsages, slotUsages, List.filter_filter]
  congr 1
  refine List.filter_congr fun d _ => ?_
  by_cases hd : d = c
  · simp [hd, hc]
  · simp [hd]

end slots

/-- A key that leaves its slot is closed up over. -/
lemma holds_leave {keys : Vector UInt8 6} {l : List UInt8} {u : UInt8} (h : Holds keys 0 l)
    (hu : u ∈ l) : Holds (leave keys u) 0 (l.erase u) := by
  obtain ⟨hi, hfind⟩ := h.findFinIdx?_mem hu
  have hidx := List.idxOf_lt_length_of_mem hu
  have hleave : (leave keys u).toList = keys.toList.eraseIdx (l.idxOf u) ++ [0] := by
    have hlen : (keys.toList.eraseIdx (l.idxOf u)).length = 5 := by
      rw [List.length_eraseIdx_of_lt (by rwa [Vector.length_toList]), Vector.length_toList]
    rw [leave, hfind]
    apply List.ext_getElem
    · rw [Vector.length_toList, List.length_append, hlen, List.length_singleton]
    · intro j hj hj'
      rw [Vector.length_toList] at hj
      rw [Vector.getElem_toList, Vector.getElem_ofFn]
      by_cases hlast : j < 5
      · rw [List.getElem_append_left (by omega), List.getElem_eraseIdx]
        by_cases hbefore : j < l.idxOf u
        · rw [if_pos (Fin.lt_def.mpr hbefore), dif_pos hbefore]
          rfl
        · rw [if_neg (Fin.lt_def.not.mpr hbefore), dif_neg hbefore,
            dif_pos (show j + 1 < 6 by omega)]
          rfl
      · have hj5 : j = 5 := by omega
        subst hj5
        rw [List.getElem_append_right (by omega), if_neg (by simp only [Fin.lt_def]; omega),
          dif_neg (by simp)]
        simp [hlen]
  have herase := h.closeUp hidx hleave
  rwa [← List.erase_eq_eraseIdx_of_idxOf rfl] at herase

/-! ## Calls -/

section calls

variable {usage : ℕ → UInt8} {k : HidKbd} {held : List ℕ} {code : ℕ}

/-- A code that is pressed comes last, whatever the press does to the slots and the bits. -/
lemma Represents.pressed (h : Represents usage k held) (hu : Usable usage code)
    (hnew : code ∉ held) {k' : HidKbd} (hdown : k'.down = Function.update k.down code true)
    (hkeys : Holds k'.keys 0 (slotUsages usage (held ++ [code])))
    (hmods : ∀ i < 8, k'.mods.toNat.testBit i = true ↔
      k.mods.toNat.testBit i = true ∨ (usage code).toNat = 0xE0 + i) :
    Represents usage k' (held ++ [code]) where
  nodup := List.nodup_append.mpr ⟨h.nodup, List.nodup_singleton code, by
    rintro a ha b hb rfl
    exact hnew (List.mem_singleton.mp hb ▸ ha)⟩
  usable c hc := by
    rcases List.mem_append.mp hc with hold | hc
    · exact h.usable c hold
    · exact List.mem_singleton.mp hc ▸ hu
  down c := by
    rw [hdown, List.mem_append, List.mem_singleton, ← h.down c]
    by_cases hc : c = code
    · simp [hc]
    · simp [hc]
  keys := hkeys
  mods i hi := by
    rw [hmods i hi, h.mods i hi]
    constructor
    · rintro (⟨c, hc, heq⟩ | heq)
      · exact ⟨c, List.mem_append_left _ hc, heq⟩
      · exact ⟨code, by simp, heq⟩
    · rintro ⟨c, hc, heq⟩
      rcases List.mem_append.mp hc with hold | hc
      · exact .inl ⟨c, hold, heq⟩
      · exact .inr (List.mem_singleton.mp hc ▸ heq)

/-- A code that is let go is held no more. -/
lemma Represents.released (hap : Apart usage) (h : Represents usage k held) (hold : code ∈ held)
    {k' : HidKbd} (hdown : k'.down = Function.update k.down code false)
    (hkeys : Holds k'.keys 0 (slotUsages usage (held.erase code)))
    (hmods : ∀ i < 8, k'.mods.toNat.testBit i = true ↔
      k.mods.toNat.testBit i = true ∧ (usage code).toNat ≠ 0xE0 + i) :
    Represents usage k' (held.erase code) where
  nodup := h.nodup.erase code
  usable c hc := h.usable c (List.mem_of_mem_erase hc)
  down c := by
    rw [hdown, h.nodup.mem_erase_iff, ← h.down c]
    by_cases hc : c = code
    · simp [hc]
    · simp [hc]
  keys := hkeys
  mods i hi := by
    rw [hmods i hi, h.mods i hi]
    constructor
    · rintro ⟨⟨c, hc, heq⟩, hne⟩
      refine ⟨c, h.nodup.mem_erase_iff.mpr ⟨?_, hc⟩, heq⟩
      rintro rfl
      exact hne heq
    · rintro ⟨c, hc, heq⟩
      obtain ⟨hne, hc⟩ := h.nodup.mem_erase_iff.mp hc
      refine ⟨⟨c, hc, heq⟩, fun heq' => hne ?_⟩
      exact hap c code (h.usable c hc) (h.usable code hold)
        (UInt8.toNat_inj.mp (heq.trans heq'.symm))

lemma Usable.modifier (hu : Usable usage code) (hmod : 0xE0 ≤ usage code) :
    0xE0 ≤ usage code ∧ usage code ≤ 0xE7 := by
  refine ⟨hmod, ?_⟩
  rcases hu.2.2 with hlow | hhigh
  · have hlow' : (usage code).toNat ≤ 0x65 := UInt8.le_iff_toNat_le.mp hlow
    have hmod' : 0xE0 ≤ (usage code).toNat := UInt8.le_iff_toNat_le.mp hmod
    omega
  · exact hhigh.2

/-- A modifier has a bit. -/
lemma Represents.key_modifier (hap : Apart usage) (h : Represents usage k held)
    (hu : Usable usage code) (hmod : 0xE0 ≤ usage code) {value : ℤ} (hv : value = 0 ∨ value = 1)
    (hchange : ¬(value = 1 ↔ code ∈ held)) :
    (k.key usage code value).2 = .changed ∧
      Represents usage (k.key usage code value).1 (follow held code value .changed) := by
  have hbit := testBit_modBit (hu.modifier hmod)
  have hslot : ¬usage code < 0xE0 := UInt8.not_lt.mpr hmod
  have hdown : ¬decide (value = 1) = k.down code := by
    rw [Bool.eq_iff_iff, decide_eq_true_iff, h.down]
    exact hchange
  rw [key, if_neg (not_not.mpr hu), if_neg (show ¬(value ≠ 0 ∧ value ≠ 1) by omega), if_neg hdown]
  dsimp only
  rw [if_pos hmod]
  refine ⟨rfl, ?_⟩
  rw [follow, if_pos rfl]
  by_cases hone : value = 1
  · have hnew : code ∉ held := fun hc => hchange ⟨fun _ => hc, fun _ => hone⟩
    rw [if_pos hone, if_pos hone]
    refine h.pressed hu hnew ?_ ?_ fun i _ => ?_
    · dsimp only
      rw [decide_eq_true hone]
    · rw [slotUsages_append_of_le hslot]
      exact h.keys
    · dsimp only
      rw [testBit_or, hbit, Bool.or_eq_true, decide_eq_true_iff]
  · have hold : code ∈ held := by
      by_contra hc
      exact hchange ⟨fun h1 => absurd h1 hone, fun hc' => absurd hc' hc⟩
    rw [if_neg hone, if_neg hone]
    refine h.released hap hold ?_ ?_ fun i hi => ?_
    · dsimp only
      rw [decide_eq_false hone]
    · rw [slotUsages_erase_of_le h.nodup hslot]
      exact h.keys
    · dsimp only
      rw [testBit_and_not _ _ hi, hbit, Bool.and_eq_true, Bool.not_eq_true',
        decide_eq_false_iff_not]

/-- Without a slot left a key is refused. -/
lemma Represents.key_full (h : Represents usage k held) (hu : Usable usage code)
    (hslot : usage code < 0xE0) (hnew : code ∉ held) (hfull : (slotUsages usage held).length = 6) :
    k.key usage code 1 = (k, .rollover) := by
  have hmod : ¬0xE0 ≤ usage code := UInt8.not_le.mpr hslot
  have hdown : ¬decide ((1 : ℤ) = 1) = k.down code := by
    rw [Bool.eq_iff_iff, decide_eq_true_iff, h.down]
    exact fun hiff => hnew (hiff.mp rfl)
  rw [key, if_neg (not_not.mpr hu), if_neg (by decide), if_neg hdown]
  dsimp only
  rw [if_neg hmod, if_pos rfl, h.keys.findFinIdx?_blank (zero_not_mem_slotUsages h.usable),
    dif_neg (by omega)]

/-- With one it is taken. -/
lemma Represents.key_slot (hap : Apart usage) (h : Represents usage k held)
    (hu : Usable usage code) (hslot : usage code < 0xE0) {value : ℤ}
    (hv : value = 0 ∨ value = 1) (hchange : ¬(value = 1 ↔ code ∈ held))
    (hroom : value = 1 → (slotUsages usage held).length < 6) :
    (k.key usage code value).2 = .changed ∧
      Represents usage (k.key usage code value).1 (follow held code value .changed) := by
  have hmod : ¬0xE0 ≤ usage code := UInt8.not_le.mpr hslot
  have hdown : ¬decide (value = 1) = k.down code := by
    rw [Bool.eq_iff_iff, decide_eq_true_iff, h.down]
    exact hchange
  -- no modifier has the usage of the key
  have hnobit (i : ℕ) : (usage code).toNat ≠ 0xE0 + i := by
    have hlt : (usage code).toNat < 0xE0 := UInt8.lt_iff_toNat_lt.mp hslot
    omega
  rw [key, if_neg (not_not.mpr hu), if_neg (show ¬(value ≠ 0 ∧ value ≠ 1) by omega), if_neg hdown]
  dsimp only
  rw [if_neg hmod, follow, if_pos rfl]
  by_cases hone : value = 1
  · have hnew : code ∉ held := fun hc => hchange ⟨fun _ => hc, fun _ => hone⟩
    rw [if_pos hone, h.keys.findFinIdx?_blank (zero_not_mem_slotUsages h.usable),
      dif_pos (hroom hone), if_pos hone]
    refine ⟨rfl, h.pressed hu hnew ?_ ?_ fun i _ => ?_⟩
    · dsimp only
      rw [decide_eq_true hone]
    · rw [slotUsages_append_of_lt hslot]
      exact h.keys.set (hroom hone)
    · simp [hnobit i]
  · have hold : code ∈ held := by
      by_contra hc
      exact hchange ⟨fun h1 => absurd h1 hone, fun hc' => absurd hc' hc⟩
    rw [if_neg hone, if_neg hone]
    refine ⟨rfl, h.released hap hold ?_ ?_ fun i _ => ?_⟩
    · dsimp only
      rw [decide_eq_false hone]
    · rw [slotUsages_erase_of_lt hap h.nodup h.usable hu]
      exact holds_leave h.keys ((mem_slotUsages hap h.usable hu).mpr ⟨hold, hslot⟩)
    · simp [hnobit i]

/-- **One call**: it answers what the held codes call for, and follows them. -/
lemma Represents.key (hap : Apart usage) (h : Represents usage k held) (code : ℕ) (value : ℤ) :
    (k.key usage code value).2 = answer usage held code value ∧
      Represents usage (k.key usage code value).1
        (follow held code value (answer usage held code value)) := by
  by_cases hu : Usable usage code
  · by_cases hv : value ≠ 0 ∧ value ≠ 1
    · rw [answer, if_neg (not_not.mpr hu), if_pos hv, HidKbd.key, if_neg (not_not.mpr hu),
        if_pos hv]
      exact ⟨rfl, h⟩
    · have hv' : value = 0 ∨ value = 1 := by omega
      by_cases hsame : value = 1 ↔ code ∈ held
      · have hdown : decide (value = 1) = k.down code := by
          rw [Bool.eq_iff_iff, decide_eq_true_iff, h.down]
          exact hsame
        rw [answer, if_neg (not_not.mpr hu), if_neg hv, if_pos hsame, HidKbd.key,
          if_neg (not_not.mpr hu), if_neg hv, if_pos hdown]
        exact ⟨rfl, h⟩
      · rw [answer, if_neg (not_not.mpr hu), if_neg hv, if_neg hsame]
        by_cases hslot : usage code < 0xE0
        · by_cases hfull : value = 1 ∧ (slotUsages usage held).length = 6
          · obtain ⟨rfl, hlen⟩ := hfull
            have hnew : code ∉ held := fun hc => hsame ⟨fun _ => hc, fun _ => rfl⟩
            rw [if_pos ⟨rfl, hslot, hlen⟩, h.key_full hu hslot hnew hlen]
            exact ⟨rfl, h⟩
          · rw [if_neg fun hf => hfull ⟨hf.1, hf.2.2⟩]
            refine h.key_slot hap hu hslot hv' hsame fun hone => ?_
            exact h.keys.room.lt_of_ne fun hlen => hfull ⟨hone, hlen⟩
        · rw [if_neg fun hf => hslot hf.2.1]
          exact h.key_modifier hap hu (UInt8.not_lt.mp hslot) hv' hsame
  · rw [answer, if_pos hu, HidKbd.key, if_pos hu]
    exact ⟨rfl, h⟩

/-- The codes that are shown are the codes that are held. -/
lemma Represents.eq_empty (h : Represents usage k []) : k = {} := by
  have hkeys : k.keys = Vector.replicate 6 0 := by
    rw [← Vector.toList_inj, h.keys.eq]
    rfl
  have hmods : k.mods = 0 := by
    have hbit : ∀ i < 8, k.mods.toNat.testBit i = false := fun i hi => by
      have hnone := (h.mods i hi).not.mpr (by simp)
      simpa using hnone
    refine UInt8.toNat_inj.mp (Nat.eq_of_testBit_eq fun i => ?_)
    by_cases hi : i < 8
    · rw [hbit i hi]
      simp
    · have hlt : k.mods.toNat < 2 ^ i :=
        k.mods.toNat_lt.trans_le (Nat.pow_le_pow_right (by decide) (not_lt.mp hi))
      rw [Nat.testBit_lt_two_pow hlt]
      simp
  have hdown : k.down = fun _ => false := by
    funext c
    have hnone := (h.down c).not.mpr (by simp)
    simpa using hnone
  cases k
  subst hkeys hmods hdown
  rfl

end calls

/-! ## Runs -/

/-- A call, and the codes held so far: an accepted press comes last, an accepted release takes the
code out. -/
def call (p : HidKbd × List ℕ) (c : ℕ × ℤ) : HidKbd × List ℕ :=
  let r := p.1.key hidUsage c.1 c.2
  (r.1, follow p.2 c.1 c.2 r.2)

/-- After the calls, from the empty state. -/
def called (calls : List (ℕ × ℤ)) : HidKbd × List ℕ := calls.foldl call ({}, [])

lemma represents_called (calls : List (ℕ × ℤ)) :
    Represents hidUsage (called calls).1 (called calls).2 := by
  refine run_keeps (P := fun p : HidKbd × List ℕ => Represents hidUsage p.1 p.2) (fun p c hp => ?_)
    (represents_empty hidUsage) calls
  obtain ⟨hanswer, hnext⟩ := hp.key hidUsage_apart c.1 c.2
  rw [call, hanswer]
  exact hnext

/-- A call that is not answered with a change changes nothing. -/
lemma key_eq_of_ne {usage : ℕ → UInt8} {k : HidKbd} {code : ℕ} {value : ℤ}
    (h : (k.key usage code value).2 ≠ .changed) : (k.key usage code value).1 = k := by
  obtain ⟨hsame, -⟩ | ⟨-, hchanged, -⟩ := HidInput.key_cases usage k code value
  · exact hsame
  · exact absurd hchanged h

/-- A code that is not held cannot be let go. -/
lemma answer_release {usage : ℕ → UInt8} {held : List ℕ} {code : ℕ} (h : code ∉ held) :
    answer usage held code 0 ≠ .changed := by
  by_cases hu : Usable usage code
  · rw [answer, if_neg (not_not.mpr hu), if_neg (by decide), if_pos (iff_of_false (by decide) h)]
    nofun
  · rw [answer, if_pos hu]
    nofun

lemma not_mem_of_rollover {usage : ℕ → UInt8} {held : List ℕ} {code : ℕ}
    (h : answer usage held code 1 = .rollover) : code ∉ held := by
  intro hc
  by_cases hu : Usable usage code
  · rw [answer, if_neg (not_not.mpr hu), if_neg (by decide), if_pos (iff_of_true rfl hc)] at h
    exact nomatch h
  · rw [answer, if_pos hu] at h
    exact nomatch h

/-- The slots, the modifier byte and the bitmap all show the codes that are held, in the order in
which they were pressed, and so does the report; a press that is refused is not held, and its
release changes nothing. -/
structure Shows (k : HidKbd) (held : List ℕ) : Prop where
  represents : Represents hidUsage k held
  nodup : (slotUsages hidUsage held).Nodup
  answers : ∀ code value, (k.key hidUsage code value).2 = answer hidUsage held code value
  refused : ∀ code, (k.key hidUsage code 1).2 = .rollover →
    code ∉ held ∧ (k.key hidUsage code 1).1 = k
  released : ∀ code, code ∉ held → (k.key hidUsage code 0).1 = k
  report : k.report = k.mods :: 0 :: (slotUsages hidUsage held ++
    List.replicate (6 - (slotUsages hidUsage held).length) 0)
  empty : held = [] → k = {} ∧ k.report = List.replicate 8 0

/-- **The keyboard** after any calls. -/
theorem kbd_holds (calls : List (ℕ × ℤ)) : Shows (called calls).1 (called calls).2 := by
  have h := represents_called calls
  have hanswer (code : ℕ) (value : ℤ) := (h.key hidUsage_apart code value).1
  refine ⟨h, nodup_slotUsages hidUsage_apart h.nodup h.usable, hanswer, fun code hroll => ?_,
    fun code hc => ?_, ?_, fun hnone => ?_⟩
  · refine ⟨not_mem_of_rollover ((hanswer code 1).symm.trans hroll), key_eq_of_ne ?_⟩
    rw [hroll]
    nofun
  · refine key_eq_of_ne ?_
    rw [hanswer]
    exact answer_release hc
  · rw [HidKbd.report, h.keys.eq]
  · have hk : (called calls).1 = {} := (hnone ▸ h).eq_empty
    exact ⟨hk, by rw [hk]; rfl⟩

/-- Shift and H. -/
example : (called [(42, 1), (35, 1)]).1.report = [0x02, 0, 0x0B, 0, 0, 0, 0, 0] := by decide +kernel

end HidKbd

end Sremfb
