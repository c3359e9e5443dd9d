/- path: Scand/Onec/AddressClasses
   layer: results
   digest: The classes of addresses that the two checks tell apart, as blocks of addresses. -/

import Scand.Onec.Preflight

set_option autoImplicit false
set_option relaxedAutoImplicit false

namespace Scand.Onec.AddressClasses

open Scand.Foundation.InternetAddress
open Scand.Foundation.PlaceValue
open Scand.Foundation.TextCuts
open Scand.Onec.Strings
open Scand.Onec.UrlNormalizer
open Scand.Onec.Preflight

def loopback4 : Block 32 := ⟨ip4 127 0 0 0, 8⟩

def thisNetwork4 : Block 32 := ⟨ip4 0 0 0 0, 8⟩

def multicast4 : Block 32 := ⟨ip4 224 0 0 0, 4⟩

def reserved4 : Block 32 := ⟨ip4 240 0 0 0, 4⟩

def private4 : List (Block 32) :=
  [⟨ip4 10 0 0 0, 8⟩, ⟨ip4 172 16 0 0, 12⟩, ⟨ip4 192 168 0 0, 16⟩, ⟨ip4 169 254 0 0, 16⟩,
    ⟨ip4 100 64 0 0, 10⟩]

def loopback6 : Block 128 := ⟨1#128, 128⟩

def private6 : List (Block 128) := [⟨0xFC#128 <<< 120, 7⟩, ⟨0xFE80#128 <<< 112, 10⟩]

/-- The blocks of IPv4 that the connection test takes for internal or unusable. -/
def nonGlobal4 : List (Block 32) :=
  loopback4 :: thisNetwork4 :: multicast4 :: reserved4 :: private4

/-- An address of one of these blocks, by its family. -/
def OfBlocks (blocks4 : List (Block 32)) (blocks6 : List (Block 128)) : Address → Prop
  | .v4 h => InAny blocks4 h
  | .v6 a => InAny blocks6 a

def MappedOf (blocks4 : List (Block 32)) : Address → Prop
  | .v4 _ => False
  | .v6 a => mappedBlock.Contains a ∧ InAny blocks4 (low32 a)

def Loopback : Address → Prop := OfBlocks [loopback4] [loopback6]

def Private : Address → Prop := OfBlocks (thisNetwork4 :: private4) private6

def Global (a : Address) : Prop :=
  ¬ OfBlocks nonGlobal4 (loopback6 :: private6) a ∧ ¬ MappedOf nonGlobal4 a

def LocalName (text : Text) : Prop :=
  toLower text = localhost ∨ toLower text = localhost ++ ['.']

section Fours

variable (h : BitVec 32)

private theorem low_byte : (h &&& 255#32).toNat = h.toNat % 256 := by
  rw [BitVec.toNat_and]
  exact Nat.and_two_pow_sub_one_eq_mod h.toNat 8

theorem inAny_private4 : InAny private4 h ↔
    h.toNat / 2 ^ 24 = 10 ∨ h.toNat / 2 ^ 20 = 0xAC1 ∨ h.toNat / 2 ^ 16 = 0xC0A8 ∨
      h.toNat / 2 ^ 16 = 0xA9FE ∨ h.toNat / 2 ^ 22 = 0x191 := by
  simp only [private4, inAny_cons, inAny_nil, or_false, contains_iff]
  exact Iff.rfl

theorem contains_loopback4 : loopback4.Contains h ↔ h.toNat / 2 ^ 24 = 127 := contains_iff

theorem contains_thisNetwork4 : thisNetwork4.Contains h ↔ h.toNat / 2 ^ 24 = 0 := contains_iff

theorem contains_multicast4 : multicast4.Contains h ↔ h.toNat / 2 ^ 28 = 14 := contains_iff

theorem contains_reserved4 : reserved4.Contains h ↔ h.toNat / 2 ^ 28 = 15 := contains_iff

private theorem two_octets_iff (n : Nat) :
    ((n / 2 ^ 24 = 172 ∧ 16 ≤ n / 2 ^ 16 % 256) ∧ n / 2 ^ 16 % 256 ≤ 31 ↔ n / 2 ^ 20 = 0xAC1) ∧
    (n / 2 ^ 24 = 192 ∧ n / 2 ^ 16 % 256 = 168 ↔ n / 2 ^ 16 = 0xC0A8) ∧
    (n / 2 ^ 24 = 169 ∧ n / 2 ^ 16 % 256 = 254 ↔ n / 2 ^ 16 = 0xA9FE) ∧
    ((n / 2 ^ 24 = 100 ∧ 64 ≤ n / 2 ^ 16 % 256) ∧ n / 2 ^ 16 % 256 ≤ 127 ↔ n / 2 ^ 22 = 0x191) := by
  refine ⟨?_, ?_, ?_, ?_⟩ <;> omega

theorem isPrivate4_iff : isPrivate4 h = true ↔ InAny (thisNetwork4 :: private4) h := by
  obtain ⟨inner, home, link, shared⟩ := two_octets_iff h.toNat
  rw [inAny_cons, contains_thisNetwork4, inAny_private4, ← inner, ← home, ← link, ← shared]
  simp only [isPrivate4, Bool.or_eq_true, Bool.and_eq_true, decide_eq_true_eq, ← BitVec.toNat_inj,
    BitVec.le_def, ge_iff_le, low_byte, BitVec.toNat_ushiftRight, Nat.shiftRight_eq_div_pow,
    BitVec.toNat_ofNat, BitVec.ofNat_eq_ofNat]
  simp (disch := decide) only [Nat.mod_eq_of_lt]
  exact iff_of_eq (by ac_rfl)

theorem octet_toNat (shift : Nat) : (octet h shift).toNat = h.toNat / 2 ^ shift % 256 := by
  rw [octet, BitVec.toNat_setWidth]
  change ((h >>> shift) &&& 255#32).toNat % 256 = _
  rw [low_byte, Nat.mod_mod, BitVec.toNat_ushiftRight, Nat.shiftRight_eq_div_pow]

theorem isPrivateOrLoopback4_iff :
    isPrivateOrLoopback4 h = true ↔ InAny (loopback4 :: private4) h := by
  have first : h.toNat / 2 ^ 24 % 256 = h.toNat / 2 ^ 24 :=
    Nat.mod_eq_of_lt (Nat.div_lt_of_lt_mul h.isLt)
  obtain ⟨inner, home, link, shared⟩ := two_octets_iff h.toNat
  rw [inAny_cons, contains_loopback4, inAny_private4, ← inner, ← home, ← link, ← shared]
  simp only [isPrivateOrLoopback4, Bool.or_eq_true, Bool.and_eq_true, decide_eq_true_eq,
    ← BitVec.toNat_inj, BitVec.le_def, ge_iff_le, octet_toNat, BitVec.toNat_ofNat,
    BitVec.ofNat_eq_ofNat, first]
  simp (disch := decide) only [Nat.mod_eq_of_lt]
  exact iff_of_eq (by ac_rfl)

private theorem isGlobal4_eq : isGlobal4 h =
    !(isPrivateOrLoopback4 h || octet h 24 = 0 || (octet h 24 ≥ 224 && octet h 24 ≤ 239) ||
      octet h 24 ≥ 240) :=
  rfl

private theorem first_octet_iff : (octet h 24 = 0 ↔ thisNetwork4.Contains h) ∧
    (octet h 24 ≥ 224 ∧ octet h 24 ≤ 239 ↔ multicast4.Contains h) ∧
    (octet h 24 ≥ 240 ↔ reserved4.Contains h) := by
  have small := h.isLt
  rw [contains_thisNetwork4, contains_multicast4, contains_reserved4]
  simp only [← BitVec.toNat_inj, BitVec.le_def, ge_iff_le, octet_toNat, BitVec.toNat_ofNat,
    BitVec.ofNat_eq_ofNat]
  omega

theorem isGlobal4_iff : isGlobal4 h = true ↔ ¬ InAny nonGlobal4 h := by
  obtain ⟨zero, multicast, reserved⟩ := first_octet_iff h
  rw [isGlobal4_eq, Bool.not_eq_true', ← Bool.not_eq_true]
  simp only [Bool.or_eq_true, Bool.and_eq_true, decide_eq_true_eq, isPrivateOrLoopback4_iff, zero,
    multicast, reserved, nonGlobal4, inAny_cons]
  grind

end Fours

section Sixes

variable (a : BitVec 128)

theorem s6Addr_eq_loop6_iff : s6Addr a = loop6 ↔ loopback6.Contains a := by
  have one : loop6 = places 256 16 1 := by decide
  have small : a.toNat < 256 ^ 16 := a.isLt
  rw [one, s6Addr, places_inj small (by decide), contains_iff]
  change _ ↔ a.toNat / 2 ^ 0 = 1 / 2 ^ 0
  rw [Nat.pow_zero, Nat.div_one, Nat.div_one]

theorem isUniqueOrLinkLocal_iff : isUniqueOrLinkLocal a = true ↔ InAny private6 a := by
  have unique : ∀ x < 256, x &&& 0xFE = 0xFC ↔ x / 2 = 0x7E := by decide +kernel
  have link : ∀ x < 256, x &&& 0xC0 = 0x80 ↔ x / 64 = 2 := by decide +kernel
  have small := a.isLt
  have first : (s6Addr a).getD 0 0 = a.toNat / 2 ^ 120 % 256 := rfl
  have second : (s6Addr a).getD 1 0 = a.toNat / 2 ^ 112 % 256 := rfl
  have blocks : InAny private6 a ↔ a.toNat / 2 ^ 121 = 0x7E ∨ a.toNat / 2 ^ 118 = 0x3FA := by
    simp only [private6, inAny_cons, inAny_nil, or_false, contains_iff]
    exact Iff.rfl
  rw [blocks, isUniqueOrLinkLocal, first, second]
  simp only [Bool.or_eq_true, Bool.and_eq_true, decide_eq_true_eq,
    unique _ (Nat.mod_lt _ (by decide)), link _ (Nat.mod_lt _ (by decide))]
  omega

theorem take_eq_v4mapped_iff : (s6Addr a).take 12 = v4mapped ↔ mappedBlock.Contains a := by
  have small := a.isLt
  have mark : v4mapped = places 256 12 0xFFFF := by decide
  have front : (s6Addr a).take 12 = places 256 12 (a.toNat / 256 ^ 4) := by
    have cut : places 256 (12 + 4) a.toNat = _ := places_add 4 12 a.toNat
    rw [s6Addr, cut, List.take_left' (length_places 12 _)]
  have bound : a.toNat / 256 ^ 4 < 256 ^ 12 := by omega
  rw [front, mark, places_inj bound (by decide), contains_iff]
  exact Iff.rfl

theorem v4str_eq : v4str a = inetNtop4 (low32 a) := by
  have back : (s6Addr a).drop 12 = places 256 4 (low32 a).toNat := by
    have cut : places 256 (12 + 4) a.toNat = _ := places_add 4 12 a.toNat
    rw [s6Addr, cut, List.drop_left' (length_places 12 _), low32, BitVec.toNat_setWidth]
    exact (places_mod (b := 256) (m := 4) a.toNat (Nat.le_refl 4)).symm
  rw [v4str, back, inetNtop4]

end Sixes

section Texts

variable {text : Text}

theorem read_cases (text : Text) :
    (∃ h, inetPton4 text = some h ∧ readAddress text = some (.v4 h)) ∨
      (∃ a, inetPton4 text = none ∧ inetPton6 text = some a ∧ readAddress text = some (.v6 a)) ∨
      inetPton4 text = none ∧ inetPton6 text = none ∧ readAddress text = none := by
  cases four : inetPton4 text with
  | some h => exact Or.inl ⟨h, rfl, by rw [readAddress, four]⟩
  | none =>
      cases six : inetPton6 text with
      | some a => exact Or.inr (Or.inl ⟨a, rfl, rfl, by rw [readAddress, four, six]; rfl⟩)
      | none => exact Or.inr (Or.inr ⟨rfl, rfl, by rw [readAddress, four, six]; rfl⟩)

theorem isPrivateIp_iff :
    isPrivateIp text = true ↔ ∃ a, readAddress (cStr text) = some a ∧ Private a := by
  rcases read_cases (cStr text) with ⟨h, four, read⟩ | ⟨a, four, six, read⟩ | ⟨four, six, read⟩
  · simp [isPrivateIp, four, read, isPrivate4_iff, Private, OfBlocks]
  · simp [isPrivateIp, four, six, read, isUniqueOrLinkLocal_iff, Private, OfBlocks]
  · simp [isPrivateIp, four, six, read]

theorem isPrivateOrLoopback_iff : isPrivateOrLoopback text = true ↔
    ∃ a, readAddress (cStr text) = some a ∧
      OfBlocks (loopback4 :: private4) (loopback6 :: private6) a := by
  rcases read_cases (cStr text) with ⟨h, four, read⟩ | ⟨a, four, six, read⟩ | ⟨four, six, read⟩
  · simp [isPrivateOrLoopback, four, read, isPrivateOrLoopback4_iff, OfBlocks]
  · simp [isPrivateOrLoopback, four, six, read, isUniqueOrLinkLocal_iff, s6Addr_eq_loop6_iff,
      OfBlocks]
  · simp [isPrivateOrLoopback, four, six, read]

theorem shift_eq_iff_loopback4 (h : BitVec 32) : h >>> 24 = 127#32 ↔ loopback4.Contains h :=
  Iff.rfl

theorem isLoopbackHostname_iff : isLoopbackHostname text = true ↔
    text = localhost ∨ ∃ a, readAddress (cStr text) = some a ∧ Loopback a := by
  rw [isLoopbackHostname]
  split
  · rename_i here
    simp [here]
  · rename_i other
    rcases read_cases (cStr text) with ⟨h, four, read⟩ | ⟨a, four, six, read⟩ | ⟨four, six, read⟩
    · simp [other, four, read, shift_eq_iff_loopback4, Loopback, OfBlocks]
    · simp [other, four, six, read, s6Addr_eq_loop6_iff, Loopback, OfBlocks]
    · simp [other, four, six, read]

private theorem local_name_iff (h : Text) :
    (if h.getLast? = some '.' then h.dropLast else h) = localhost ↔
      h = localhost ∨ h = localhost ++ ['.'] := by
  split
  · rename_i dotted
    obtain ⟨front, rfl⟩ := List.getLast?_eq_some_iff.mp dotted
    rw [List.dropLast_concat, List.append_cancel_right_eq]
    constructor
    · exact Or.inr
    · intro given
      rcases given with whole | same
      · rw [whole] at dotted
        exact absurd dotted (by decide)
      · exact same
  · rename_i plain
    constructor
    · exact Or.inl
    · intro given
      rcases given with rfl | rfl
      · rfl
      · exact absurd (by decide) plain

theorem isLoopbackIp_iff : isLoopbackIp text = true ↔
    (∃ a, readAddress (cStr text) = some a ∧ Loopback a) ∨
      readAddress (cStr text) = none ∧ LocalName text := by
  rcases read_cases (cStr text) with ⟨h, four, read⟩ | ⟨a, four, six, read⟩ | ⟨four, six, read⟩
  · simp [isLoopbackIp, four, read, shift_eq_iff_loopback4, Loopback, OfBlocks]
  · simp [isLoopbackIp, four, six, read, s6Addr_eq_loop6_iff, Loopback, OfBlocks]
  · simp [isLoopbackIp, four, six, read, LocalName, local_name_iff]

theorem cStr_inetNtop (a : Address) : cStr (inetNtop a) = inetNtop a :=
  takeWhile_ne_of_notMem (zero_notMem_inetNtop a)

theorem globalStep_v4str (again : Text → Bool) (a : BitVec 128) :
    globalStep again (v4str a) = isGlobal4 (low32 a) := by
  have text : cStr (v4str a) = inetNtop4 (low32 a) := by
    rw [v4str_eq]
    exact cStr_inetNtop (.v4 (low32 a))
  rw [globalStep, text, inetPton4_inetNtop4]

/-- `is_global_ip` calls itself. -/
theorem isGlobalIp_eq (ip : Text) : isGlobalIp ip = globalStep isGlobalIp ip := by
  rw [isGlobalIp, globalStep, globalStep]
  simp only [globalStep_v4str]

theorem isGlobalIp_iff :
    isGlobalIp text = true ↔ ∃ a, readAddress (cStr text) = some a ∧ Global a := by
  rcases read_cases (cStr text) with ⟨h, four, read⟩ | ⟨a, four, six, read⟩ | ⟨four, six, read⟩
  · simp [isGlobalIp, globalStep, four, read, isGlobal4_iff, Global, OfBlocks, MappedOf]
  · have asked : isGlobalIp text =
        if s6Addr a = loop6 || isUniqueOrLinkLocal a then false
        else if (s6Addr a).take 12 = v4mapped then isGlobal4 (low32 a)
        else true := by
      rw [isGlobalIp, globalStep, four, six]
      simp only [globalStep_v4str]
    have inside : (s6Addr a = loop6 || isUniqueOrLinkLocal a) = true ↔
        InAny (loopback6 :: private6) a := by
      rw [Bool.or_eq_true, decide_eq_true_eq, s6Addr_eq_loop6_iff, isUniqueOrLinkLocal_iff, inAny_cons]
    have accepted : isGlobalIp text = true ↔ Global (.v6 a) := by
      rw [asked]
      simp only [Global, OfBlocks, MappedOf, ← inside, ← take_eq_v4mapped_iff, not_and,
        ← isGlobal4_iff]
      split
      · rename_i blocked
        simp [blocked]
      · rename_i open_here
        split
        · rename_i mapped
          simp [open_here, mapped]
        · rename_i plain
          simp [open_here, plain]
    rw [accepted, read]
    simp
  · simp [isGlobalIp, globalStep, four, six, read]

end Texts

end Scand.Onec.AddressClasses
