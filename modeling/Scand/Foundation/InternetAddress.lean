/- path: Scand/Foundation/InternetAddress
   layer: library
   digest: IPv4 and IPv6 addresses, blocks of them, and their texts: an address that is printed is read
   back as itself. -/

import Scand.Foundation.PlaceValue
import Scand.Foundation.TextCuts

set_option autoImplicit false
set_option relaxedAutoImplicit false

namespace Scand.Foundation.InternetAddress

open Scand.Foundation.PlaceValue
open Scand.Foundation.TextCuts

abbrev Text := List Char

inductive Address where
  | v4 (a : BitVec 32)
  | v6 (a : BitVec 128)
deriving DecidableEq

structure Block (w : Nat) where
  base : BitVec w
  len : Nat

def Block.Contains {w : Nat} (block : Block w) (a : BitVec w) : Prop :=
  a >>> (w - block.len) = block.base >>> (w - block.len)

instance {w : Nat} (block : Block w) (a : BitVec w) : Decidable (block.Contains a) :=
  inferInstanceAs (Decidable (_ = _))

def InAny {w : Nat} (blocks : List (Block w)) (a : BitVec w) : Prop :=
  ∃ block ∈ blocks, block.Contains a

instance {w : Nat} (blocks : List (Block w)) (a : BitVec w) : Decidable (InAny blocks a) :=
  inferInstanceAs (Decidable (∃ block ∈ blocks, block.Contains a))

def ip4 (a b c d : Nat) : BitVec 32 := BitVec.ofNat 32 (value 256 [a, b, c, d])

def mappedBlock : Block 128 := ⟨0xFFFF00000000#128, 96⟩

def low32 (a : BitVec 128) : BitVec 32 := a.setWidth 32

section Blocks

variable {w : Nat} {block : Block w} {blocks : List (Block w)} {a : BitVec w}

theorem contains_iff :
    block.Contains a ↔ a.toNat / 2 ^ (w - block.len) = block.base.toNat / 2 ^ (w - block.len) := by
  rw [Block.Contains, ← BitVec.toNat_inj, BitVec.toNat_ushiftRight, BitVec.toNat_ushiftRight,
    Nat.shiftRight_eq_div_pow, Nat.shiftRight_eq_div_pow]

@[simp] theorem inAny_nil : InAny [] a ↔ False := by
  simp [InAny]

@[simp] theorem inAny_cons : InAny (block :: blocks) a ↔ block.Contains a ∨ InAny blocks a := by
  simp [InAny]

end Blocks

section Dotted

def readOctet (text : Text) : Option Nat :=
  if text ≠ [] ∧ text.all Char.isDigit ∧ (text.length = 1 ∨ text.head? ≠ some '0') ∧
      Nat.ofDigitChars 10 text 0 ≤ 255 then
    some (Nat.ofDigitChars 10 text 0)
  else none

def inetPton4 (text : Text) : Option (BitVec 32) :=
  match (text.splitOn '.').mapM readOctet with
  | some [a, b, c, d] => some (ip4 a b c d)
  | _ => none

def inetNtop4 (a : BitVec 32) : Text :=
  ['.'].intercalate ((places 256 4 a.toNat).map (Nat.toDigits 10))

end Dotted

section Words

def readWord (text : Text) : Option Nat :=
  if text ≠ [] ∧ text.length ≤ 4 then readHex text else none

/-- The words of groups of hexadecimal digits; where `quad` is set, the last group may be a dotted IPv4
address. -/
def readGroups (quad : Bool) : List Text → Option (List Nat)
  | [] => some []
  | group :: groups =>
      match readWord group with
      | some word => (readGroups quad groups).map (word :: ·)
      | none =>
          if quad && groups.isEmpty then (inetPton4 group).map fun a => places 65536 2 a.toNat
          else none

def groupsOf (text : Text) : List Text := if text = [] then [] else text.splitOn ':'

def ofWords (words : List Nat) : BitVec 128 := BitVec.ofNat 128 (value 65536 words)

/-- `inet_pton` of the family `AF_INET6`: eight words, or fewer around one `::`. -/
def inetPton6 (text : Text) : Option (BitVec 128) :=
  match cutAt [':', ':'] text with
  | none =>
      match readGroups true (text.splitOn ':') with
      | some words => if words.length = 8 then some (ofWords words) else none
      | none => none
  | some (left, right) =>
      match readGroups false (groupsOf left), readGroups true (groupsOf right) with
      | some first, some last =>
          if first.length + last.length < 8 then
            some (ofWords (first ++ List.replicate (8 - (first.length + last.length)) 0 ++ last))
          else none
      | _, _ => none

def zeroRun (words : List Nat) (start : Nat) : Nat :=
  ((words.drop start).takeWhile (· = 0)).length

/-- The first one of the longest runs of zero words: its start and its length. -/
def bestRun (words : List Nat) : Nat × Nat :=
  (List.range words.length).foldl
    (fun best start => if best.2 < zeroRun words start then (start, zeroRun words start) else best)
    (0, 0)

def groupsText (words : List Nat) : Text := [':'].intercalate (words.map (Nat.toDigits 16))

/-- `inet_ntop` of the family `AF_INET6`: a run of two or more zero words is left out, and an IPv4
address at the end of one is dotted. -/
def inetNtop6 (a : BitVec 128) : Text :=
  let words := places 65536 8 a.toNat
  let (start, len) := bestRun words
  if len < 2 then groupsText words
  else if start = 0 ∧ len = 6 then [':', ':'] ++ inetNtop4 (low32 a)
  else if start = 0 ∧ len = 5 ∧ words[5]? = some 0xFFFF then
    [':', ':', 'f', 'f', 'f', 'f', ':'] ++ inetNtop4 (low32 a)
  else groupsText (words.take start) ++ [':', ':'] ++ groupsText (words.drop (start + len))

end Words

def inetNtop : Address → Text
  | .v4 a => inetNtop4 a
  | .v6 a => inetNtop6 a

def readAddress (text : Text) : Option Address :=
  match inetPton4 text with
  | some a => some (.v4 a)
  | none => (inetPton6 text).map .v6

section DottedTexts

theorem readOctet_toDigits {n : Nat} (small : n < 256) : readOctet (Nat.toDigits 10 n) = some n := by
  have all : ∀ n < 256, readOctet (Nat.toDigits 10 n) = some n := by decide +kernel
  exact all n small

theorem mapM_map_of_inverse {α β : Type} {f : β → Option α} {g : α → β} {l : List α}
    (inverse : ∀ x ∈ l, f (g x) = some x) : (l.map g).mapM f = some l := by
  induction l with
  | nil => rfl
  | cons x l ih =>
      have tail := ih fun y mem => inverse y (List.mem_cons_of_mem _ mem)
      rw [List.map_cons, List.mapM_cons, inverse x List.mem_cons_self, tail]
      rfl

theorem mapM_eq_none {α β : Type} {f : α → Option β} {l : List α} {x : α} (mem : x ∈ l)
    (refused : f x = none) : l.mapM f = none := by
  induction l with
  | nil => cases mem
  | cons y l ih =>
      rw [List.mapM_cons]
      rcases List.mem_cons.mp mem with rfl | later
      · rw [refused]
        rfl
      · rw [ih later]
        cases f y <;> rfl

theorem notMem_decimal {c : Char} (other : c.isDigit = false) (n : Nat) :
    c ∉ Nat.toDigits 10 n := by
  intro mem
  have digit := Nat.isDigit_of_mem_toDigits (by decide) (by decide) mem
  rw [other] at digit
  cases digit

theorem notMem_inetNtop4 {c : Char} (other : c.isDigit = false) (dot : c ≠ '.') (a : BitVec 32) :
    c ∉ inetNtop4 a := by
  intro mem
  rcases mem_intercalate mem with same | ⟨piece, listed, inside⟩
  · exact dot same
  · obtain ⟨n, -, rfl⟩ := List.mem_map.mp listed
    exact notMem_decimal other n inside

theorem colon_notMem_inetNtop4 (a : BitVec 32) : ':' ∉ inetNtop4 a :=
  notMem_inetNtop4 (by decide) (by decide) a

theorem inetPton4_inetNtop4 (a : BitVec 32) : inetPton4 (inetNtop4 a) = some a := by
  have pieces : (inetNtop4 a).splitOn '.' = (places 256 4 a.toNat).map (Nat.toDigits 10) := by
    apply List.splitOn_intercalate
    · intro piece listed
      obtain ⟨n, -, rfl⟩ := List.mem_map.mp listed
      exact notMem_decimal (by decide) n
    · simp [places]
  have read : ((places 256 4 a.toNat).map (Nat.toDigits 10)).mapM readOctet =
      some (places 256 4 a.toNat) :=
    mapM_map_of_inverse fun n mem => readOctet_toDigits (places_lt 4 a.toNat (by decide) n mem)
  have whole : BitVec.ofNat 32 (value 256 (places 256 4 a.toNat)) = a := by
    apply BitVec.eq_of_toNat_eq
    have small := a.isLt
    rw [value_places, BitVec.toNat_ofNat]
    omega
  rw [inetPton4, pieces, read]
  exact congrArg some whole

theorem inetPton4_of_colon {text : Text} (colon : ':' ∈ text) : inetPton4 text = none := by
  obtain ⟨piece, listed, inside⟩ := mem_splitOn colon (x := '.') (by decide)
  have refused : readOctet piece = none := by
    apply if_neg
    intro given
    have digit := List.all_eq_true.mp given.2.1 ':' inside
    exact absurd digit (by decide)
  rw [inetPton4, mapM_eq_none listed refused]

end DottedTexts

section GroupTexts

variable {words : List Nat}

theorem ofWords_places (a : BitVec 128) : ofWords (places 65536 8 a.toNat) = a := by
  apply BitVec.eq_of_toNat_eq
  have small := a.isLt
  rw [ofWords, value_places, BitVec.toNat_ofNat]
  omega

theorem notMem_hex {c : Char} (other : hexDigit c = none) (n : Nat) : c ∉ Nat.toDigits 16 n := by
  intro mem
  have digit := hexDigit_of_readHex (readHex_toDigits n) c mem
  rw [other] at digit
  cases digit

theorem notMem_groupsText {c : Char} (other : hexDigit c = none) (colon : c ≠ ':') :
    c ∉ groupsText words := by
  intro mem
  rcases mem_intercalate mem with same | ⟨piece, listed, inside⟩
  · exact colon same
  · obtain ⟨n, -, rfl⟩ := List.mem_map.mp listed
    exact notMem_hex other n inside

theorem readWord_toDigits {n : Nat} (small : n < 65536) :
    readWord (Nat.toDigits 16 n) = some n := by
  have short : (Nat.toDigits 16 n).length ≤ 4 :=
    (Nat.length_toDigits_le_iff (by decide) (by decide)).mpr small
  rw [readWord, if_pos ⟨Nat.toDigits_ne_nil, short⟩, readHex_toDigits]

theorem readGroups_toDigits (quad : Bool) (small : ∀ n ∈ words, n < 65536) :
    readGroups quad (words.map (Nat.toDigits 16)) = some words := by
  induction words with
  | nil => rfl
  | cons n words ih =>
      have tail := ih fun m mem => small m (List.mem_cons_of_mem _ mem)
      rw [List.map_cons, readGroups, readWord_toDigits (small n List.mem_cons_self), tail]
      rfl

private theorem full_groups (words : List Nat) :
    ∀ piece ∈ words.map (Nat.toDigits 16), piece ≠ [] ∧ ':' ∉ piece := by
  intro piece listed
  obtain ⟨n, -, rfl⟩ := List.mem_map.mp listed
  exact ⟨Nat.toDigits_ne_nil, notMem_hex (by decide) n⟩

theorem splitOn_groupsText (filled : words ≠ []) :
    (groupsText words).splitOn ':' = words.map (Nat.toDigits 16) := by
  apply List.splitOn_intercalate
  · intro piece listed
    exact (full_groups words piece listed).2
  · simpa using filled

theorem groupsOf_groupsText : groupsOf (groupsText words) = words.map (Nat.toDigits 16) := by
  by_cases filled : words = []
  · rw [filled]
    rfl
  · have pieces := splitOn_groupsText filled
    have some_text : groupsText words ≠ [] := by
      intro empty
      rw [empty, List.splitOn_nil] at pieces
      have listed : [] ∈ words.map (Nat.toDigits 16) := pieces ▸ List.mem_cons_self
      exact (full_groups words [] listed).1 rfl
    rw [groupsOf, if_neg some_text, pieces]

theorem cutAt_groupsText (rest : Text) :
    cutAt [':', ':'] (groupsText words ++ [':', ':'] ++ rest) = some (groupsText words, rest) := by
  have passed := cutAt_intercalate ([':', ':'] ++ rest) (full_groups words)
  rw [List.append_assoc, groupsText, passed, cutAt_here]
  simp

theorem cutAt_groupsText_none : cutAt [':', ':'] (groupsText words) = none := by
  have passed := cutAt_intercalate [] (full_groups words)
  rw [List.append_nil] at passed
  rw [groupsText, passed]
  rfl

end GroupTexts

section ZeroRuns

variable {words : List Nat}

theorem bestRun_le (words : List Nat) : (bestRun words).2 ≤ zeroRun words (bestRun words).1 := by
  unfold bestRun
  generalize List.range words.length = starts
  apply List.foldlRecOn (motive := fun best : Nat × Nat => best.2 ≤ zeroRun words best.1)
  · exact Nat.zero_le _
  · intro best kept start _
    split
    · exact Nat.le_refl _
    · exact kept

private theorem take_of_takeWhile {l : List Nat} {len : Nat}
    (run : len ≤ (l.takeWhile (· = 0)).length) : l.take len = List.replicate len 0 := by
  induction l generalizing len with
  | nil =>
      obtain rfl : len = 0 := by simpa using run
      rfl
  | cons n l ih =>
      cases len with
      | zero => rfl
      | succ len =>
          by_cases zero : n = 0
          · subst zero
            have rest : len ≤ (l.takeWhile (· = 0)).length := by simpa using run
            rw [List.take_succ_cons, ih rest, List.replicate_succ]
          · simp [zero] at run

theorem eq_of_zeroRun {start len : Nat} (run : len ≤ zeroRun words start) :
    words = words.take start ++ List.replicate len 0 ++ words.drop (start + len) := by
  have zeros : (words.drop start).take len = List.replicate len 0 := take_of_takeWhile run
  rw [← List.drop_drop, ← zeros, List.append_assoc, List.take_append_drop, List.take_append_drop]

end ZeroRuns

section Printed

theorem dot_mem_inetNtop4 (a : BitVec 32) : '.' ∈ inetNtop4 a := by
  simp [inetNtop4, places, List.intercalate_cons_cons]

theorem readWord_of_dot {text : Text} (dot : '.' ∈ text) : readWord text = none := by
  rw [readWord]
  split
  · cases read : readHex text with
    | none => rfl
    | some n => exact absurd (hexDigit_of_readHex read '.' dot) (by decide)
  · rfl

theorem readGroups_dotted (a : BitVec 32) :
    readGroups true [inetNtop4 a] = some (places 65536 2 a.toNat) := by
  rw [readGroups, readWord_of_dot (dot_mem_inetNtop4 a), inetPton4_inetNtop4]
  rfl

theorem groupsOf_dotted (a : BitVec 32) : groupsOf (inetNtop4 a) = [inetNtop4 a] := by
  rw [groupsOf, if_neg (List.ne_nil_of_mem (dot_mem_inetNtop4 a)),
    List.splitOn_eq_singleton (colon_notMem_inetNtop4 a)]

theorem drop_six (a : BitVec 128) :
    (places 65536 8 a.toNat).drop 6 = places 65536 2 (low32 a).toNat := by
  have cut : places 65536 (6 + 2) a.toNat = _ := places_add 2 6 a.toNat
  rw [cut, List.drop_left' (length_places 6 _), low32, BitVec.toNat_setWidth]
  exact (places_mod (b := 65536) (m := 2) a.toNat (Nat.le_refl 2)).symm

theorem inetPton6_of_cut {text left right : Text} {first last words : List Nat} {len : Nat}
    (cut : cutAt [':', ':'] text = some (left, right))
    (read_left : readGroups false (groupsOf left) = some first)
    (read_right : readGroups true (groupsOf right) = some last)
    (whole : words = first ++ List.replicate len 0 ++ last) (eight : words.length = 8)
    (run : 2 ≤ len) : inetPton6 text = some (ofWords words) := by
  rw [whole, List.length_append, List.length_append, List.length_replicate] at eight
  have missing : 8 - (first.length + last.length) = len := by omega
  rw [inetPton6, cut]
  simp only [read_left, read_right]
  rw [if_pos (by omega), missing, whole]

theorem colon_mem_inetNtop6 (a : BitVec 128) : ':' ∈ inetNtop6 a := by
  rw [inetNtop6]
  dsimp only
  split
  · simp [groupsText, places, List.intercalate_cons_cons]
  · split
    · simp
    · split <;> simp

theorem zero_notMem_inetNtop (a : Address) : '\x00' ∉ inetNtop a := by
  cases a with
  | v4 a => exact notMem_inetNtop4 (by decide) (by decide) a
  | v6 a =>
      have dotted := notMem_inetNtop4 (c := '\x00') (by decide) (by decide) (low32 a)
      have groups : ∀ words, '\x00' ∉ groupsText words := fun words =>
        notMem_groupsText (by decide) (by decide)
      rw [inetNtop, inetNtop6]
      dsimp only
      split
      · exact groups _
      · split
        · simp [dotted]
        · split <;> simp [dotted, groups]

theorem inetPton6_inetNtop6 (a : BitVec 128) : inetPton6 (inetNtop6 a) = some a := by
  have small := places_lt 8 a.toNat (b := 65536) (by decide)
  have eight := length_places (b := 65536) 8 a.toNat
  have run := bestRun_le (places 65536 8 a.toNat)
  have tail := drop_six a
  rw [← ofWords_places a]
  conv_lhs => rw [ofWords_places a]
  rw [inetNtop6]
  revert small eight run tail
  generalize places 65536 8 a.toNat = words
  generalize bestRun words = best
  intro small eight run tail
  obtain ⟨start, len⟩ := best
  have whole := eq_of_zeroRun run
  dsimp only
  split
  · have filled : words ≠ [] := by
      intro empty
      rw [empty] at eight
      cases eight
    rw [inetPton6, cutAt_groupsText_none]
    simp only [splitOn_groupsText filled, readGroups_toDigits true small, eight, if_true]
  · rename_i long
    split
    · rename_i dotted
      obtain ⟨rfl, rfl⟩ := dotted
      apply inetPton6_of_cut (cutAt_here _ _) rfl
      · rw [groupsOf_dotted, readGroups_dotted, ← tail]
      · exact whole
      · exact eight
      · decide
    · split
      · rename_i dotted
        obtain ⟨rfl, rfl, mark⟩ := dotted
        have last : words.drop 5 = 0xFFFF :: places 65536 2 (low32 a).toNat := by
          rw [List.drop_eq_getElem?_toList_append, mark, tail]
          rfl
        have groups : groupsOf (['f', 'f', 'f', 'f', ':'] ++ inetNtop4 (low32 a)) =
            [['f', 'f', 'f', 'f'], inetNtop4 (low32 a)] := by
          have free : ':' ∉ ['f', 'f', 'f', 'f'] := by decide
          have front := List.splitOn_append_cons_self_of_not_mem free (inetNtop4 (low32 a))
          rw [List.splitOn_eq_singleton (colon_notMem_inetNtop4 (low32 a))] at front
          exact front
        have read : readGroups true (groupsOf (['f', 'f', 'f', 'f', ':'] ++ inetNtop4 (low32 a))) =
            some (words.drop 5) := by
          have mapped : readWord ['f', 'f', 'f', 'f'] = some 0xFFFF := by decide
          rw [groups, readGroups, mapped, readGroups_dotted, last]
          rfl
        apply inetPton6_of_cut (cutAt_here [':', ':'] _) rfl read
        · exact whole
        · exact eight
        · decide
      · apply inetPton6_of_cut (cutAt_groupsText _)
        · rw [groupsOf_groupsText, readGroups_toDigits]
          intro n mem
          exact small n (List.mem_of_mem_take mem)
        · rw [groupsOf_groupsText, readGroups_toDigits]
          intro n mem
          exact small n (List.mem_of_mem_drop mem)
        · exact whole
        · exact eight
        · omega

end Printed

/-- A printed address is read back as itself. -/
theorem readAddress_inetNtop (a : Address) : readAddress (inetNtop a) = some a := by
  cases a with
  | v4 a => rw [inetNtop, readAddress, inetPton4_inetNtop4]
  | v6 a =>
      rw [inetNtop, readAddress, inetPton4_of_colon (colon_mem_inetNtop6 a), inetPton6_inetNtop6]
      rfl

end Scand.Foundation.InternetAddress
