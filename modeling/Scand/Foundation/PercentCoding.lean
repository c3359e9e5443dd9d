/- path: Scand/Foundation/PercentCoding
   layer: library
   digest: Percent-encoding with a set of bytes that are kept, percent-decoding, and what the one makes
   of the other; literals between quotes, in which a quote is doubled. -/

import Mathlib.Data.List.Basic

set_option autoImplicit false
set_option relaxedAutoImplicit false

namespace Scand.Foundation.PercentCoding

abbrev Bytes := List UInt8

def percent : UInt8 := 0x25

def isHexDigit (b : UInt8) : Bool :=
  (48 ≤ b && b ≤ 57) || (65 ≤ b && b ≤ 70) || (97 ≤ b && b ≤ 102)

def hexValue (b : UInt8) : UInt8 := if b ≤ 57 then b - 48 else if b ≤ 70 then b - 55 else b - 87

def hexDigit (n : UInt8) : UInt8 := if n < 10 then 48 + n else 55 + n

def encodeByte (keep : UInt8 → Bool) (b : UInt8) : Bytes :=
  if keep b then [b] else [percent, hexDigit (b / 16), hexDigit (b % 16)]

def percentEncode (keep : UInt8 → Bool) (s : Bytes) : Bytes := s.flatMap (encodeByte keep)

/-- A percent sign that no two hexadecimal digits follow stands for itself. -/
def percentDecode : Bytes → Bytes
  | [] => []
  | [a] => [a]
  | [a, b] => [a, b]
  | a :: h :: l :: rest =>
      if a = percent ∧ isHexDigit h = true ∧ isHexDigit l = true then
        (hexValue h * 16 + hexValue l) :: percentDecode rest
      else a :: percentDecode (h :: l :: rest)

def twoHexDigits : Bytes → Bool
  | h :: l :: _ => isHexDigit h && isHexDigit l
  | _ => false

def HasEscape (s : Bytes) : Prop :=
  ∃ before h l after, s = before ++ percent :: h :: l :: after ∧ isHexDigit h = true ∧
    isHexDigit l = true

section Decoding

variable {a h l : UInt8} {rest : Bytes}

theorem percentDecode_escape (high : isHexDigit h = true) (low : isHexDigit l = true) :
    percentDecode (percent :: h :: l :: rest) = (hexValue h * 16 + hexValue l) :: percentDecode rest := by
  rw [percentDecode, if_pos ⟨rfl, high, low⟩]

theorem percentDecode_kept (plain : ¬ (a = percent ∧ twoHexDigits rest = true)) :
    percentDecode (a :: rest) = a :: percentDecode rest := by
  rcases rest with _ | ⟨h, _ | ⟨l, rest⟩⟩
  · rfl
  · rfl
  · have kept : ¬ (a = percent ∧ isHexDigit h = true ∧ isHexDigit l = true) := by
      rintro ⟨same, high, low⟩
      exact plain ⟨same, by simp [twoHexDigits, high, low]⟩
    rw [percentDecode, if_neg kept]

@[elab_as_elim]
theorem decode_induction {motive : Bytes → Prop} (nil : motive [])
    (escape : ∀ h l rest, isHexDigit h = true → isHexDigit l = true → motive rest →
      motive (percent :: h :: l :: rest))
    (kept : ∀ a rest, ¬ (a = percent ∧ twoHexDigits rest = true) → motive rest → motive (a :: rest))
    (s : Bytes) : motive s := by
  induction size : s.length using Nat.strongRecOn generalizing s with
  | _ n ih =>
      rcases s with _ | ⟨a, rest⟩
      · exact nil
      · by_cases plain : a = percent ∧ twoHexDigits rest = true
        · obtain ⟨rfl, digits⟩ := plain
          rcases rest with _ | ⟨h, _ | ⟨l, rest⟩⟩
          · cases digits
          · cases digits
          · simp only [twoHexDigits, Bool.and_eq_true] at digits
            simp only [List.length_cons] at size
            exact escape h l rest digits.1 digits.2 (ih rest.length (by omega) rest rfl)
        · simp only [List.length_cons] at size
          exact kept a rest plain (ih rest.length (by omega) rest rfl)

theorem hasEscape_cons_iff :
    HasEscape (a :: rest) ↔ (a = percent ∧ twoHexDigits rest = true) ∨ HasEscape rest := by
  constructor
  · rintro ⟨_ | ⟨b, before⟩, h, l, after, split, high, low⟩
    · obtain ⟨rfl, rfl⟩ := List.cons.inj split
      exact Or.inl ⟨rfl, by simp [twoHexDigits, high, low]⟩
    · obtain ⟨rfl, rest_eq⟩ := List.cons.inj split
      exact Or.inr ⟨before, h, l, after, rest_eq, high, low⟩
  · rintro (⟨rfl, digits⟩ | ⟨before, h, l, after, rfl, high, low⟩)
    · rcases rest with _ | ⟨h, _ | ⟨l, rest⟩⟩
      · cases digits
      · cases digits
      · simp only [twoHexDigits, Bool.and_eq_true] at digits
        exact ⟨[], h, l, rest, rfl, digits.1, digits.2⟩
    · exact ⟨a :: before, h, l, after, rfl, high, low⟩

theorem not_hasEscape_nil : ¬ HasEscape [] := by
  rintro ⟨before, h, l, after, split, -, -⟩
  simp at split

theorem not_hasEscape_of_notMem {s : Bytes} (plain : percent ∉ s) : ¬ HasEscape s := by
  rintro ⟨before, h, l, after, rfl, -, -⟩
  exact plain (by simp)

theorem percentDecode_of_clean {s : Bytes} (clean : ¬ HasEscape s) : percentDecode s = s := by
  induction s with
  | nil => rfl
  | cons a rest ih =>
      rw [hasEscape_cons_iff, not_or] at clean
      rw [percentDecode_kept clean.1, ih clean.2]

theorem length_percentDecode_le (s : Bytes) : (percentDecode s).length ≤ s.length := by
  induction s using decode_induction with
  | nil => exact Nat.le_refl 0
  | escape h l rest high low ih =>
      rw [percentDecode_escape high low]
      simp only [List.length_cons]
      omega
  | kept a rest plain ih =>
      rw [percentDecode_kept plain]
      exact Nat.succ_le_succ ih

theorem length_percentDecode_lt {s : Bytes} (escaped : HasEscape s) :
    (percentDecode s).length < s.length := by
  induction s using decode_induction with
  | nil => exact absurd escaped not_hasEscape_nil
  | escape h l rest high low _ =>
      have tail := length_percentDecode_le rest
      rw [percentDecode_escape high low]
      simp only [List.length_cons]
      omega
  | kept a rest plain ih =>
      have later := (hasEscape_cons_iff.mp escaped).resolve_left plain
      rw [percentDecode_kept plain]
      exact Nat.succ_lt_succ (ih later)

theorem twoHexDigits_append_cons (s t : Bytes) (digit : isHexDigit a = false) :
    twoHexDigits (s ++ a :: t) = twoHexDigits s := by
  rcases s with _ | ⟨h, _ | ⟨l, s⟩⟩
  · cases t <;> simp [twoHexDigits, digit]
  · simp [twoHexDigits, digit]
  · rfl

theorem hasEscape_append_iff {s t : Bytes} (other : a ≠ percent) (digit : isHexDigit a = false) :
    HasEscape (s ++ a :: t) ↔ HasEscape s ∨ HasEscape t := by
  induction s with
  | nil =>
      rw [List.nil_append, hasEscape_cons_iff]
      simp [other, not_hasEscape_nil]
  | cons b s ih =>
      rw [List.cons_append, hasEscape_cons_iff, hasEscape_cons_iff, ih,
        twoHexDigits_append_cons s t digit, or_assoc]

theorem percentDecode_append_cons (s t : Bytes) (other : a ≠ percent)
    (digit : isHexDigit a = false) :
    percentDecode (s ++ a :: t) = percentDecode s ++ a :: percentDecode t := by
  induction s using decode_induction with
  | nil => exact percentDecode_kept fun escape => other escape.1
  | escape h l rest high low ih =>
      rw [List.cons_append, List.cons_append, List.cons_append, percentDecode_escape high low, ih,
        percentDecode_escape high low, List.cons_append]
  | kept b rest plain ih =>
      have apart : ¬ (b = percent ∧ twoHexDigits (rest ++ a :: t) = true) := by
        rwa [twoHexDigits_append_cons rest t digit]
      rw [List.cons_append, percentDecode_kept apart, ih, percentDecode_kept plain,
        List.cons_append]

theorem HasEscape.of_infix {s t : Bytes} (escaped : HasEscape s) (part : s <:+: t) :
    HasEscape t := by
  obtain ⟨before, h, l, after, rfl, high, low⟩ := escaped
  obtain ⟨front, back, rfl⟩ := part
  exact ⟨front ++ before, h, l, after ++ back, by simp, high, low⟩

end Decoding

section Encoding

variable {keep : UInt8 → Bool}

theorem forall_byte {p : UInt8 → Prop} (all : ∀ n < 256, p (UInt8.ofNat n)) (b : UInt8) : p b := by
  have own := all b.toNat b.toNat_lt
  rwa [UInt8.ofNat_toNat] at own

theorem isHexDigit_hexDigit (b : UInt8) :
    isHexDigit (hexDigit (b / 16)) = true ∧ isHexDigit (hexDigit (b % 16)) = true ∧
      hexValue (hexDigit (b / 16)) * 16 + hexValue (hexDigit (b % 16)) = b := by
  refine forall_byte (p := fun b => isHexDigit (hexDigit (b / 16)) = true ∧
    isHexDigit (hexDigit (b % 16)) = true ∧
    hexValue (hexDigit (b / 16)) * 16 + hexValue (hexDigit (b % 16)) = b) ?_ b
  decide +kernel

theorem twoHexDigits_percentEncode (digits : ∀ b, isHexDigit b = true → keep b = true) (s : Bytes) :
    twoHexDigits (percentEncode keep s) = twoHexDigits s := by
  have unkept : ∀ b, keep b = false → isHexDigit b = false := by
    intro b dropped
    by_contra digit
    rw [digits b (by simpa using digit)] at dropped
    cases dropped
  have sign : isHexDigit percent = false := rfl
  rcases s with _ | ⟨h, s⟩
  · rfl
  · cases kept : keep h with
    | false =>
        have encoded : percentEncode keep (h :: s) =
            percent :: hexDigit (h / 16) :: hexDigit (h % 16) :: percentEncode keep s := by
          simp [percentEncode, encodeByte, kept]
        rw [encoded]
        rcases s with _ | ⟨l, s⟩
        · rfl
        · simp [twoHexDigits, sign, unkept h kept]
    | true =>
        have encoded : percentEncode keep (h :: s) = h :: percentEncode keep s := by
          simp [percentEncode, encodeByte, kept]
        rw [encoded]
        rcases s with _ | ⟨l, s⟩
        · rfl
        · cases kept_low : keep l with
          | false => simp [twoHexDigits, percentEncode, encodeByte, kept_low, sign, unkept l kept_low]
          | true => simp [twoHexDigits, percentEncode, encodeByte, kept_low]

theorem percentDecode_percentEncode (sign : keep percent = true)
    (digits : ∀ b, isHexDigit b = true → keep b = true) (s : Bytes) :
    percentDecode (percentEncode keep s) = percentDecode s := by
  induction s using decode_induction with
  | nil => rfl
  | escape h l rest high low ih =>
      have encoded : percentEncode keep (percent :: h :: l :: rest) =
          percent :: h :: l :: percentEncode keep rest := by
        simp [percentEncode, encodeByte, sign, digits h high, digits l low]
      rw [encoded, percentDecode_escape high low, percentDecode_escape high low, ih]
  | kept a rest plain ih =>
      rw [percentDecode_kept plain, ← ih]
      cases kept : keep a with
      | true =>
          have encoded : percentEncode keep (a :: rest) = a :: percentEncode keep rest := by
            simp [percentEncode, encodeByte, kept]
          rw [encoded, percentDecode_kept]
          rwa [twoHexDigits_percentEncode digits]
      | false =>
          have encoded : percentEncode keep (a :: rest) =
              percent :: hexDigit (a / 16) :: hexDigit (a % 16) :: percentEncode keep rest := by
            simp [percentEncode, encodeByte, kept]
          obtain ⟨high, low, value⟩ := isHexDigit_hexDigit a
          rw [encoded, percentDecode_escape high low, value]

theorem mem_percentEncode_iff {b : UInt8} (kept : keep b = true) (other : b ≠ percent)
    (digit : isHexDigit b = false) (s : Bytes) : b ∈ percentEncode keep s ↔ b ∈ s := by
  have own : ∀ c, b ∈ encodeByte keep c ↔ b = c := by
    intro c
    unfold encodeByte
    split
    · exact List.mem_singleton
    · rename_i dropped
      obtain ⟨high, low, -⟩ := isHexDigit_hexDigit c
      have apart : ∀ d, isHexDigit d = true → b ≠ d := by
        rintro d hex rfl
        rw [digit] at hex
        cases hex
      refine iff_of_false ?_ ?_
      · simp only [List.mem_cons, List.not_mem_nil, or_false, not_or]
        exact ⟨other, apart _ high, apart _ low⟩
      · rintro rfl
        exact dropped kept
  simp only [percentEncode, List.mem_flatMap, own, exists_eq_right']

theorem takeWhile_percentEncode {stop : UInt8} (kept : keep stop = true) (other : stop ≠ percent)
    (digit : isHexDigit stop = false) (s : Bytes) :
    (percentEncode keep s).takeWhile (fun b => b ≠ stop) =
      percentEncode keep (s.takeWhile fun b => b ≠ stop) := by
  induction s with
  | nil => rfl
  | cons b s ih =>
      have encoded : percentEncode keep (b :: s) = encodeByte keep b ++ percentEncode keep s := rfl
      rw [encoded]
      cases own : keep b with
      | true =>
          have single : encodeByte keep b = [b] := by simp [encodeByte, own]
          rw [single, List.singleton_append]
          by_cases here : b = stop
          · simp [here, percentEncode]
          · have beginning : percentEncode keep (b :: s.takeWhile fun b => b ≠ stop) =
                b :: percentEncode keep (s.takeWhile fun b => b ≠ stop) := by
              simp [percentEncode, single]
            rw [List.takeWhile_cons_of_pos (by simpa using here), ih,
              List.takeWhile_cons_of_pos (by simpa using here), beginning]
      | false =>
          have here : b ≠ stop := by
            rintro rfl
            rw [kept] at own
            cases own
          obtain ⟨high, low, -⟩ := isHexDigit_hexDigit b
          have written : ∀ c ∈ encodeByte keep b, decide (c ≠ stop) = true := by
            have apart : ∀ c, isHexDigit c = true → c ≠ stop := by
              rintro c hex rfl
              rw [digit] at hex
              cases hex
            have bytes : encodeByte keep b = [percent, hexDigit (b / 16), hexDigit (b % 16)] := by
              simp [encodeByte, own]
            intro c mem
            rw [bytes] at mem
            simp only [List.mem_cons, List.not_mem_nil, or_false] at mem
            rcases mem with rfl | rfl | rfl
            · exact decide_eq_true other.symm
            · exact decide_eq_true (apart _ high)
            · exact decide_eq_true (apart _ low)
          have beginning : percentEncode keep (b :: s.takeWhile fun b => b ≠ stop) =
              encodeByte keep b ++ percentEncode keep (s.takeWhile fun b => b ≠ stop) := rfl
          rw [List.takeWhile_append_of_pos written, ih,
            List.takeWhile_cons_of_pos (by simpa using here), beginning]

end Encoding

section Quoting

def quote : UInt8 := 0x27

def doubled (s : Bytes) : Bytes := s.flatMap fun b => if b = quote then [quote, quote] else [b]

/-- Reads a literal behind its opening quote: its text, and what follows the closing quote. -/
def readQuoted : Bytes → Option (Bytes × Bytes)
  | [] => none
  | [b] => if b = quote then some ([], []) else none
  | b :: c :: rest =>
      if b = quote then
        if c = quote then (readQuoted rest).map fun read => (quote :: read.1, read.2)
        else some ([], c :: rest)
      else (readQuoted (c :: rest)).map fun read => (b :: read.1, read.2)

theorem doubled_quote (s : Bytes) : doubled (quote :: s) = quote :: quote :: doubled s := by
  simp [doubled]

theorem doubled_other {b : UInt8} (other : b ≠ quote) (s : Bytes) : doubled (b :: s) = b :: doubled s := by
  simp [doubled, other]

theorem doubled_of_notMem {s : Bytes} (plain : quote ∉ s) : doubled s = s := by
  induction s with
  | nil => rfl
  | cons b s ih =>
      rw [List.mem_cons, not_or] at plain
      rw [doubled_other (Ne.symm plain.1), ih plain.2]

theorem length_doubled (s : Bytes) : (doubled s).length = s.length + s.count quote := by
  induction s with
  | nil => rfl
  | cons b s ih =>
      by_cases here : b = quote
      · rw [here, doubled_quote, List.count_cons_self]
        simp only [List.length_cons, ih]
        omega
      · rw [doubled_other here, List.count_cons_of_ne here]
        simp only [List.length_cons, ih]
        omega

theorem mem_doubled_iff {b : UInt8} {s : Bytes} : b ∈ doubled s ↔ b ∈ s := by
  rw [doubled, List.mem_flatMap]
  constructor
  · rintro ⟨c, mem, among⟩
    split at among
    · rename_i here
      simp only [List.mem_cons, List.not_mem_nil, or_false, or_self] at among
      rwa [among, ← here]
    · rwa [List.mem_singleton.mp among]
  · intro mem
    refine ⟨b, mem, ?_⟩
    split
    · rename_i here
      simp [here]
    · exact List.mem_singleton_self b

theorem hasEscape_doubled_iff {s : Bytes} : HasEscape (doubled s) ↔ HasEscape s := by
  have digit : isHexDigit quote = false := rfl
  have same : ∀ s, twoHexDigits (doubled s) = twoHexDigits s := by
    rintro (_ | ⟨h, _ | ⟨l, s⟩⟩)
    · rfl
    · by_cases first : h = quote
      · subst first
        rfl
      · simp [doubled, first, twoHexDigits]
    · by_cases first : h = quote
      · simp [doubled, first, twoHexDigits, digit]
      · by_cases second : l = quote
        · simp [doubled, first, second, twoHexDigits, digit]
        · simp [doubled, first, second, twoHexDigits]
  induction s with
  | nil => rfl
  | cons b s ih =>
      by_cases here : b = quote
      · have other : quote ≠ percent := by decide
        rw [here, doubled_quote, hasEscape_cons_iff, hasEscape_cons_iff, hasEscape_cons_iff]
        simp only [other, false_and, false_or]
        exact ih
      · rw [doubled_other here, hasEscape_cons_iff, hasEscape_cons_iff, same]
        exact or_congr_right ih

theorem readQuoted_doubled (s : Bytes) {rest : Bytes} (alone : rest.head? ≠ some quote) :
    readQuoted (doubled s ++ quote :: rest) = some (s, rest) := by
  induction s with
  | nil =>
      rcases rest with _ | ⟨c, rest⟩
      · rfl
      · have other : c ≠ quote := fun same => alone (congrArg some same)
        show readQuoted (quote :: c :: rest) = _
        rw [readQuoted, if_pos rfl, if_neg other]
  | cons b s ih =>
      by_cases here : b = quote
      · rw [here, doubled_quote, List.cons_append, List.cons_append, readQuoted, if_pos rfl, if_pos rfl, ih]
        rfl
      · rw [doubled_other here, List.cons_append]
        rcases more : doubled s ++ quote :: rest with _ | ⟨c, tail⟩
        · simp at more
        · rw [readQuoted, if_neg here, ← more, ih]
          rfl

theorem eq_of_readQuoted {t s rest : Bytes} (read : readQuoted t = some (s, rest)) :
    t = doubled s ++ quote :: rest := by
  induction t using readQuoted.induct generalizing s with
  | case1 => cases read
  | case2 =>
      cases read
      rfl
  | case3 b other =>
      rw [readQuoted, if_neg other] at read
      cases read
  | case4 tail ih =>
      rw [readQuoted, if_pos rfl, if_pos rfl] at read
      obtain ⟨⟨text, left⟩, inner, same⟩ := Option.map_eq_some_iff.mp read
      cases same
      rw [ih inner, doubled_quote]
      rfl
  | case5 c tail other =>
      rw [readQuoted, if_pos rfl, if_neg other] at read
      cases read
      rfl
  | case6 b c tail other ih =>
      rw [readQuoted, if_neg other] at read
      obtain ⟨⟨text, left⟩, inner, same⟩ := Option.map_eq_some_iff.mp read
      cases same
      rw [ih inner, doubled_other other]
      rfl

theorem isPrefixOf?_eq_some_iff {t s rest : Bytes} :
    t.isPrefixOf? s = some rest ↔ s = t ++ rest := by
  induction t generalizing s with
  | nil => simp [List.isPrefixOf?, eq_comm]
  | cons a t ih =>
      rcases s with _ | ⟨b, s⟩
      · simp [List.isPrefixOf?]
      · by_cases same : a = b
        · simp [List.isPrefixOf?, same, ih]
        · simp [List.isPrefixOf?, same, Ne.symm same]

end Quoting

end Scand.Foundation.PercentCoding
