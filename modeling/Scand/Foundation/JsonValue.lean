/- path: Scand/Foundation/JsonValue
   layer: library
   digest: JSON values as a parser delivers them, and the checked accessors used on them. -/

import Scand.Foundation.PlaceValue
import Mathlib.Algebra.Ring.Nat
import Mathlib.Data.Rat.Defs
import Mathlib.Data.List.Basic
import Mathlib.Data.List.TakeWhile

set_option autoImplicit false
set_option relaxedAutoImplicit false

namespace Scand.Foundation.JsonValue

open Scand.Foundation.PlaceValue (hexDigit value)

/-- A parsed value. Numbers keep the kind under which they were parsed; the keys of an object are
distinct. -/
inductive Json
  | null
  | bool (b : Bool)
  | int64 (i : Int)
  | uint64 (n : Nat)
  | double (q : ℚ)
  | string (s : String)
  | array (items : List Json)
  | object (fields : List (String × Json))

abbrev Fields := List (String × Json)

namespace Json

def asObject? : Json → Option Fields
  | .object fields => some fields
  | _ => none

def asArray? : Json → Option (List Json)
  | .array items => some items
  | _ => none

def asString? : Json → Option String
  | .string s => some s
  | _ => none

def asInt64? : Json → Option Int
  | .int64 i => some i
  | _ => none

def asBool? : Json → Option Bool
  | .bool b => some b
  | _ => none

def objects (items : List Json) : List Fields := items.filterMap asObject?

theorem mem_objects {items : List Json} {o : Fields} :
    o ∈ objects items ↔ Json.object o ∈ items := by
  simp only [objects, List.mem_filterMap]
  constructor
  · intro given
    obtain ⟨a, mem, equal⟩ := given
    cases a <;> simp only [asObject?, Option.some.injEq, reduceCtorEq] at equal
    exact equal ▸ mem
  · intro mem
    exact ⟨.object o, mem, rfl⟩

@[simp] theorem objects_map_object (rows : List Fields) : objects (rows.map .object) = rows := by
  induction rows with
  | nil => rfl
  | cons r rows ih =>
      simp only [objects, List.map_cons, List.filterMap_cons, asObject?] at ih ⊢
      rw [ih]

end Json

def setField (o : Fields) (key : String) (value : Json) : Fields :=
  if o.any fun field => field.1 = key then
    o.map fun field => if field.1 = key then (key, value) else field
  else o ++ [(key, value)]

theorem lookup_cons_if {β : Type} (name k : String) (value : β) (o : List (String × β)) :
    List.lookup k ((name, value) :: o) = if k = name then some value else o.lookup k := by
  by_cases same : k = name
  · subst same
    simp
  · have apart : (k == name) = false := beq_false_of_ne same
    rw [List.lookup_cons, apart, if_neg same]

theorem lookup_replaced (o : Fields) (key k : String) (value : Json) :
    (o.map fun field => if field.1 = key then (key, value) else field).lookup k =
      if k = key then (if o.any fun field => field.1 = key then some value else none)
      else o.lookup k := by
  induction o with
  | nil => simp
  | cons field o ih =>
      obtain ⟨name, old⟩ := field
      rw [List.map_cons, List.any_cons, lookup_cons_if]
      by_cases here : name = key
      · subst here
        by_cases same : k = name
        · simp [same]
        · simp [lookup_cons_if, same, ih]
      · rw [if_neg here, lookup_cons_if, ih]
        by_cases same : k = key
        · subst same
          rw [if_neg (Ne.symm here), if_pos rfl, if_pos rfl, decide_eq_false here, Bool.false_or]
        · rw [if_neg same, if_neg same]

theorem lookup_setField (o : Fields) (key k : String) (value : Json) :
    (setField o key value).lookup k = if k = key then some value else o.lookup k := by
  unfold setField
  split
  · rename_i present
    rw [lookup_replaced, present]
    rfl
  · rename_i absent
    by_cases same : k = key
    · subst same
      have fresh : o.lookup k = none := by
        rw [List.lookup_eq_none_iff]
        intro field mem
        by_contra named
        have same : k = field.1 := by simpa using named
        exact absent (List.any_eq_true.mpr ⟨field, mem, by simp [same]⟩)
      simp [List.lookup_append, fresh]
    · cases found : o.lookup k <;> simp [List.lookup_append, found, same]

/-- One answer of an HTTP server: the status, and the body as a value or as the text of the parse
error that it would raise. -/
structure HttpReply where
  statusCode : Int
  body : Except String Json

/-- A `double`: a number, which is kept exactly, or one of the values beside the numbers. -/
inductive Number
  | finite (q : ℚ)
  | infinite (negative : Bool)
  | nan
  deriving DecidableEq

def isSpace (c : Char) : Bool :=
  c = ' ' || c = '\t' || c = '\n' || c = '\x0b' || c = '\x0c' || c = '\r'

/-- Digits of the base `b` with at most one point, as (digits read, digits after the point, rest). -/
def pointDigits (b : Nat) (digit : Char → Option Nat) (cs : List Char) :
    Option (Nat × Nat × List Char) :=
  let isDigit (c : Char) : Bool := (digit c).isSome
  let whole := cs.takeWhile isDigit
  let (frac, tail) := match cs.dropWhile isDigit with
    | '.' :: more => (more.takeWhile isDigit, more.dropWhile isDigit)
    | other => ([], other)
  if whole.length + frac.length = 0 then none
  else some (value b ((whole ++ frac).filterMap digit), frac.length, tail)

def decimalDigit (c : Char) : Option Nat :=
  if c.isDigit then some (c.toNat - '0'.toNat) else none

/-- An optional exponent behind one of two letters; a malformed one is not part of the number. -/
def exponent (lower upper : Char) : List Char → Int
  | e :: cs =>
      if e = lower ∨ e = upper then
        let (sign, digits) : Int × List Char := match cs with
          | '-' :: more => (-1, more)
          | '+' :: more => (1, more)
          | other => (1, other)
        sign * (value 10 ((digits.takeWhile Char.isDigit).filterMap decimalDigit) : Nat)
      else 0
  | [] => 0

def shifted (digits b : Nat) : Int → ℚ
  | .ofNat k => (digits * b ^ k : Nat)
  | .negSucc k => mkRat digits (b ^ (k + 1))

def decimalNumber (cs : List Char) : Option ℚ :=
  (pointDigits 10 decimalDigit cs).map fun (digits, scale, tail) =>
    shifted digits 10 (exponent 'e' 'E' tail - scale)

/-- A hexadecimal number, without which the text is read as the zero before its `x`. -/
def hexNumber : List Char → Option ℚ
  | '0' :: x :: cs =>
      if x = 'x' ∨ x = 'X' then
        (pointDigits 16 hexDigit cs).map fun (digits, scale, tail) =>
          shifted digits 2 (exponent 'p' 'P' tail - 4 * scale)
      else none
  | _ => none

def wordNumber (negative : Bool) (cs : List Char) : Option Number :=
  match (cs.take 3).map Char.toLower with
  | ['i', 'n', 'f'] => some (.infinite negative)
  | ['n', 'a', 'n'] => some .nan
  | _ => none

/-- A number that rounds to a finite `double`, and that is held exactly if it is smaller than the
normal ones: only then `strtod` reports no `ERANGE`. -/
def inRange (q : ℚ) : Bool :=
  q = 0 || (q.num.natAbs < (2 ^ 1024 - 2 ^ 970) * q.den &&
    ((2 ^ 54 - 1) * q.den ≤ q.num.natAbs * 2 ^ 1076 || q.den ∣ 2 ^ 1074))

/-- `std::stod`: leading blanks, a sign, a word or a number and an ignored rest; `none` where it
throws, as there is no number or one out of range. -/
def stod (text : String) : Option Number :=
  let cs := text.toList.dropWhile isSpace
  let (negative, body) : Bool × List Char := match cs with
    | '-' :: more => (true, more)
    | '+' :: more => (false, more)
    | other => (false, other)
  match wordNumber negative body with
  | some word => some word
  | none =>
      match hexNumber body <|> decimalNumber body with
      | some q =>
          if inRange q then some (.finite (if negative then -q else q)) else none
      | none => none

example : stod " -12.50e1x" = some (.finite (-125)) ∧ stod "0x1.8p1" = some (.finite 3) ∧
    stod "1e400" = none ∧ stod "1e-400" = none ∧ stod "Infinity" = some (.infinite false) := by
  decide +kernel

/-- `std::stoll`: leading blanks, a sign, decimal digits and an ignored rest; `none` where there are
no digits or the value leaves 64 bits. -/
def stoll (text : String) : Option Int :=
  let cs := text.toList.dropWhile isSpace
  let (sign, body) : Int × List Char := match cs with
    | '-' :: more => (-1, more)
    | '+' :: more => (1, more)
    | other => (1, other)
  let digits := body.takeWhile Char.isDigit
  if digits.isEmpty then none
  else
    let value := sign * (digits.foldl (fun n c => 10 * n + (c.toNat - '0'.toNat)) 0 : Nat)
    if -9223372036854775808 ≤ value ∧ value ≤ 9223372036854775807 then some value else none

/-- `std::stoul`, on a platform where it reads 64 bits: a negative number wraps around. -/
def stoul (text : String) : Option Nat :=
  let cs := text.toList.dropWhile isSpace
  let (negative, body) : Bool × List Char := match cs with
    | '-' :: more => (true, more)
    | '+' :: more => (false, more)
    | other => (false, other)
  let digits := body.takeWhile Char.isDigit
  if digits.isEmpty then none
  else
    let value := digits.foldl (fun n c => 10 * n + (c.toNat - '0'.toNat)) 0
    if value < 2 ^ 64 then some (if negative then (2 ^ 64 - value) % 2 ^ 64 else value) else none

theorem toString_digits (n : Nat) : ∃ c rest, (toString n).toList = c :: rest ∧
    (c :: rest).dropWhile isSpace = c :: rest ∧ c ≠ '-' ∧ c ≠ '+' ∧
    (c :: rest).takeWhile Char.isDigit = c :: rest ∧
    (c :: rest).foldl (fun n c => 10 * n + (c.toNat - '0'.toNat)) 0 = n := by
  have digit : ∀ c ∈ Nat.toDigits 10 n, c.isDigit = true := fun c mem =>
    Nat.isDigit_of_mem_toDigits (by decide) (by decide) mem
  have list : (toString n).toList = Nat.toDigits 10 n := Nat.toList_repr
  have some_digit : Nat.toDigits 10 n ≠ [] := Nat.toDigits_ne_nil
  have value : (Nat.toDigits 10 n).foldl (fun n c => 10 * n + (c.toNat - '0'.toNat)) 0 = n := by
    rw [← Nat.ofDigitChars_eq_foldl, Nat.ofDigitChars_ten_toDigits]
  obtain ⟨c, rest, digits⟩ := List.exists_cons_of_ne_nil some_digit
  have first : c.isDigit = true := digit c (digits ▸ List.mem_cons_self)
  have other : ∀ d : Char, d.isDigit = false → c ≠ d := by
    rintro d no_digit rfl
    exact absurd (first.symm.trans no_digit) (by decide)
  have not_blank : ¬ isSpace c = true := by
    intro blank
    simp only [isSpace, Bool.or_eq_true, decide_eq_true_eq] at blank
    rcases blank with ((((same | same) | same) | same) | same) | same <;>
      exact other _ (by decide) same
  refine ⟨c, rest, list.trans digits, List.dropWhile_cons_of_neg not_blank, other _ (by decide),
    other _ (by decide), List.takeWhile_eq_self_iff.mpr (digits ▸ digit), digits ▸ value⟩

theorem stoll_toString {n : Nat} (small : n < 9223372036854775808) : stoll (toString n) = some n := by
  obtain ⟨c, rest, list, kept, no_minus, no_plus, all, value⟩ := toString_digits n
  have bounds : -9223372036854775808 ≤ (1 : Int) * n ∧ (1 : Int) * n ≤ 9223372036854775807 := by omega
  unfold stoll
  rw [list, kept]
  dsimp only
  split
  · rename_i here
    exact absurd (List.cons.inj here).1 no_minus
  · rename_i here
    exact absurd (List.cons.inj here).1 no_plus
  · rw [all, value, if_pos bounds]
    simp

theorem stoul_toString {n : Nat} (small : n < 2 ^ 64) : stoul (toString n) = some n := by
  obtain ⟨c, rest, list, kept, no_minus, no_plus, all, value⟩ := toString_digits n
  unfold stoul
  rw [list, kept]
  dsimp only
  split
  · rename_i here
    exact absurd (List.cons.inj here).1 no_minus
  · rename_i here
    exact absurd (List.cons.inj here).1 no_plus
  · rw [all, value, if_pos small]
    simp

end Scand.Foundation.JsonValue
