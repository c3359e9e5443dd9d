/- path: Scand/Foundation/JsonText
   layer: library
   digest: The text that a JSON value is serialised as: compact, and with every character of a string
   escaped that would end its line. -/

import Scand.Foundation.JsonValue

set_option autoImplicit false
set_option relaxedAutoImplicit false

namespace Scand.Foundation.JsonText

open Scand.Foundation.JsonValue (Json)

def Printable (text : String) : Prop := ∀ c ∈ text.toList, c ≠ '\n' ∧ c ≠ '\r'

instance (text : String) : Decidable (Printable text) := List.decidableBAll _ _

structure DoubleText where
  text : ℚ → String
  printable : ∀ q, Printable (text q)

def escapedChar (c : Char) : List Char :=
  match c with
  | '"' => ['\\', '"']
  | '\\' => ['\\', '\\']
  | '\x08' => ['\\', 'b']
  | '\t' => ['\\', 't']
  | '\n' => ['\\', 'n']
  | '\x0c' => ['\\', 'f']
  | '\r' => ['\\', 'r']
  | c =>
      if c.toNat < 0x20 then
        ['\\', 'u', '0', '0', Nat.digitChar (c.toNat / 16), Nat.digitChar (c.toNat % 16)]
      else [c]

def quoted (text : String) : String :=
  "\"" ++ String.ofList (text.toList.flatMap escapedChar) ++ "\""

section Serialize

variable (double : DoubleText)

mutual

def serialize : Json → String
  | .null => "null"
  | .bool b => if b then "true" else "false"
  | .int64 i => toString i
  | .uint64 n => toString n
  | .double q => double.text q
  | .string s => quoted s
  | .array items => "[" ++ ",".intercalate (itemTexts items) ++ "]"
  | .object fields => "\x7b" ++ ",".intercalate (fieldTexts fields) ++ "\x7d"

def itemTexts : List Json → List String
  | [] => []
  | item :: rest => serialize item :: itemTexts rest

def fieldTexts : List (String × Json) → List String
  | [] => []
  | (key, value) :: rest => (quoted key ++ ":" ++ serialize value) :: fieldTexts rest

end

end Serialize

section Printable

theorem Printable.append {s t : String} (left : Printable s) (right : Printable t) :
    Printable (s ++ t) := by
  intro c mem
  rw [String.toList_append] at mem
  rcases List.mem_append.mp mem with mem | mem
  · exact left c mem
  · exact right c mem

theorem printable_intercalate {texts : List String} (printable : ∀ text ∈ texts, Printable text) :
    Printable (",".intercalate texts) := by
  induction texts with
  | nil => simp [Printable]
  | cons text texts ih =>
      obtain ⟨own, others⟩ := List.forall_mem_cons.mp printable
      by_cases last : texts = []
      · rw [last, String.intercalate_singleton]
        exact own
      · have comma : Printable "," := by decide
        rw [String.intercalate_cons_of_ne_nil last]
        exact (own.append comma).append (ih others)

theorem printable_digits {digits : List Char} (decimal : ∀ c ∈ digits, c.isDigit = true) :
    Printable (String.ofList digits) := by
  intro c mem
  rw [String.toList_ofList] at mem
  have digit := decimal c mem
  constructor <;> rintro rfl <;> exact absurd digit (by decide)

theorem printable_nat (n : Nat) : Printable (toString n) := by
  show Printable (String.ofList (Nat.toDigits 10 n))
  apply printable_digits
  intro c mem
  exact Nat.isDigit_of_mem_toDigits (by decide) (by decide) mem

theorem printable_int (i : Int) : Printable (toString i) := by
  cases i with
  | ofNat n => exact printable_nat n
  | negSucc n =>
      have minus : Printable "-" := by decide
      exact minus.append (printable_nat (n + 1))

private theorem digitChar_unbroken : ∀ d < 16, Nat.digitChar d ≠ '\n' ∧ Nat.digitChar d ≠ '\r' := by
  decide

theorem escapedChar_unbroken (c : Char) : ∀ d ∈ escapedChar c, d ≠ '\n' ∧ d ≠ '\r' := by
  unfold escapedChar
  split
  case h_8 not_lf _ not_cr =>
    split
    · rename_i control
      have high := digitChar_unbroken (c.toNat / 16) (by omega)
      have low := digitChar_unbroken (c.toNat % 16) (by omega)
      simp [high, low]
    · intro d mem
      rw [List.mem_singleton.mp mem]
      exact ⟨not_lf, not_cr⟩
  all_goals simp

theorem printable_quoted (text : String) : Printable (quoted text) := by
  have quote : Printable "\"" := by decide
  refine (quote.append ?_).append quote
  intro d mem
  rw [String.toList_ofList] at mem
  obtain ⟨c, -, here⟩ := List.mem_flatMap.mp mem
  exact escapedChar_unbroken c d here

private theorem printable_null : Printable "null" := by decide

private theorem printable_bool (b : Bool) : Printable (if b then "true" else "false") := by
  cases b <;> decide

private theorem printable_within {opening closing text : String} (left : Printable opening)
    (right : Printable closing) (inner : Printable text) : Printable (opening ++ text ++ closing) :=
  (left.append inner).append right

variable (double : DoubleText)

mutual

theorem printable_serialize : ∀ value : Json, Printable (serialize double value)
  | .null => printable_null
  | .bool b => printable_bool b
  | .int64 i => printable_int i
  | .uint64 n => printable_nat n
  | .double q => double.printable q
  | .string s => printable_quoted s
  | .array items => by
      rw [serialize]
      exact printable_within (by decide) (by decide) (printable_intercalate (printable_items items))
  | .object fields => by
      rw [serialize]
      exact printable_within (by decide) (by decide) (printable_intercalate (printable_fields fields))

theorem printable_items : ∀ items : List Json, ∀ text ∈ itemTexts double items, Printable text
  | [] => by simp [itemTexts]
  | item :: rest => by
      rw [itemTexts, List.forall_mem_cons]
      exact ⟨printable_serialize item, printable_items rest⟩

theorem printable_fields : ∀ fields : List (String × Json),
    ∀ text ∈ fieldTexts double fields, Printable text
  | [] => by simp [fieldTexts]
  | (key, value) :: rest => by
      rw [fieldTexts, List.forall_mem_cons]
      exact ⟨.append (.append (printable_quoted key) (by decide)) (printable_serialize value),
        printable_fields rest⟩

end

end Printable

end Scand.Foundation.JsonText
