/- path: Scand/Foundation/JsonLiteral
   layer: library
   digest: JSON string literals and the texts that they stand for: what needs an escape makes a literal
   longer than its text. -/

import Scand.Foundation.PlaceValue
import Mathlib.Data.List.Basic

set_option autoImplicit false
set_option relaxedAutoImplicit false

namespace Scand.Foundation.JsonLiteral

open Scand.Foundation.PlaceValue (hexDigit)

abbrev Text := List Char

def special (c : Char) : Bool := c = '"' || c = '\\' || c.toNat < 0x20

def Plain (t : Text) : Prop := ∀ c ∈ t, special c = false

instance (t : Text) : Decidable (Plain t) := List.decidableBAll (fun c => special c = false) t

def letterEscapes : List (Char × Char) :=
  [('"', '"'), ('\\', '\\'), ('/', '/'), ('b', '\x08'), ('f', '\x0c'), ('n', '\n'), ('r', '\r'),
    ('t', '\t')]

def hex4 (ds : Text) : Option Nat :=
  if ds.length = 4 then ds.foldl (fun v d => v.bind fun v => (hexDigit d).map (16 * v + ·)) (some 0)
  else none

inductive Escape : Text → Char → Prop
  | letter (x c : Char) : (x, c) ∈ letterEscapes → Escape [x] c
  | unicode (ds : Text) (n : Nat) : hex4 ds = some n → n.isValidChar → Escape ('u' :: ds) (Char.ofNat n)
  | surrogates (ds ds' : Text) (high low : Nat) : hex4 ds = some (0xD800 + high) →
      hex4 ds' = some (0xDC00 + low) → high < 0x400 → low < 0x400 →
      Escape ('u' :: ds ++ '\\' :: 'u' :: ds') (Char.ofNat (0x10000 + 0x400 * high + low))

/-- What stands between the quotes of a literal, and the text that the literal stands for. -/
inductive Literal : Text → Text → Prop
  | nil : Literal [] []
  | plain {lit t : Text} (c : Char) : special c = false → Literal lit t → Literal (c :: lit) (c :: t)
  | escaped {lit t esc : Text} (c : Char) : Escape esc c → Literal lit t →
      Literal ('\\' :: esc ++ lit) (c :: t)

/-- Every string that a text holds stands there as a literal between quotes. -/
def Quoted (text t : Text) : Prop :=
  ∃ before lit after, text = before ++ '"' :: lit ++ '"' :: after ∧ Literal lit t

theorem Escape.length_pos {esc : Text} {c : Char} (escape : Escape esc c) : 1 ≤ esc.length := by
  cases escape <;> simp

theorem Literal.of_plain {t : Text} (plain : Plain t) : Literal t t := by
  induction t with
  | nil => exact .nil
  | cons c t ih =>
      obtain ⟨ordinary, rest⟩ := List.forall_mem_cons.mp plain
      exact .plain c ordinary (ih rest)

theorem Literal.length_le {lit t : Text} (literal : Literal lit t) :
    t.length ≤ lit.length ∧ (¬ Plain t → t.length < lit.length) := by
  induction literal with
  | nil => exact ⟨Nat.le_refl _, fun special => absurd (fun _ mem => nomatch mem) special⟩
  | plain c ordinary _ ih =>
      refine ⟨Nat.succ_le_succ ih.1, fun special => Nat.succ_lt_succ (ih.2 fun rest => special ?_)⟩
      exact List.forall_mem_cons.mpr ⟨ordinary, rest⟩
  | @escaped lit t esc c escape _ ih =>
      have room := escape.length_pos
      have longer : (c :: t).length < ('\\' :: esc ++ lit).length := by
        simp only [List.cons_append, List.length_cons, List.length_append]
        have := ih.1
        omega
      exact ⟨Nat.le_of_lt longer, fun _ => longer⟩

theorem Literal.ends_at_quote {lit t a after rest : Text} (literal : Literal lit t) (plain : Plain a)
    (same : lit ++ '"' :: after = a ++ '"' :: rest) : t = a := by
  induction literal generalizing a with
  | nil =>
      cases a with
      | nil => rfl
      | cons c a =>
          obtain ⟨rfl, -⟩ := List.cons.inj same
          exact absurd (plain _ List.mem_cons_self) (by decide)
  | plain c ordinary _ ih =>
      cases a with
      | nil =>
          obtain ⟨rfl, -⟩ := List.cons.inj same
          exact absurd ordinary (by decide)
      | cons d a =>
          obtain ⟨rfl, rest⟩ := List.cons.inj same
          rw [ih (List.forall_mem_cons.mp plain).2 rest]
  | escaped c _ _ _ =>
      cases a with
      | nil => exact absurd (List.cons.inj same).1 (by decide)
      | cons d a =>
          obtain ⟨rfl, -⟩ := List.cons.inj same
          exact absurd (plain _ List.mem_cons_self) (by decide)

theorem Literal.plain_of_length {lit t : Text} (literal : Literal lit t)
    (short : lit.length ≤ t.length) : Plain t := by
  by_contra special
  have longer := literal.length_le.2 special
  omega

/-- The object with one string member, its key and its value put between quotes as they are. -/
def spliced (key value : Text) : Text :=
  '\x7b' :: '"' :: (key ++ '"' :: ':' :: '"' :: (value ++ ['"', '\x7d']))

theorem plain_of_quoted {key value : Text} (plain_key : Plain key)
    (quoted : Quoted (spliced key value) value) : Plain value := by
  obtain ⟨before, lit, after, same, literal⟩ := quoted
  have no_quote : '"' ∉ key := fun mem => absurd (plain_key _ mem) (by decide)
  have between : lit ++ '"' :: after = [':'] ++ '"' :: (value ++ ['"', '\x7d']) → Plain value := by
    intro here
    have colon : Plain [':'] := by decide
    exact literal.ends_at_quote colon here ▸ colon
  rw [spliced, List.append_assoc, List.cons_append] at same
  rcases before with _ | ⟨_, before⟩
  · exact absurd (List.cons.inj same).1 (by decide)
  replace same := (List.cons.inj same).2
  rcases before with _ | ⟨_, before⟩
  · exact literal.ends_at_quote plain_key (List.cons.inj same).2.symm ▸ plain_key
  replace same := (List.cons.inj same).2
  rcases List.append_eq_append_iff.mp same with ⟨gap, rfl, rest⟩ | ⟨gap, rfl, rest⟩
  · rcases gap with _ | ⟨c, gap⟩
    · exact between (List.cons.inj rest).2.symm
    replace rest := (List.cons.inj rest).2
    rcases gap with _ | ⟨c, gap⟩
    · exact absurd (List.cons.inj rest).1 (by decide)
    replace rest := (List.cons.inj rest).2
    rcases gap with _ | ⟨c, gap⟩
    · -- the value itself
      have text : value ++ ['"', '\x7d'] = lit ++ '"' :: after := (List.cons.inj rest).2
      have ends : after ≠ [] := by
        rintro rfl
        have last := congrArg List.getLast? text
        simp at last
      have lengths := congrArg List.length text
      have some_after := List.length_pos_of_ne_nil ends
      simp only [List.length_append, List.length_cons, List.length_nil] at lengths
      exact literal.plain_of_length (by omega)
    · -- a part of it
      have text : value ++ ['"', '\x7d'] = gap ++ '"' :: (lit ++ '"' :: after) :=
        (List.cons.inj rest).2
      have lengths := congrArg List.length text
      simp only [List.length_append, List.length_cons, List.length_nil] at lengths
      exact literal.plain_of_length (by omega)
  · rcases gap with _ | ⟨c, gap⟩
    · exact between (List.cons.inj rest).2
    · obtain ⟨rfl, -⟩ := List.cons.inj rest
      exact absurd (List.mem_append_right _ List.mem_cons_self) no_quote

end Scand.Foundation.JsonLiteral
