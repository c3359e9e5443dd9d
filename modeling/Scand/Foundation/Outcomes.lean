/- path: Scand/Foundation/Outcomes
   layer: library
   digest: Computations by their possible outcomes: an exception, or a value with the log lines
   written on the way. -/

import Mathlib.Data.List.Basic

set_option autoImplicit false
set_option relaxedAutoImplicit false

namespace Scand.Foundation.Outcomes

/-- A run ends with the text of an exception, or with a value and what it logged. -/
def Run (α : Type) := Except String (α × List String) → Prop

namespace Run

variable {α β : Type}

def exactly (outcome : Except String (α × List String)) : Run α := fun r => r = outcome

protected def pure (a : α) : Run α := exactly (.ok (a, []))

/-- An exception of the first part is the exception of the whole. -/
protected def bind (x : Run α) (f : α → Run β) : Run β := fun r =>
  match r with
  | .error e => x (.error e) ∨ ∃ a log, x (.ok (a, log)) ∧ f a (.error e)
  | .ok (b, log) => ∃ a first second, x (.ok (a, first)) ∧ f a (.ok (b, second)) ∧
      log = first ++ second

instance : Monad Run where
  pure := Run.pure
  bind := Run.bind

theorem pure_ok {a b : α} {log : List String} :
    (pure a : Run α) (.ok (b, log)) ↔ b = a ∧ log = [] := by
  change Except.ok (b, log) = Except.ok (a, []) ↔ _
  simp

theorem bind_ok {x : Run α} {f : α → Run β} {b : β} {log : List String} :
    (x >>= f) (.ok (b, log)) ↔
      ∃ a first second, x (.ok (a, first)) ∧ f a (.ok (b, second)) ∧ log = first ++ second :=
  Iff.rfl

theorem then_ok {x : Run α} {f : α → Run β} {a : α} {b : β} {first second : List String}
    (left : x (.ok (a, first))) (right : f a (.ok (b, second))) :
    (x >>= f) (.ok (b, first ++ second)) :=
  bind_ok.mpr ⟨a, first, second, left, right, rfl⟩

theorem map_ok {x : Run α} {a : α} {log : List String} (left : x (.ok (a, log))) (f : α → β) :
    (x >>= fun a => pure (f a)) (.ok (f a, log)) := by
  have done : (pure (f a) : Run β) (.ok (f a, [])) := pure_ok.mpr ⟨rfl, rfl⟩
  exact bind_ok.mpr ⟨a, log, [], left, done, (List.append_nil log).symm⟩

end Run

end Scand.Foundation.Outcomes
