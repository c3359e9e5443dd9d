/- path: Scand/Foundation/Restarts
   layer: library
   digest: Runs over several lives: a restart keeps what survives of the shared state and drops every
   process. -/

import Scand.Foundation.Interleaving

set_option autoImplicit false
set_option relaxedAutoImplicit false

namespace Scand.Foundation.Restarts

open Scand.Foundation.Interleaving

variable {σ π ρ : Type}

/-- The configurations that a machine reaches over any number of lives: decisions that satisfy the
guard `G`, and restarts at any moment. -/
inductive Lives (M : Machine σ π ρ) (G : Config σ π → Label π ρ → Prop) (restart : σ → Config σ π)
    (c₀ : Config σ π) : Config σ π → Prop
  | start : Lives M G restart c₀ c₀
  | step {c d : Config σ π} {l : Label π ρ} :
      Lives M G restart c₀ c → G c l → M.next c l = some d → Lives M G restart c₀ d
  | crash {c : Config σ π} : Lives M G restart c₀ c → Lives M G restart c₀ (restart c.shared)

section Rules

variable {M : Machine σ π ρ} {G : Config σ π → Label π ρ → Prop} {restart : σ → Config σ π}
  {c₀ c d : Config σ π}

theorem Lives.invariant {I : Config σ π → Prop} (lives : Lives M G restart c₀ c) (initial : I c₀)
    (preserved : ∀ c d l, I c → G c l → M.next c l = some d → I d)
    (survives : ∀ c, I c → I (restart c.shared)) : I c := by
  induction lives with
  | start => exact initial
  | step _ guard next ih => exact preserved _ _ _ ih guard next
  | crash _ ih => exact survives _ ih

theorem Lives.reach (first : Lives M G restart c₀ c) (later : Reach M G c d) :
    Lives M G restart c₀ d := by
  induction later with
  | refl => exact first
  | step _ guard next ih => exact .step ih guard next

def relive (M : Machine σ π ρ) (g : Config σ π → Label π ρ → Bool)
    (restart : σ → Config σ π) : Config σ π → List (List (Label π ρ)) → Option (Config σ π)
  | c, [] => some c
  | c, [life] => M.run g c life
  | c, life :: lives => (M.run g c life).bind fun d => relive M g restart (restart d.shared) lives

theorem lives_of_relive {g : Config σ π → Label π ρ → Bool}
    (passes : ∀ c l, g c l = true → G c l) (lives : Lives M G restart c₀ c)
    {schedules : List (List (Label π ρ))} (h : relive M g restart c schedules = some d) :
    Lives M G restart c₀ d := by
  induction schedules generalizing c with
  | nil =>
      cases h
      exact lives
  | cons life rest ih =>
      cases rest with
      | nil => exact lives.reach (reach_of_run passes h)
      | cons next rest =>
          obtain ⟨e, run, h⟩ := Option.bind_eq_some_iff.mp h
          exact ih (.crash (lives.reach (reach_of_run passes run))) h

theorem lives_of_relive_test {g : Config σ π → Label π ρ → Bool}
    (schedules : List (List (Label π ρ))) (test : Config σ π → Bool)
    (passes : ∀ c l, g c l = true → G c l)
    (h : (relive M g restart c₀ schedules).map test = some true) :
    ∃ d, Lives M G restart c₀ d ∧ test d = true := by
  obtain ⟨d, relived, passed⟩ := Option.map_eq_some_iff.mp h
  exact ⟨d, lives_of_relive passes .start relived, passed⟩

end Rules

end Scand.Foundation.Restarts
