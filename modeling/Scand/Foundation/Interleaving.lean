/- path: Scand/Foundation/Interleaving
   layer: library
   digest: Sequential processes over one shared state, their guarded runs and token counting. -/

import Mathlib.Data.List.Perm.Basic
import Mathlib.Data.Bool.Basic
import Mathlib.Logic.Relation

set_option autoImplicit false
set_option relaxedAutoImplicit false

namespace Scand.Foundation.Interleaving

/-- The atomic steps of a family of processes. A step sees the index of the process, the shared
state, the control state of the process and one reply of its environment; `none` means that this
reply is impossible there. -/
structure Machine (σ π ρ : Type) where
  entry : π → Bool
  step : Nat → σ → π → ρ → Option (σ × π)

structure Config (σ π : Type) where
  shared : σ
  procs : List π

inductive Label (π ρ : Type)
  | spawn (p : π)
  | act (i : Nat) (r : ρ)

variable {σ π ρ : Type}

def Machine.next (M : Machine σ π ρ) (c : Config σ π) : Label π ρ → Option (Config σ π)
  | .spawn p => if M.entry p then some ⟨c.shared, c.procs ++ [p]⟩ else none
  | .act i r =>
      match c.procs[i]? with
      | none => none
      | some p =>
          match M.step i c.shared p r with
          | none => none
          | some (s, q) => some ⟨s, c.procs.set i q⟩

/-- A whole schedule, replayed from left to right as long as every decision passes the test `g`. -/
def Machine.run (M : Machine σ π ρ) (g : Config σ π → Label π ρ → Bool) :
    Config σ π → List (Label π ρ) → Option (Config σ π)
  | c, [] => some c
  | c, l :: ls => if g c l then (M.next c l).bind fun d => M.run g d ls else none

/-- Configurations reachable by scheduling decisions that all satisfy the guard `G`. -/
inductive Reach (M : Machine σ π ρ) (G : Config σ π → Label π ρ → Prop) (c₀ : Config σ π) :
    Config σ π → Prop
  | refl : Reach M G c₀ c₀
  | step {c d : Config σ π} {l : Label π ρ} :
      Reach M G c₀ c → G c l → M.next c l = some d → Reach M G c₀ d

abbrev anyLabel : Config σ π → Label π ρ → Prop := fun _ _ => True

theorem next_spawn {M : Machine σ π ρ} {c d : Config σ π} {p : π}
    (h : M.next c (.spawn p) = some d) :
    M.entry p = true ∧ d = ⟨c.shared, c.procs ++ [p]⟩ := by
  simp only [Machine.next] at h
  split at h
  · rename_i entry
    exact ⟨entry, (Option.some.inj h).symm⟩
  · cases h

theorem next_act {M : Machine σ π ρ} {c d : Config σ π} {i : Nat} {r : ρ}
    (h : M.next c (.act i r) = some d) :
    ∃ p s q, c.procs[i]? = some p ∧ M.step i c.shared p r = some (s, q) ∧
      d = ⟨s, c.procs.set i q⟩ := by
  simp only [Machine.next] at h
  split at h
  · cases h
  · rename_i p at_i
    split at h
    · cases h
    · rename_i s q stepped
      exact ⟨p, s, q, at_i, stepped, (Option.some.inj h).symm⟩

theorem next_cases {M : Machine σ π ρ} {c d : Config σ π} {l : Label π ρ}
    (h : M.next c l = some d) :
    (∃ p, l = .spawn p ∧ M.entry p = true ∧ d = ⟨c.shared, c.procs ++ [p]⟩) ∨
    (∃ i r p s q, l = .act i r ∧ c.procs[i]? = some p ∧
      M.step i c.shared p r = some (s, q) ∧ d = ⟨s, c.procs.set i q⟩) := by
  cases l with
  | spawn p =>
      obtain ⟨entry, rfl⟩ := next_spawn h
      exact Or.inl ⟨p, rfl, entry, rfl⟩
  | act i r =>
      obtain ⟨p, s, q, at_i, stepped, rfl⟩ := next_act h
      exact Or.inr ⟨i, r, p, s, q, rfl, at_i, stepped, rfl⟩

/-- An invariant kept by every guarded decision holds throughout every guarded run. -/
theorem Reach.invariant {M : Machine σ π ρ} {G : Config σ π → Label π ρ → Prop}
    {c₀ c : Config σ π} {I : Config σ π → Prop} (reach : Reach M G c₀ c) (initial : I c₀)
    (preserved : ∀ c d l, I c → G c l → M.next c l = some d → I d) : I c := by
  induction reach with
  | refl => exact initial
  | step _ guard next ih => exact preserved _ _ _ ih guard next

theorem Reach.trans {M : Machine σ π ρ} {G : Config σ π → Label π ρ → Prop}
    {c₀ c d : Config σ π} (first : Reach M G c₀ c) (second : Reach M G c d) :
    Reach M G c₀ d := by
  induction second with
  | refl => exact first
  | step _ guard next ih => exact .step ih guard next

theorem Reach.mono {M : Machine σ π ρ} {G H : Config σ π → Label π ρ → Prop}
    {c₀ c : Config σ π} (weaker : ∀ c l, G c l → H c l) (reach : Reach M G c₀ c) :
    Reach M H c₀ c := by
  induction reach with
  | refl => exact .refl
  | step _ guard next ih => exact .step ih (weaker _ _ guard) next

theorem Reach.lift {σ' : Type} {M : Machine σ π ρ} {N : Machine σ' π ρ}
    {image : Config σ' π → Config σ π}
    (moves : ∀ d l, M.next (image d) l = (N.next d l).map image) {d₀ : Config σ' π}
    {c : Config σ π} (reach : Reach M anyLabel (image d₀) c) :
    ∃ d, Reach N anyLabel d₀ d ∧ c = image d := by
  induction reach with
  | refl => exact ⟨d₀, .refl, rfl⟩
  | step _ _ next ih =>
      obtain ⟨d, before, rfl⟩ := ih
      rw [moves] at next
      obtain ⟨after, moved, rfl⟩ := Option.map_eq_some_iff.mp next
      exact ⟨after, before.step trivial moved, rfl⟩

theorem reach_of_schedule {M : Machine σ π ρ} {G : Config σ π → Label π ρ → Prop}
    {g : Config σ π → Label π ρ → Bool} {c d : Config σ π} {ls : List (Label π ρ)}
    (passes : ∀ l ∈ ls, ∀ c, g c l = true → G c l) (h : M.run g c ls = some d) : Reach M G c d := by
  induction ls generalizing c with
  | nil =>
      cases h
      exact .refl
  | cons l ls ih =>
      simp only [Machine.run] at h
      split at h
      · rename_i allowed
        obtain ⟨e, next, rest⟩ := Option.bind_eq_some_iff.mp h
        have first : Reach M G c e := .step .refl (passes l List.mem_cons_self c allowed) next
        exact first.trans (ih (fun l mem => passes l (List.mem_cons_of_mem _ mem)) rest)
      · cases h

theorem reach_of_run {M : Machine σ π ρ} {G : Config σ π → Label π ρ → Prop}
    {g : Config σ π → Label π ρ → Bool} (passes : ∀ c l, g c l = true → G c l)
    {c d : Config σ π} {ls : List (Label π ρ)} (h : M.run g c ls = some d) : Reach M G c d :=
  reach_of_schedule (fun l _ c => passes c l) h

theorem run_congr {M N : Machine σ π ρ} {g : Config σ π → Label π ρ → Bool}
    {ls : List (Label π ρ)} (agree : ∀ l ∈ ls, ∀ c, M.next c l = N.next c l) (c : Config σ π) :
    M.run g c ls = N.run g c ls := by
  induction ls generalizing c with
  | nil => rfl
  | cons l ls ih =>
      have rest := ih fun l mem => agree l (List.mem_cons_of_mem _ mem)
      simp only [Machine.run, agree l List.mem_cons_self c]
      split
      · exact congrArg _ (funext rest)
      · rfl

theorem reach_of_run_test {M : Machine σ π ρ} {G : Config σ π → Label π ρ → Prop}
    {g : Config σ π → Label π ρ → Bool} {c : Config σ π} (ls : List (Label π ρ))
    (test : Config σ π → Bool) (passes : ∀ c l, g c l = true → G c l)
    (h : (M.run g c ls).map test = some true) : ∃ d, Reach M G c d ∧ test d = true := by
  obtain ⟨d, run, passed⟩ := Option.map_eq_some_iff.mp h
  exact ⟨d, reach_of_run passes run, passed⟩

theorem reach_next_of_run_test {M : Machine σ π ρ} {G : Config σ π → Label π ρ → Prop}
    {g : Config σ π → Label π ρ → Bool} {c : Config σ π} (ls : List (Label π ρ))
    (l : Label π ρ) (test : Config σ π → Config σ π → Bool)
    (passes : ∀ c l, g c l = true → G c l)
    (h : ((M.run g c ls).bind fun d => (M.next d l).map (test d)) = some true) :
    ∃ d e, Reach M G c d ∧ M.next d l = some e ∧ test d e = true := by
  obtain ⟨d, run, h⟩ := Option.bind_eq_some_iff.mp h
  obtain ⟨e, next, passed⟩ := Option.map_eq_some_iff.mp h
  exact ⟨d, e, reach_of_run passes run, next, passed⟩

theorem reach_next_reach_of_run_test {M : Machine σ π ρ} {G : Config σ π → Label π ρ → Prop}
    {g : Config σ π → Label π ρ → Bool} {a : Config σ π} (before : List (Label π ρ))
    (l : Label π ρ) (after : List (Label π ρ)) (test : Config σ π → Config σ π → Config σ π → Bool)
    (passes : ∀ c l, g c l = true → G c l)
    (h : ((M.run g a before).bind fun c => (M.next c l).bind fun d =>
      (M.run g d after).map fun e => g c l && test c d e) = some true) :
    ∃ c d e, Reach M G a c ∧ G c l ∧ M.next c l = some d ∧ Reach M G d e ∧ test c d e = true := by
  obtain ⟨c, run, h⟩ := Option.bind_eq_some_iff.mp h
  obtain ⟨d, next, h⟩ := Option.bind_eq_some_iff.mp h
  obtain ⟨e, run', h⟩ := Option.map_eq_some_iff.mp h
  obtain ⟨guard, passed⟩ := Bool.and_eq_true_iff.mp h
  exact ⟨c, d, e, reach_of_run passes run, passes c l guard, next, reach_of_run passes run', passed⟩

/-- The same machine, with every process keeping the places it left and the replies it got. -/
def Machine.recording (M : Machine σ π ρ) : Machine σ (π × List (π × ρ)) ρ where
  entry p := M.entry p.1 && p.2.isEmpty
  step i s p r := (M.step i s p.1 r).map fun next => (next.1, next.2, p.2 ++ [(p.1, r)])

theorem recording_step {M : Machine σ π ρ} {i : Nat} {s s' : σ} {p q : π × List (π × ρ)} {r : ρ}
    (h : M.recording.step i s p r = some (s', q)) :
    M.step i s p.1 r = some (s', q.1) ∧ q.2 = p.2 ++ [(p.1, r)] := by
  obtain ⟨next, stepped, same⟩ := Option.map_eq_some_iff.mp h
  cases same
  exact ⟨stepped, rfl⟩

theorem recording_entry {M : Machine σ π ρ} {p : π × List (π × ρ)}
    (h : M.recording.entry p = true) : M.entry p.1 = true ∧ p.2 = [] := by
  simpa [Machine.recording] using h

/-- The same machine, with a note next to the shared state that every step may rewrite. -/
def Machine.tracking {γ : Type} (M : Machine σ π ρ) (note : σ → γ → π → γ) : Machine (σ × γ) π ρ where
  entry := M.entry
  step i s p r := (M.step i s.1 p r).map fun next => ((next.1, note s.1 s.2 p), next.2)

theorem tracking_step {γ : Type} {M : Machine σ π ρ} {note : σ → γ → π → γ} {i : Nat}
    {s s' : σ × γ} {p q : π} {r : ρ} (h : (M.tracking note).step i s p r = some (s', q)) :
    M.step i s.1 p r = some (s'.1, q) ∧ s'.2 = note s.1 s.2 p := by
  obtain ⟨next, stepped, same⟩ := Option.map_eq_some_iff.mp h
  cases same
  exact ⟨stepped, rfl⟩

def Machine.logging {γ : Type} (M : Machine σ π ρ) (log : Nat → σ → γ → π → γ) :
    Machine (σ × γ) π ρ where
  entry := M.entry
  step i s p r := (M.step i s.1 p r).map fun next => ((next.1, log i s.1 s.2 p), next.2)

theorem logging_step {γ : Type} {M : Machine σ π ρ} {log : Nat → σ → γ → π → γ} {i : Nat}
    {s s' : σ × γ} {p q : π} {r : ρ} (h : (M.logging log).step i s p r = some (s', q)) :
    M.step i s.1 p r = some (s'.1, q) ∧ s'.2 = log i s.1 s.2 p := by
  obtain ⟨next, stepped, same⟩ := Option.map_eq_some_iff.mp h
  cases same
  exact ⟨stepped, rfl⟩

section Plain

variable {M : Machine σ π ρ}

def Config.plain (c : Config σ (π × List (π × ρ))) : Config σ π := ⟨c.shared, c.procs.map Prod.fst⟩

def Label.plain : Label (π × List (π × ρ)) ρ → Label π ρ
  | .spawn p => .spawn p.1
  | .act i r => .act i r

theorem recording_next {c d : Config σ (π × List (π × ρ))} {l : Label (π × List (π × ρ)) ρ}
    (h : M.recording.next c l = some d) : M.next c.plain l.plain = some d.plain := by
  rcases next_cases h with ⟨p, rfl, entry, rfl⟩ | ⟨i, r, p, s, q, rfl, at_i, stepped, rfl⟩
  · simp [Machine.next, Config.plain, Label.plain, (recording_entry entry).1]
  · obtain ⟨inner, -⟩ := recording_step stepped
    simp [Machine.next, Config.plain, Label.plain, at_i, inner, List.map_set]

theorem Reach.plain {G : Config σ π → Label π ρ → Prop} {c₀ c : Config σ (π × List (π × ρ))}
    (reach : Reach M.recording (fun c l => G c.plain l.plain) c₀ c) :
    Reach M G c₀.plain c.plain := by
  induction reach with
  | refl => exact .refl
  | step _ guard next ih => exact .step ih guard (recording_next next)

end Plain

theorem getElem?_snoc_cases {ps : List π} {p q : π} {i : Nat} (at_i : (ps ++ [q])[i]? = some p) :
    ps[i]? = some p ∨ p = q := by
  by_cases old : i < ps.length
  · rw [List.getElem?_append_left old] at at_i
    exact Or.inl at_i
  · rw [List.getElem?_append_right (Nat.le_of_not_lt old)] at at_i
    exact Or.inr (List.mem_singleton.mp (List.mem_of_getElem? at_i))

theorem getElem?_snoc_kept {ps : List π} {p q : π} {i : Nat} (at_i : ps[i]? = some p) :
    (ps ++ [q])[i]? = some p := by
  have bound := (List.getElem?_eq_some_iff.mp at_i).1
  rw [List.getElem?_append_left bound]
  exact at_i

theorem getElem?_set_here {ps : List π} {p q : π} {i : Nat} (at_i : ps[i]? = some p) :
    (ps.set i q)[i]? = some q :=
  List.getElem?_set_self (List.getElem?_eq_some_iff.mp at_i).1

theorem getElem?_set_cases {ps : List π} {q r : π} {i j : Nat}
    (at_j : (ps.set i q)[j]? = some r) : (i = j ∧ r = q) ∨ (i ≠ j ∧ ps[j]? = some r) := by
  by_cases same : i = j
  · subst same
    have bound : i < ps.length := by
      have bound' := (List.getElem?_eq_some_iff.mp at_j).1
      rwa [List.length_set] at bound'
    rw [List.getElem?_set_self bound] at at_j
    exact Or.inl ⟨rfl, (Option.some.inj at_j).symm⟩
  · rw [List.getElem?_set_ne same] at at_j
    exact Or.inr ⟨same, at_j⟩

theorem mem_set_cases {ps : List π} {q r : π} {i : Nat} (mem : r ∈ ps.set i q) :
    r = q ∨ ∃ j, i ≠ j ∧ ps[j]? = some r := by
  obtain ⟨j, at_j⟩ := List.mem_iff_getElem?.mp mem
  rcases getElem?_set_cases at_j with ⟨-, same⟩ | ⟨apart, at_j⟩
  · exact Or.inl same
  · exact Or.inr ⟨j, apart, at_j⟩

theorem mem_set_iff {ps : List π} {p q r : π} {i : Nat} (at_i : ps[i]? = some p) (other : r ≠ p)
    (other' : r ≠ q) : r ∈ ps.set i q ↔ r ∈ ps := by
  constructor
  · intro mem
    rcases mem_set_cases mem with same | ⟨j, -, at_j⟩
    · exact absurd same other'
    · exact List.mem_of_getElem? at_j
  · intro mem
    obtain ⟨j, at_j⟩ := List.mem_iff_getElem?.mp mem
    have apart : i ≠ j := by
      rintro rfl
      exact other (Option.some.inj (at_j.symm.trans at_i))
    rw [← List.getElem?_set_ne apart] at at_j
    exact List.mem_of_getElem? at_j

theorem getElem?_set_kept {ps : List π} {p q r : π} {i j : Nat} (at_i : ps[i]? = some p)
    (at_j : ps[j]? = some r) (other : r ≠ p) : (ps.set i q)[j]? = some r := by
  have apart : i ≠ j := by
    rintro rfl
    exact other (Option.some.inj (at_j.symm.trans at_i))
  rw [List.getElem?_set_ne apart]
  exact at_j

/-- What holds of a process when it starts and is kept by its own steps holds of it in every run. -/
theorem Reach.process {M : Machine σ π ρ} {G : Config σ π → Label π ρ → Prop} {s₀ : σ}
    {c : Config σ π} {i : Nat} {I : π → Prop} (reach : Reach M G ⟨s₀, []⟩ c)
    (initial : ∀ p, M.entry p = true → I p)
    (preserved : ∀ c p r s q, I p → c.procs[i]? = some p → G c (.act i r) →
      M.step i c.shared p r = some (s, q) → I q) :
    ∀ p, c.procs[i]? = some p → I p := by
  refine reach.invariant (I := fun c => ∀ p, c.procs[i]? = some p → I p) (fun p none_yet => ?_)
    fun c d l before guard next => ?_
  · cases none_yet
  · rcases next_cases next with ⟨p, rfl, entry, rfl⟩ | ⟨j, r, p, s, q, rfl, at_j, stepped, rfl⟩
    · intro other at_i
      rcases getElem?_snoc_cases at_i with old | rfl
      · exact before other old
      · exact initial other entry
    · intro other at_i
      rcases getElem?_set_cases at_i with ⟨rfl, rfl⟩ | ⟨-, at_i⟩
      · exact preserved c p r s other (before p at_j) at_j guard stepped
      · exact before other at_i

section Processes

variable {M : Machine σ π ρ}

theorem forall_mem_set {P : π → Prop} {ps : List π} {i : Nat} {q : π}
    (all : ∀ p ∈ ps, P p) (hq : P q) : ∀ p ∈ ps.set i q, P p := by
  intro p mem
  rcases List.mem_or_eq_of_mem_set mem with old | rfl
  · exact all p old
  · exact hq

theorem forall_mem_snoc {P : π → Prop} {ps : List π} {q : π}
    (all : ∀ p ∈ ps, P p) (hq : P q) : ∀ p ∈ ps ++ [q], P p := by
  intro p mem
  rcases List.mem_append.mp mem with old | new
  · exact all p old
  · exact (List.mem_singleton.mp new) ▸ hq

theorem countP_set_add {f : π → Bool} {ps : List π} {i : Nat} {p q : π}
    (h : ps[i]? = some p) :
    (ps.set i q).countP f + (f p).toNat = ps.countP f + (f q).toNat := by
  obtain ⟨bound, rfl⟩ := List.getElem?_eq_some_iff.mp h
  have pos : (if f ps[i] = true then 1 else 0) ≤ ps.countP f := by
    split
    · exact List.countP_pos_iff.mpr ⟨ps[i], List.getElem_mem bound, by assumption⟩
    · exact Nat.zero_le _
  rw [List.countP_set bound]
  cases hp : f ps[i] <;> cases hq : f q <;> simp_all

theorem filterMap_set_perm {α : Type} {f : π → Option α} {ps : List π} {i : Nat} {p q : π}
    (h : ps[i]? = some p) :
    ((ps.set i q).filterMap f ++ (f p).toList).Perm (ps.filterMap f ++ (f q).toList) := by
  induction ps generalizing i with
  | nil => simp at h
  | cons a ps ih =>
      cases i with
      | zero =>
          obtain rfl : a = p := by simpa using h
          have swap : ∀ x y : Option α, ∀ l : List α,
              (y.toList ++ l ++ x.toList).Perm (x.toList ++ l ++ y.toList) := by
            intro x y l
            rw [List.append_assoc, List.append_assoc]
            exact List.perm_append_comm.trans ((List.perm_append_comm.append_right _).trans
              (by rw [List.append_assoc]))
          have head : ∀ b : π, (b :: ps).filterMap f = (f b).toList ++ ps.filterMap f := by
            intro b
            cases hb : f b <;> simp [hb]
          simpa only [List.set_cons_zero, head] using swap (f a) (f q) (ps.filterMap f)
      | succ i =>
          have tail := ih (i := i) (by simpa using h)
          have head : ∀ rest : List π, (a :: rest).filterMap f =
              (f a).toList ++ rest.filterMap f := by
            intro rest
            cases ha : f a <;> simp [ha]
          simpa only [List.set_cons_succ, head, List.append_assoc] using
            tail.append_left (f a).toList

theorem countP_snoc {f : π → Bool} {ps : List π} {q : π} :
    (ps ++ [q]).countP f = ps.countP f + (f q).toNat := by
  cases h : f q <;> simp [List.countP_append, h]

theorem eq_of_countP_le_one {f : π → Bool} {ps : List π} (le : ps.countP f ≤ 1)
    {i j : Nat} {p q : π} (hi : ps[i]? = some p) (hj : ps[j]? = some q)
    (hp : f p = true) (hq : f q = true) : i = j := by
  induction ps generalizing i j with
  | nil => simp at hi
  | cons a ps ih =>
      have tail_le : ps.countP f ≤ 1 := by
        rw [List.countP_cons] at le
        omega
      have none_left : f a = true → ∀ (k : Nat) (r : π), ps[k]? = some r → f r = true → False := by
        intro ha k r hk hr
        have pos := List.countP_pos_iff.mpr ⟨r, List.mem_of_getElem? hk, hr⟩
        rw [List.countP_cons, if_pos ha] at le
        omega
      cases i with
      | zero =>
          cases j with
          | zero => rfl
          | succ j =>
              obtain rfl : a = p := by simpa using hi
              exact (none_left hp j q (by simpa using hj) hq).elim
      | succ i =>
          cases j with
          | zero =>
              obtain rfl : a = q := by simpa using hj
              exact (none_left hq i p (by simpa using hi) hp).elim
          | succ j =>
              have same : i = j := ih tail_le (by simpa using hi) (by simpa using hj)
              rw [same]

end Processes

/-- A list put together from lists, each of which stays in its order: one of them goes on at a time. -/
inductive Merge {α : Type} : List α → List (List α) → Prop
  | start {parts : List (List α)} : (∀ part ∈ parts, part = []) → Merge [] parts
  | goOn {whole part : List α} {parts : List (List α)} {i : Nat} (more : List α) :
      Merge whole parts → parts[i]? = some part →
      Merge (whole ++ more) (parts.set i (part ++ more))

theorem Merge.snoc_nil {α : Type} {whole : List α} {parts : List (List α)} (merge : Merge whole parts) :
    Merge whole (parts ++ [[]]) := by
  induction merge with
  | start empty =>
      apply Merge.start
      intro part mem
      rcases List.mem_append.mp mem with old | new
      · exact empty part old
      · exact List.mem_singleton.mp new
  | goOn more _ at_i ih =>
      have bound := (List.getElem?_eq_some_iff.mp at_i).1
      rw [← List.set_append_left _ _ bound]
      exact ih.goOn more (getElem?_snoc_kept at_i)

/-- The outputs of processes, where process `i` moves on and puts out more. -/
theorem Merge.moved {α : Type} {whole more : List α} {ps : List π} {p q : π} {i : Nat} {f : π → List α}
    (merge : Merge whole (ps.map f)) (at_i : ps[i]? = some p) (moved : f q = f p ++ more) :
    Merge (whole ++ more) ((ps.set i q).map f) := by
  have here : (ps.map f)[i]? = some (f p) := by
    rw [List.getElem?_map, at_i]
    rfl
  rw [List.map_set, moved]
  exact merge.goOn more here

/-- A token of the shared state, counted against the processes that hold it. -/
def TokenCount (token : σ → Bool) (holds : π → Bool) (c : Config σ π) : Prop :=
  c.procs.countP holds = (token c.shared).toNat

/-- The local balance of one atomic step: a process takes the token exactly when it starts to hold
it, and gives it back exactly when it stops. -/
def TokenBalanced (token : σ → Bool) (holds : π → Bool) (s : σ) (p : π) (s' : σ) (p' : π) : Prop :=
  (holds p').toNat + (token s).toNat = (holds p).toNat + (token s').toNat

theorem TokenCount.held {token : σ → Bool} {holds : π → Bool} {c : Config σ π}
    (count : TokenCount token holds c) {i : Nat} {p : π} (at_i : c.procs[i]? = some p)
    (hp : holds p = true) : token c.shared = true := by
  have pos := List.countP_pos_iff.mpr ⟨p, List.mem_of_getElem? at_i, hp⟩
  unfold TokenCount at count
  cases held : token c.shared with
  | true => rfl
  | false =>
      rw [held, Bool.toNat_false] at count
      omega

theorem TokenCount.next {M : Machine σ π ρ} {token : σ → Bool} {holds : π → Bool}
    {c d : Config σ π} {l : Label π ρ} (count : TokenCount token holds c)
    (next : M.next c l = some d)
    (fresh : ∀ p, M.entry p = true → holds p = false)
    (balanced : ∀ i r p s q, l = .act i r → c.procs[i]? = some p →
      M.step i c.shared p r = some (s, q) → TokenBalanced token holds c.shared p s q) :
    TokenCount token holds d := by
  unfold TokenCount at count ⊢
  rcases next_cases next with ⟨p, rfl, entry, rfl⟩ | ⟨i, r, p, s, q, rfl, at_i, stepped, rfl⟩
  · rw [countP_snoc, fresh p entry, count]
    rfl
  · have moved := countP_set_add (f := holds) (q := q) at_i
    have local_balance := balanced i r p s q rfl at_i stepped
    unfold TokenBalanced at local_balance
    simp only
    omega

end Scand.Foundation.Interleaving
