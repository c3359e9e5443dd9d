/- path: Scand/Foundation/Tickets
   layer: library
   digest: A slot of open jobs guarded by a counter of tickets: a process takes a ticket, clears the
   slot, opens its job, and closes it only if no later ticket was taken. -/

import Scand.Foundation.Interleaving

set_option autoImplicit false
set_option relaxedAutoImplicit false

namespace Scand.Foundation.Tickets

open Scand.Foundation.Interleaving

variable {κ : Type}

/-- Where a process stands with respect to the slot. -/
inductive Phase (κ : Type)
  /-- not yet, or no longer, concerned -/
  | outside
  /-- has a ticket and will clear the slot -/
  | ticketed (t : Nat)
  /-- has cleared the slot and will open its job -/
  | cleared (t : Nat)
  /-- has opened its job, and will close it if its ticket is the last one then -/
  | holding (t : Nat) (job : κ)
  /-- will close its job -/
  | closing (job : κ)
  /-- has cleared the slot and will make all tickets stale -/
  | bumping
  deriving DecidableEq

def Phase.ticket : Phase κ → Option Nat
  | .ticketed t | .cleared t | .holding t _ => some t
  | _ => none

/-- What an atomic step does to the counter, the open jobs and the phase of its process. -/
inductive SlotStep [DecidableEq κ] : Nat → List κ → Phase κ → Nat → List κ → Phase κ → Prop
  | keep {g : Nat} {jobs jobs' : List κ} {ph : Phase κ} :
      jobs'.Sublist jobs → SlotStep g jobs ph g jobs' ph
  | take {g : Nat} {jobs : List κ} : SlotStep g jobs .outside (g + 1) jobs (.ticketed (g + 1))
  | clear {g t : Nat} {jobs : List κ} : SlotStep g jobs (.ticketed t) g [] (.cleared t)
  | start {g t : Nat} {jobs jobs' : List κ} {job : κ} :
      jobs' = jobs ++ [job] ∨ jobs' = [job] → SlotStep g jobs (.cleared t) g jobs' (.holding t job)
  | decided {g : Nat} {jobs : List κ} {job : κ} :
      SlotStep g jobs (.holding g job) g jobs (.closing job)
  | drop {g t : Nat} {jobs : List κ} {job : κ} :
      t ≠ g → SlotStep g jobs (.holding t job) g jobs .outside
  | finish {g : Nat} {jobs : List κ} {job : κ} :
      SlotStep g jobs (.closing job) g (jobs.filter (· ≠ job)) .outside
  | wipe {g : Nat} {jobs : List κ} : SlotStep g jobs .outside g [] .bumping
  | bump {g : Nat} {jobs : List κ} : SlotStep g jobs .bumping (g + 1) jobs .outside

/-- At most one job is open, and an open job is still going to be closed. -/
structure Guarded (g : Nat) (jobs : List κ) (phases : List (Phase κ)) : Prop where
  issued : ∀ ph ∈ phases, ∀ t, ph.ticket = some t → t ≤ g
  distinct : ∀ (i j : Nat) (ph ph' : Phase κ) (t : Nat), phases[i]? = some ph →
    phases[j]? = some ph' → ph.ticket = some t → ph'.ticket = some t → i = j
  single : jobs.length ≤ 1
  fresh : .cleared g ∈ phases → jobs = []
  wiped : .bumping ∈ phases → jobs = []
  covered : jobs ≠ [] → (∃ t, .ticketed t ∈ phases) ∨
    ∃ job, (.holding g job ∈ phases ∨ .closing job ∈ phases) ∧ ∀ k ∈ jobs, k = job

section Phases

variable {phases : List (Phase κ)} {i : Nat} {ph ph' : Phase κ}

private theorem mem_set_of_ne {x : Phase κ} (at_i : phases[i]? = some ph) (mem : x ∈ phases)
    (other : x ≠ ph) : x ∈ phases.set i ph' := by
  obtain ⟨j, at_j⟩ := List.mem_iff_getElem?.mp mem
  exact List.mem_of_getElem? (getElem?_set_kept at_i at_j other)

private theorem set_same (at_i : phases[i]? = some ph) : phases.set i ph = phases := by
  obtain ⟨bound, rfl⟩ := List.getElem?_eq_some_iff.mp at_i
  exact List.set_getElem_self bound

private theorem mem_set_self (at_i : phases[i]? = some ph) : ph' ∈ phases.set i ph' :=
  List.mem_set (List.getElem?_eq_some_iff.mp at_i).1 ph'

variable {g : Nat} {jobs : List κ}

private theorem tickets_kept (ph' : Phase κ) (inv : Guarded g jobs phases) (at_i : phases[i]? = some ph)
    (ticket : ∀ t, ph'.ticket = some t → ph.ticket = some t) :
    (∀ x ∈ phases.set i ph', ∀ t, x.ticket = some t → t ≤ g) ∧
      ∀ (j k : Nat) (x y : Phase κ) (t : Nat), (phases.set i ph')[j]? = some x →
        (phases.set i ph')[k]? = some y → x.ticket = some t → y.ticket = some t → j = k := by
  have old : ∀ (j : Nat) (x : Phase κ) (t : Nat), (phases.set i ph')[j]? = some x →
      x.ticket = some t → ∃ y, phases[j]? = some y ∧ y.ticket = some t := by
    intro j x t at_j has
    rcases getElem?_set_cases at_j with ⟨rfl, rfl⟩ | ⟨-, at_j⟩
    · exact ⟨ph, at_i, ticket t has⟩
    · exact ⟨x, at_j, has⟩
  constructor
  · intro x mem t has
    obtain ⟨j, at_j⟩ := List.mem_iff_getElem?.mp mem
    obtain ⟨y, at_y, has_y⟩ := old j x t at_j has
    exact inv.issued y (List.mem_of_getElem? at_y) t has_y
  · intro j k x y t at_j at_k has_x has_y
    obtain ⟨x', at_x, has_x⟩ := old j x t at_j has_x
    obtain ⟨y', at_y, has_y⟩ := old k y t at_k has_y
    exact inv.distinct j k x' y' t at_x at_y has_x has_y

private theorem guarded_empty (ph' : Phase κ) (inv : Guarded g jobs phases)
    (at_i : phases[i]? = some ph)
    (ticket : ∀ t, ph'.ticket = some t → ph.ticket = some t) :
    Guarded g ([] : List κ) (phases.set i ph') where
  issued := (tickets_kept ph' inv at_i ticket).1
  distinct := (tickets_kept ph' inv at_i ticket).2
  single := Nat.zero_le _
  fresh _ := rfl
  wiped _ := rfl
  covered filled := absurd rfl filled

end Phases

section Steps

variable {g g' : Nat} {jobs jobs' : List κ} {phases : List (Phase κ)} {i : Nat} {ph ph' : Phase κ}

private theorem Guarded.keep (inv : Guarded g jobs phases) (fewer : jobs'.Sublist jobs) :
    Guarded g jobs' phases where
  issued := inv.issued
  distinct := inv.distinct
  single := Nat.le_trans fewer.length_le inv.single
  fresh mem := List.sublist_nil.mp (inv.fresh mem ▸ fewer)
  wiped mem := List.sublist_nil.mp (inv.wiped mem ▸ fewer)
  covered filled := by
    have filled_before : jobs ≠ [] := by
      rintro rfl
      exact filled (List.sublist_nil.mp fewer)
    rcases inv.covered filled_before with ticketed | ⟨job, holder, all⟩
    · exact Or.inl ticketed
    · exact Or.inr ⟨job, holder, fun k mem => all k (fewer.subset mem)⟩

private theorem Guarded.take (inv : Guarded g jobs phases) (at_i : phases[i]? = some .outside) :
    Guarded (g + 1) jobs (phases.set i (.ticketed (g + 1))) := by
  have old_ticket : ∀ (j : Nat) (x : Phase κ) (t : Nat), phases[j]? = some x →
      x.ticket = some t → t ≤ g := fun j x t at_j => inv.issued x (List.mem_of_getElem? at_j) t
  refine ⟨fun x mem t has => ?_, fun j k x y t at_j at_k has_x has_y => ?_, inv.single,
    fun mem => ?_, fun mem => ?_, fun _ => Or.inl ⟨g + 1, mem_set_self at_i⟩⟩
  · rcases List.mem_or_eq_of_mem_set mem with old | rfl
    · exact Nat.le_succ_of_le (inv.issued x old t has)
    · cases has
      exact Nat.le_refl _
  · rcases getElem?_set_cases at_j with ⟨rfl, rfl⟩ | ⟨-, old_j⟩ <;>
      rcases getElem?_set_cases at_k with ⟨rfl, rfl⟩ | ⟨-, old_k⟩
    · rfl
    · cases has_x
      exact absurd (old_ticket k y _ old_k has_y) (Nat.not_succ_le_self g)
    · cases has_y
      exact absurd (old_ticket j x _ old_j has_x) (Nat.not_succ_le_self g)
    · exact inv.distinct j k x y t old_j old_k has_x has_y
  · rcases List.mem_or_eq_of_mem_set mem with old | new
    · exact absurd (inv.issued _ old (g + 1) rfl) (Nat.not_succ_le_self g)
    · cases new
  · rcases List.mem_or_eq_of_mem_set mem with old | new
    · exact inv.wiped old
    · cases new

private theorem Guarded.start {job : κ} (inv : Guarded g jobs phases)
    (at_i : phases[i]? = some (.cleared g)) (calm : .bumping ∉ phases)
    (opened : jobs' = jobs ++ [job] ∨ jobs' = [job]) :
    Guarded g jobs' (phases.set i (.holding g job)) := by
  obtain rfl : jobs' = [job] := by
    rw [inv.fresh (List.mem_of_getElem? at_i), List.nil_append, or_self] at opened
    exact opened
  obtain ⟨issued, distinct⟩ := tickets_kept (.holding g job) inv at_i fun _ has => has
  refine ⟨issued, distinct, Nat.le_refl _, fun mem => ?_, fun mem => ?_, fun _ => Or.inr ?_⟩
  · obtain ⟨j, at_j⟩ := List.mem_iff_getElem?.mp mem
    rcases getElem?_set_cases at_j with ⟨-, new⟩ | ⟨apart, old⟩
    · cases new
    · exact absurd (inv.distinct j i _ _ g old at_i rfl rfl) (Ne.symm apart)
  · rcases List.mem_or_eq_of_mem_set mem with old | new
    · exact absurd old calm
    · cases new
  · exact ⟨job, Or.inl (mem_set_self at_i), fun k mem => List.mem_singleton.mp mem⟩

private theorem Guarded.leave (inv : Guarded g jobs phases) (at_i : phases[i]? = some ph)
    (ticket : ph'.ticket = none) (not_bumping : ph' ≠ .bumping) (fewer : jobs'.Sublist jobs)
    (covered : jobs' ≠ [] → ∀ job, (∀ k ∈ jobs, k = job) → ph = .holding g job ∨ ph = .closing job →
      ph' = .closing job)
    (not_ticketed : ∀ t, ph ≠ .ticketed t) : Guarded g jobs' (phases.set i ph') := by
  have less := inv.keep fewer
  obtain ⟨issued, distinct⟩ := tickets_kept ph' less at_i fun t has => by
    rw [ticket] at has
    cases has
  refine ⟨issued, distinct, less.single, fun mem => ?_, fun mem => ?_, fun filled => ?_⟩
  · rcases List.mem_or_eq_of_mem_set mem with old | rfl
    · exact less.fresh old
    · cases ticket
  · rcases List.mem_or_eq_of_mem_set mem with old | new
    · exact less.wiped old
    · exact absurd new.symm not_bumping
  · have filled_before : jobs ≠ [] := by
      rintro rfl
      exact filled (List.sublist_nil.mp fewer)
    rcases inv.covered filled_before with ⟨t, ticketed⟩ | ⟨job, holder, all⟩
    · exact Or.inl ⟨t, mem_set_of_ne at_i ticketed (Ne.symm (not_ticketed t))⟩
    · refine Or.inr ⟨job, ?_, fun k mem => all k (fewer.subset mem)⟩
      by_cases mine : ph = .holding g job ∨ ph = .closing job
      · exact Or.inr (covered filled job all mine ▸ mem_set_self at_i)
      · rw [not_or] at mine
        exact holder.imp (fun mem => mem_set_of_ne at_i mem (Ne.symm mine.1))
          fun mem => mem_set_of_ne at_i mem (Ne.symm mine.2)

theorem Guarded.step [DecidableEq κ] (inv : Guarded g jobs phases) (at_i : phases[i]? = some ph)
    (step : SlotStep g jobs ph g' jobs' ph')
    (timely : ∀ t job, ph = .cleared t → ph' = .holding t job → t = g ∧ .bumping ∉ phases) :
    Guarded g' jobs' (phases.set i ph') := by
  cases step with
  | keep fewer =>
      rw [set_same at_i]
      exact inv.keep fewer
  | take => exact inv.take at_i
  | clear => exact guarded_empty _ inv at_i fun _ has => has
  | start opened =>
      obtain ⟨rfl, calm⟩ := timely _ _ rfl rfl
      exact inv.start at_i calm opened
  | decided =>
      refine inv.leave at_i rfl (fun same => nomatch same) (List.Sublist.refl _) ?_
        (fun _ same => nomatch same)
      rintro - job - (same | same) <;> cases same
      rfl
  | drop stale =>
      refine inv.leave at_i rfl (fun same => nomatch same) (List.Sublist.refl _) ?_
        (fun _ same => nomatch same)
      rintro - job - (same | same) <;> cases same
      exact absurd rfl stale
  | finish =>
      refine inv.leave at_i rfl (fun same => nomatch same) List.filter_sublist ?_
        (fun _ same => nomatch same)
      rintro filled other all (same | same) <;> cases same
      refine absurd (List.filter_eq_nil_iff.mpr fun k mem => ?_) filled
      simp [all k mem]
  | wipe => exact guarded_empty _ inv at_i fun _ has => has
  | bump =>
      rw [inv.wiped (List.mem_of_getElem? at_i)]
      have empty := guarded_empty .outside inv at_i fun _ has => nomatch has
      exact { empty with
        issued := fun x mem t has => Nat.le_succ_of_le (empty.issued x mem t has)
        fresh := fun _ => rfl
        covered := fun filled => absurd rfl filled }

theorem Guarded.spawn (inv : Guarded g jobs phases) : Guarded g jobs (phases ++ [.outside]) := by
  have old : ∀ (j : Nat) (x : Phase κ) (t : Nat), (phases ++ [.outside])[j]? = some x →
      x.ticket = some t → phases[j]? = some x := by
    intro j x t at_j has
    rcases getElem?_snoc_cases at_j with old | rfl
    · exact old
    · cases has
  have mem_old : ∀ x ∈ phases ++ [.outside], x ≠ .outside → x ∈ phases := by
    intro x mem other
    exact (List.mem_append.mp mem).resolve_right fun new => other (List.mem_singleton.mp new)
  have kept : ∀ x ∈ phases, x ∈ phases ++ [.outside] := fun x mem => List.mem_append_left _ mem
  refine ⟨fun x mem t has => ?_, fun j k x y t at_j at_k has_x has_y => ?_, inv.single,
    fun mem => inv.fresh (mem_old _ mem (fun same => nomatch same)),
    fun mem => inv.wiped (mem_old _ mem (fun same => nomatch same)), fun filled => ?_⟩
  · refine inv.issued x (mem_old x mem ?_) t has
    rintro rfl
    cases has
  · exact inv.distinct j k x y t (old j x t at_j has_x) (old k y t at_k has_y) has_x has_y
  · rcases inv.covered filled with ⟨t, ticketed⟩ | ⟨job, holder, all⟩
    · exact Or.inl ⟨t, kept _ ticketed⟩
    · exact Or.inr ⟨job, holder.imp (kept _) (kept _), all⟩

theorem Guarded.ended (inv : Guarded g jobs phases) (all : ∀ ph ∈ phases, ph = .outside) :
    jobs = [] := by
  by_contra filled
  rcases inv.covered filled with ⟨t, ticketed⟩ | ⟨job, held | closing, -⟩
  · cases all _ ticketed
  · cases all _ held
  · cases all _ closing

end Steps

/-- In every guarded run of a machine whose steps treat the slot as above, the slot is guarded. -/
theorem guarded_of_reach [DecidableEq κ] {σ π ρ : Type} {M : Machine σ π ρ}
    {G : Config σ π → Label π ρ → Prop} {counter : σ → Nat} {jobs : σ → List κ}
    {phase : π → Phase κ} {s₀ : σ} {c : Config σ π} (reach : Reach M G ⟨s₀, []⟩ c)
    (empty : jobs s₀ = []) (entry : ∀ p, M.entry p = true → phase p = .outside)
    (steps : ∀ c i r p s q, G c (.act i r) → c.procs[i]? = some p →
      M.step i c.shared p r = some (s, q) →
      SlotStep (counter c.shared) (jobs c.shared) (phase p) (counter s) (jobs s) (phase q) ∧
        ∀ t job, phase p = .cleared t → phase q = .holding t job →
          t = counter c.shared ∧ ∀ p' ∈ c.procs, phase p' ≠ .bumping) :
    Guarded (counter c.shared) (jobs c.shared) (c.procs.map phase) := by
  refine reach.invariant
    (I := fun c => Guarded (counter c.shared) (jobs c.shared) (c.procs.map phase)) ?_ ?_
  · have nothing : ∀ ph : Phase κ, ph ∉ ([] : List (Phase κ)) := fun _ => List.not_mem_nil
    exact {
      issued := fun ph mem => absurd mem (nothing ph)
      distinct := fun i j ph ph' t at_i => by simp at at_i
      single := by rw [empty]; exact Nat.zero_le _
      fresh := fun _ => empty
      wiped := fun _ => empty
      covered := fun filled => absurd empty filled }
  · intro c d l inv guard moved
    rcases next_cases moved with ⟨p, rfl, started, rfl⟩ | ⟨i, r, p, s, q, rfl, at_i, stepped, rfl⟩
    · rw [List.map_append, List.map_singleton, entry p started]
      exact inv.spawn
    · obtain ⟨step, timely⟩ := steps c i r p s q guard at_i stepped
      rw [List.map_set]
      refine inv.step (by rw [List.getElem?_map, at_i]; rfl) step fun t job before after => ?_
      obtain ⟨last, calm⟩ := timely t job before after
      refine ⟨last, fun mem => ?_⟩
      obtain ⟨p', mem', bumping⟩ := List.mem_map.mp mem
      exact calm p' mem' bumping

end Scand.Foundation.Tickets
