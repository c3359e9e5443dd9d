/- path: Scand/Foundation/WorkQueue
   layer: library
   digest: Workers that draw tasks from a shared counter; what joining them returns, and that they
   always come to an end. -/

import Scand.Foundation.Interleaving
import Mathlib.Data.List.Forall2
import Mathlib.Data.List.Perm.Basic
import Mathlib.Data.List.Perm.Lattice
import Mathlib.Algebra.BigOperators.Group.List.Basic
import Mathlib.Algebra.Ring.Nat

set_option autoImplicit false
set_option relaxedAutoImplicit false

namespace Scand.Foundation.WorkQueue

open Scand.Foundation.Interleaving

structure Queue (β : Type) where
  next : Nat := 0
  out : List β := []

inductive Worker (ε : Type)
  | idle
  | busy (i : Nat)
  | finished
  | died (i : Nat) (e : ε)

variable {τ β ε : Type}

/-- Taking an index and delivering a result are the atomic steps. A task without an outcome never
ends, and its worker stays on it. -/
def pool (tasks : List τ) (work : τ → Option (Except ε β)) :
    Machine (Queue β) (Worker ε) Unit where
  entry _ := false
  step _ q w _ :=
    match w with
    | .idle =>
        if q.next < tasks.length then some ({ q with next := q.next + 1 }, .busy q.next)
        else some (q, .finished)
    | .busy i =>
        match (tasks[i]?).bind work with
        | some (.ok b) => some ({ q with out := q.out ++ [b] }, .idle)
        | some (.error e) => some (q, .died i e)
        | none => none
    | .finished => none
    | .died _ _ => none

def start (workers : Nat) : Config (Queue β) (Worker ε) :=
  ⟨{}, List.replicate workers .idle⟩

namespace Worker

def ended : Worker ε → Bool
  | .idle => false
  | .busy _ => false
  | .finished => true
  | .died _ _ => true

def failure : Worker ε → Option ε
  | .died _ e => some e
  | _ => none

def task : Worker ε → Option Nat
  | .busy i => some i
  | .died i _ => some i
  | _ => none

def weight : Worker ε → Nat
  | .idle => 1
  | .busy _ => 3
  | .finished => 0
  | .died _ _ => 0

end Worker

/-- Joining the workers in their order: the first exception, or everything delivered. -/
def joined (c : Config (Queue β) (Worker ε)) : Except ε (List β) :=
  match c.procs.findSome? Worker.failure with
  | some e => .error e
  | none => .ok c.shared.out

/-- Some schedule runs all workers to their end and leaves `r`. -/
def Returns (workers : Nat) (tasks : List τ) (work : τ → Option (Except ε β))
    (r : Except ε (List β)) : Prop :=
  ∃ c, Reach (pool tasks work) anyLabel (start workers) c ∧ (∀ w ∈ c.procs, w.ended = true) ∧
    r = joined c

section Lists

theorem forall₂_mem_left {R : τ → β → Prop} {ts : List τ} {bs : List β} (h : List.Forall₂ R ts bs)
    {t : τ} (mem : t ∈ ts) : ∃ b ∈ bs, R t b := by
  induction h with
  | nil => cases mem
  | cons related _ ih =>
      rcases List.mem_cons.mp mem with rfl | later
      · exact ⟨_, List.mem_cons_self, related⟩
      · obtain ⟨b, mem_b, related_b⟩ := ih later
        exact ⟨b, List.mem_cons_of_mem _ mem_b, related_b⟩

theorem forall₂_mem_right {R : τ → β → Prop} {ts : List τ} {bs : List β}
    (h : List.Forall₂ R ts bs) {b : β} (mem : b ∈ bs) : ∃ t ∈ ts, R t b :=
  forall₂_mem_left (R := flip R) h.flip mem

variable {π : Type} {ps : List π} {i : Nat} {p q : π}

theorem sum_set_add {f : π → Nat} (h : ps[i]? = some p) :
    ((ps.set i q).map f).sum + f p = (ps.map f).sum + f q := by
  induction ps generalizing i with
  | nil => simp at h
  | cons a ps ih =>
      cases i with
      | zero =>
          obtain rfl : a = p := by simpa using h
          simp only [List.set_cons_zero, List.map_cons, List.sum_cons]
          omega
      | succ i =>
          have tail := ih (i := i) (by simpa using h)
          simp only [List.set_cons_succ, List.map_cons, List.sum_cons]
          omega

end Lists

section Accounting

variable {tasks : List τ} {work : τ → Option (Except ε β)} {workers : Nat}

/-- Every index handed out is delivered, in work, or lost with its worker. -/
structure Accounted (tasks : List τ) (work : τ → Option (Except ε β))
    (c : Config (Queue β) (Worker ε)) : Prop where
  next_le : c.shared.next ≤ tasks.length
  delivered : ∃ indices : List Nat,
    List.Forall₂ (fun i b => (tasks[i]?).bind work = some (.ok b)) indices c.shared.out ∧
      (indices ++ c.procs.filterMap Worker.task).Perm (List.range c.shared.next)
  died : ∀ w ∈ c.procs, ∀ i e, w = .died i e → (tasks[i]?).bind work = some (.error e)
  finished : ∀ w ∈ c.procs, w = .finished → c.shared.next = tasks.length

theorem accounted_start : Accounted tasks work (start workers) where
  next_le := Nat.zero_le _
  delivered := ⟨[], .nil, by simp [start, List.filterMap_replicate, Worker.task]⟩
  died w mem i e same := by simp [start, List.mem_replicate, same] at mem
  finished w mem same := by simp [start, List.mem_replicate, same] at mem

theorem Accounted.next {c d : Config (Queue β) (Worker ε)} {l : Label (Worker ε) Unit}
    (acc : Accounted tasks work c) (moved : (pool tasks work).next c l = some d) :
    Accounted tasks work d := by
  rcases next_cases moved with ⟨p, rfl, entry, rfl⟩ | ⟨i, r, p, s, q, rfl, at_i, stepped, rfl⟩
  · cases entry
  obtain ⟨indices, outcomes, perm⟩ := acc.delivered
  have traded := filterMap_set_perm (q := q) (f := Worker.task) at_i
  cases p with
  | idle =>
      simp only [pool] at stepped
      split at stepped
      · -- the next index moves from the counter to this worker
        rename_i more
        cases stepped
        refine ⟨more, ⟨indices, outcomes, ?_⟩,
          forall_mem_set acc.died (by simp), ?_⟩
        · simp only [Worker.task, Option.toList_none, List.append_nil, Option.toList_some] at traded
          rw [List.range_succ]
          exact (traded.append_left indices).trans
            (by rw [← List.append_assoc]; exact perm.append_right _)
        · refine forall_mem_set (fun w mem same => ?_) (by simp)
          have all := acc.finished w mem same
          omega
      · rename_i no_more
        cases stepped
        refine ⟨acc.next_le, ⟨indices, outcomes, ?_⟩, forall_mem_set acc.died (by simp),
          forall_mem_set acc.finished fun _ => ?_⟩
        · simp only [Worker.task, Option.toList_none, List.append_nil] at traded
          exact (traded.append_left indices).trans perm
        · have := acc.next_le
          simp only at this no_more ⊢
          omega
  | busy k =>
      simp only [pool] at stepped
      split at stepped
      · -- index `k` moves from the worker to the delivered ones
        rename_i b outcome
        cases stepped
        refine ⟨acc.next_le, ⟨indices ++ [k], List.rel_append outcomes (.cons outcome .nil), ?_⟩,
          forall_mem_set acc.died (by simp), forall_mem_set acc.finished (by simp)⟩
        simp only [Worker.task, Option.toList_some, Option.toList_none, List.append_nil] at traded
        rw [List.append_assoc]
        exact ((List.perm_append_comm.trans traded).append_left indices).trans perm
      · rename_i e outcome
        cases stepped
        refine ⟨acc.next_le, ⟨indices, outcomes, ?_⟩, forall_mem_set acc.died ?_,
          forall_mem_set acc.finished (by simp)⟩
        · simp only [Worker.task, Option.toList_some] at traded
          exact (((List.perm_append_right_iff _).mp traded).append_left indices).trans perm
        · rintro i e ⟨⟩
          exact outcome
      · cases stepped
  | finished => cases stepped
  | died k e => cases stepped

private theorem accounted_reach {c : Config (Queue β) (Worker ε)}
    (reach : Reach (pool tasks work) anyLabel (start workers) c) : Accounted tasks work c :=
  reach.invariant accounted_start fun _ _ _ acc _ moved => acc.next moved

private theorem procs_length {c : Config (Queue β) (Worker ε)}
    (reach : Reach (pool tasks work) anyLabel (start workers) c) : c.procs.length = workers := by
  refine reach.invariant (I := fun c => c.procs.length = workers) (by simp [start])
    fun c d l length _ moved => ?_
  rcases next_cases moved with ⟨p, rfl, entry, rfl⟩ | ⟨i, r, p, s, q, rfl, -, -, rfl⟩
  · cases entry
  · simpa using length

/-- Without an exception the result holds the outcome of every task exactly once, in some order. -/
theorem returns_ok {out : List β} (positive : 0 < workers)
    (returned : Returns workers tasks work (.ok out)) :
    ∃ results, List.Forall₂ (fun t b => work t = some (.ok b)) tasks results ∧
      out.Perm results := by
  obtain ⟨c, reach, all_ended, same⟩ := returned
  have acc := accounted_reach reach
  unfold joined at same
  split at same
  · cases same
  rename_i no_failure
  cases same
  rw [List.findSome?_eq_none_iff] at no_failure
  have all_finished : ∀ w ∈ c.procs, w = .finished := by
    intro w mem
    have ended := all_ended w mem
    have survived := no_failure w mem
    cases w <;> simp_all [Worker.ended, Worker.failure]
  obtain ⟨w, mem⟩ := List.exists_mem_of_length_pos (procs_length reach ▸ positive)
  have all_taken := acc.finished w mem (all_finished w mem)
  obtain ⟨indices, outcomes, perm⟩ := acc.delivered
  have none_open : c.procs.filterMap Worker.task = [] := by
    rw [List.filterMap_eq_nil_iff]
    intro w mem
    rw [all_finished w mem]
    rfl
  rw [none_open, List.append_nil, all_taken] at perm
  have exchange := congrFun (congrFun (List.forall₂_comp_perm_eq_perm_comp_forall₂
    (r := fun i b => (tasks[i]?).bind work = some (.ok b))) (List.range tasks.length)) c.shared.out
  obtain ⟨results, in_order, reordered⟩ := exchange.mpr ⟨indices, perm.symm, outcomes⟩
  refine ⟨results, ?_, reordered.symm⟩
  obtain ⟨length, at_index⟩ := List.forall₂_iff_get.mp in_order
  rw [List.length_range] at length
  refine List.forall₂_iff_get.mpr ⟨length, fun i h₁ h₂ => ?_⟩
  simpa [h₁] using at_index i (by simpa using h₁) h₂

theorem returns_error {e : ε} (returned : Returns workers tasks work (.error e)) :
    ∃ t ∈ tasks, work t = some (.error e) := by
  obtain ⟨c, reach, -, same⟩ := returned
  have acc := accounted_reach reach
  unfold joined at same
  split at same
  · rename_i failed
    cases same
    obtain ⟨w, mem, failure⟩ := List.exists_of_findSome?_eq_some failed
    cases w with
    | died i e' =>
        cases failure
        obtain ⟨t, at_i, outcome⟩ := Option.bind_eq_some_iff.mp (acc.died _ mem i e rfl)
        exact ⟨t, List.mem_of_getElem? at_i, outcome⟩
    | idle => cases failure
    | busy i => cases failure
    | finished => cases failure
  · cases same

end Accounting

section Termination

variable {tasks : List τ} {work : τ → Option (Except ε β)} {workers : Nat}

def remaining (tasks : List τ) (c : Config (Queue β) (Worker ε)) : Nat :=
  3 * (tasks.length - c.shared.next) + (c.procs.map Worker.weight).sum

theorem remaining_decreases {c d : Config (Queue β) (Worker ε)} {l : Label (Worker ε) Unit}
    (moved : (pool tasks work).next c l = some d) : remaining tasks d < remaining tasks c := by
  rcases next_cases moved with ⟨p, rfl, entry, rfl⟩ | ⟨i, r, p, s, q, rfl, at_i, stepped, rfl⟩
  · cases entry
  have traded := sum_set_add (q := q) (f := Worker.weight) at_i
  unfold remaining
  cases p with
  | idle =>
      simp only [pool] at stepped
      split at stepped
      · cases stepped
        simp only [Worker.weight] at traded ⊢
        omega
      · cases stepped
        simp only [Worker.weight] at traded ⊢
        omega
  | busy k =>
      simp only [pool] at stepped
      split at stepped
      · cases stepped
        simp only [Worker.weight] at traded ⊢
        omega
      · cases stepped
        simp only [Worker.weight] at traded ⊢
        omega
      · cases stepped
  | finished => cases stepped
  | died k e => cases stepped

private theorem can_step {c : Config (Queue β) (Worker ε)} (acc : Accounted tasks work c)
    (total : ∀ t ∈ tasks, (work t).isSome) {w : Worker ε} (mem : w ∈ c.procs)
    (running : w.ended = false) : ∃ l d, (pool tasks work).next c l = some d := by
  obtain ⟨i, at_i⟩ := List.mem_iff_getElem?.mp mem
  cases w with
  | idle =>
      by_cases more : c.shared.next < tasks.length
      · exact ⟨.act i (), _, by simp only [Machine.next, at_i, pool, if_pos more]; rfl⟩
      · exact ⟨.act i (), _, by simp only [Machine.next, at_i, pool, if_neg more]; rfl⟩
  | busy k =>
      obtain ⟨indices, -, perm⟩ := acc.delivered
      have taken : k ∈ List.range c.shared.next :=
        perm.mem_iff.mp (List.mem_append_right _ (List.mem_filterMap.mpr ⟨_, mem, rfl⟩))
      have bound : k < tasks.length := Nat.lt_of_lt_of_le (List.mem_range.mp taken) acc.next_le
      obtain ⟨outcome, done⟩ := Option.isSome_iff_exists.mp (total _ (List.getElem_mem bound))
      have found : (tasks[k]?).bind work = some outcome := by
        rw [List.getElem?_eq_getElem bound]
        exact done
      cases outcome with
      | ok b => exact ⟨.act i (), _, by simp only [Machine.next, at_i, pool, found]; rfl⟩
      | error e => exact ⟨.act i (), _, by simp only [Machine.next, at_i, pool, found]; rfl⟩
  | finished => cases running
  | died k e => cases running

/-- When every task has an outcome, every schedule can be brought to its end. -/
theorem completes {c : Config (Queue β) (Worker ε)}
    (reach : Reach (pool tasks work) anyLabel (start workers) c)
    (total : ∀ t ∈ tasks, (work t).isSome) :
    ∃ d, Reach (pool tasks work) anyLabel c d ∧ ∀ w ∈ d.procs, w.ended = true := by
  induction fuel : remaining tasks c using Nat.strongRecOn generalizing c with
  | _ n ih =>
      by_cases all_ended : ∀ w ∈ c.procs, w.ended = true
      · exact ⟨c, .refl, all_ended⟩
      · push Not at all_ended
        obtain ⟨w, mem, running⟩ := all_ended
        obtain ⟨l, d, moved⟩ := can_step (accounted_reach reach) total mem (by simpa using running)
        have closer := remaining_decreases moved
        obtain ⟨e, further, ended⟩ := ih _ (fuel ▸ closer) (reach.step trivial moved) rfl
        exact ⟨e, (Reach.step .refl trivial moved).trans further, ended⟩

/-- Every schedule ends: none of them goes on forever, and where none can go on all workers have
ended. -/
structure Terminates (workers : Nat) (tasks : List τ) (work : τ → Option (Except ε β)) : Prop where
  bounded : ∀ run : Nat → Config (Queue β) (Worker ε), run 0 = start workers →
    ¬ ∀ n, ∃ l, (pool tasks work).next (run n) l = some (run (n + 1))
  complete : ∀ c, Reach (pool tasks work) anyLabel (start workers) c →
    (∀ l, (pool tasks work).next c l = none) → ∀ w ∈ c.procs, w.ended = true

theorem terminates (workers : Nat) (total : ∀ t ∈ tasks, (work t).isSome) :
    Terminates workers tasks work where
  bounded := by
    intro run _ forever
    have lower : ∀ n, remaining tasks (run n) + n ≤ remaining tasks (run 0) := by
      intro n
      induction n with
      | zero => exact Nat.le_refl _
      | succ n ih =>
          obtain ⟨l, moved⟩ := forever n
          have closer := remaining_decreases moved
          omega
    have passed := lower (remaining tasks (run 0) + 1)
    omega
  complete := by
    intro c reach stuck w mem
    by_contra running
    obtain ⟨l, d, moved⟩ := can_step (accounted_reach reach) total mem (by simpa using running)
    rw [stuck l] at moved
    cases moved

theorem exists_returns (total : ∀ t ∈ tasks, (work t).isSome) :
    ∃ r, Returns workers tasks work r := by
  obtain ⟨c, reach, ended⟩ : ∃ c, Reach (pool tasks work) anyLabel (start workers) c ∧
      ∀ w ∈ c.procs, w.ended = true := completes .refl total
  exact ⟨joined c, c, reach, ended, rfl⟩

theorem exists_returns_ok {outcome : τ → β} (all : ∀ t ∈ tasks, work t = some (.ok (outcome t))) :
    ∃ out, Returns workers tasks work (.ok out) := by
  have total : ∀ t ∈ tasks, (work t).isSome := by
    intro t mem
    rw [all t mem]
    rfl
  obtain ⟨r, returned⟩ : ∃ r, Returns workers tasks work r := exists_returns total
  cases r with
  | ok out => exact ⟨out, returned⟩
  | error e =>
      obtain ⟨t, mem, failed⟩ := returns_error returned
      rw [all t mem] at failed
      cases failed

theorem results_eq_map {outcome : τ → β} (all : ∀ t ∈ tasks, work t = some (.ok (outcome t)))
    {results : List β} (outcomes : List.Forall₂ (fun t b => work t = some (.ok b)) tasks results) :
    results = tasks.map outcome := by
  induction outcomes with
  | nil => rfl
  | cons ended _ ih =>
      rw [all _ List.mem_cons_self] at ended
      cases ended
      rw [List.map_cons, ← ih fun t mem => all t (List.mem_cons_of_mem _ mem)]

theorem returns_outcomes {outcome : τ → β} (positive : 0 < workers)
    (all : ∀ t ∈ tasks, work t = some (.ok (outcome t))) {r : Except ε (List β)}
    (returned : Returns workers tasks work r) :
    ∃ out, r = .ok out ∧ out.Perm (tasks.map outcome) := by
  cases r with
  | error e =>
      obtain ⟨t, mem, failed⟩ := returns_error returned
      rw [all t mem] at failed
      cases failed
  | ok out =>
      obtain ⟨results, outcomes, perm⟩ := returns_ok positive returned
      exact ⟨out, rfl, results_eq_map all outcomes ▸ perm⟩

end Termination

section Mapping

variable {γ : Type} {tasks : List τ} {work : τ → Option (Except ε β)} {workers : Nat}

def Queue.map (f : β → γ) (q : Queue β) : Queue γ := ⟨q.next, q.out.map f⟩

theorem next_map (f : β → γ) (c : Config (Queue β) (Worker ε)) (l : Label (Worker ε) Unit) :
    (pool tasks fun t => (work t).map (Except.map f)).next ⟨c.shared.map f, c.procs⟩ l =
      ((pool tasks work).next c l).map fun d => ⟨d.shared.map f, d.procs⟩ := by
  cases l with
  | spawn p => rfl
  | act i r =>
      simp only [Machine.next]
      cases c.procs[i]? with
      | none => rfl
      | some p =>
          cases p with
          | idle =>
              by_cases more : c.shared.next < tasks.length
              · simp only [pool, Queue.map, if_pos more, Option.map_some]
              · simp only [pool, Queue.map, if_neg more, Option.map_some]
          | busy k =>
              simp only [pool, Queue.map]
              cases tasks[k]? with
              | none => rfl
              | some t =>
                  simp only [Option.bind_some]
                  rcases work t with _ | _ | b
                  · rfl
                  · rfl
                  · simp [Except.map]
          | finished => rfl
          | died k e => rfl

theorem returns_map {f : β → γ} {r : Except ε (List γ)}
    (returned : Returns workers tasks (fun t => (work t).map (Except.map f)) r) :
    ∃ results, Returns workers tasks work results ∧ r = results.map (List.map f) := by
  obtain ⟨c, reach, ended, rfl⟩ := returned
  have lifted : ∃ d, Reach (pool tasks work) anyLabel (start workers) d ∧
      c = ⟨d.shared.map f, d.procs⟩ := Reach.lift (next_map f) reach
  obtain ⟨d, before, rfl⟩ := lifted
  refine ⟨joined d, ⟨d, before, ended, rfl⟩, ?_⟩
  simp only [joined]
  cases d.procs.findSome? Worker.failure <;> rfl

end Mapping

section InOrder

variable {tasks : List τ} {work : τ → Option (Except ε β)} {workers : Nat}

/-- The tasks one after the other, up to the first that fails. -/
def inOrder (work : τ → Option (Except ε β)) : List τ → Option (Except ε (List β))
  | [] => some (.ok [])
  | t :: ts =>
      match work t with
      | none => none
      | some (.error e) => some (.error e)
      | some (.ok b) => (inOrder work ts).map (Except.map (b :: ·))

theorem inOrder_cases (total : ∀ t ∈ tasks, (work t).isSome) :
    (∃ results, inOrder work tasks = some (.ok results) ∧
      List.Forall₂ (fun t b => work t = some (.ok b)) tasks results) ∨
    ∃ e, inOrder work tasks = some (.error e) ∧ ∃ t ∈ tasks, work t = some (.error e) := by
  induction tasks with
  | nil => exact Or.inl ⟨[], rfl, .nil⟩
  | cons t ts ih =>
      obtain ⟨outcome, ended⟩ := Option.isSome_iff_exists.mp (total t List.mem_cons_self)
      cases outcome with
      | error e => exact Or.inr ⟨e, by simp only [inOrder, ended], t, List.mem_cons_self, ended⟩
      | ok b =>
          rcases ih fun t mem => total t (List.mem_cons_of_mem _ mem) with
            ⟨results, same, outcomes⟩ | ⟨e, same, t, mem, failed⟩
          · exact Or.inl ⟨b :: results, by simp only [inOrder, ended, same]; rfl, .cons ended outcomes⟩
          · exact Or.inr ⟨e, by simp only [inOrder, ended, same]; rfl, t, List.mem_cons_of_mem _ mem,
              failed⟩

theorem inOrder_map {γ : Type} (f : β → γ) (tasks : List τ) :
    inOrder (fun t => (work t).map (Except.map f)) tasks =
      (inOrder work tasks).map (Except.map (List.map f)) := by
  induction tasks with
  | nil => rfl
  | cons t ts ih =>
      simp only [inOrder, ih]
      rcases work t with _ | _ | b
      · rfl
      · rfl
      · rcases inOrder work ts with _ | _ | results <;> rfl

private theorem outcomes_unique {first second : List β}
    (left : List.Forall₂ (fun t b => work t = some (.ok b)) tasks first)
    (right : List.Forall₂ (fun t b => work t = some (.ok b)) tasks second) : first = second := by
  induction left generalizing second with
  | nil =>
      cases right
      rfl
  | cons here _ ih =>
      cases right with
      | cons there rest =>
          rw [here] at there
          cases there
          rw [ih rest]

theorem returns_inOrder (positive : 0 < workers) (total : ∀ t ∈ tasks, (work t).isSome)
    {r : Except ε (List β)} (returned : Returns workers tasks work r) :
    match inOrder work tasks with
    | some (.ok results) => ∃ out, r = .ok out ∧ out.Perm results
    | some (.error _) => ∃ e, r = .error e ∧ ∃ t ∈ tasks, work t = some (.error e)
    | none => False := by
  rcases inOrder_cases total with ⟨results, same, outcomes⟩ | ⟨e, same, t, mem, failed⟩
  · simp only [same]
    cases r with
    | error e =>
        obtain ⟨t, mem, failed⟩ := returns_error returned
        obtain ⟨b, -, done⟩ := forall₂_mem_left outcomes mem
        rw [failed] at done
        cases done
    | ok out =>
        obtain ⟨others, again, perm⟩ := returns_ok positive returned
        exact ⟨out, rfl, outcomes_unique again outcomes ▸ perm⟩
  · simp only [same]
    cases r with
    | error e => exact ⟨e, rfl, returns_error returned⟩
    | ok out =>
        obtain ⟨results, outcomes, -⟩ := returns_ok positive returned
        obtain ⟨b, -, done⟩ := forall₂_mem_left outcomes mem
        rw [failed] at done
        cases done

end InOrder

end Scand.Foundation.WorkQueue
