/- path: Scand/Store/PoolWakeups
   layer: code model and results
   digest: acquire and release of ConnectionPool with their condition variable: no notification is lost, and
   every acquire returns as long as leases end. -/

import Scand.Foundation.Waiting
import Scand.Foundation.WorkQueue

set_option autoImplicit false
set_option relaxedAutoImplicit false

namespace Scand.Store.PoolWakeups

open Scand.Foundation.Interleaving
open Scand.Foundation.Waiting
open Scand.Foundation.WorkQueue (sum_set_add)

/-- The members behind `m_` with the threads that wait on `cv_`. A connection goes by its place in the
constructor. -/
structure Waits where
  pool : List Nat
  asleep : Finset Nat := ∅

structure Reply where
  woken : Nat := 0
  spurious : Bool := false

/-- Where a thread stands that takes a lease for the length of a scope, as the repositories do. -/
inductive Place
  -- acquire: the test of the wait under the lock, and the wait itself
  | acquire | asleep
  -- the scope, up to the lock of the release in the destructor of the lease
  | leased (conn : Nat)
  -- notify_one behind that lock
  | notifyOne
  | done
  deriving DecidableEq

section Code

def step (i : Nat) (s : Waits) (p : Place) (r : Reply) : Option (Waits × Place) :=
  match p with
  | .acquire =>
      match s.pool with
      | c :: rest => some ({ s with pool := rest }, .leased c)
      | [] => some ({ s with asleep := insert i s.asleep }, .asleep)
  | .asleep =>
      if i ∈ s.asleep then
        if r.spurious then some ({ s with asleep := s.asleep.erase i }, .acquire) else none
      else some (s, .acquire)
  | .leased c => some ({ s with pool := s.pool ++ [c] }, .notifyOne)
  | .notifyOne =>
      if s.asleep = ∅ then some (s, .done)
      else if r.woken ∈ s.asleep then some ({ s with asleep := s.asleep.erase r.woken }, .done)
      else none
  | .done => none

def isCall : Place → Bool
  | .acquire => true
  | _ => false

def pool : Machine Waits Place Reply where
  entry := isCall
  step := step

def constructed (size : Nat) : Config Waits Place := ⟨{ pool := List.range size }, []⟩

end Code

inductive Moves (i : Nat) (s : Waits) (r : Reply) : Place → Waits → Place → Prop
  | took (c : Nat) (rest : List Nat) : s.pool = c :: rest →
      Moves i s r .acquire { s with pool := rest } (.leased c)
  | slept : s.pool = [] → Moves i s r .acquire { s with asleep := insert i s.asleep } .asleep
  | woke : i ∉ s.asleep → Moves i s r .asleep s .acquire
  | stirred : i ∈ s.asleep → r.spurious = true →
      Moves i s r .asleep { s with asleep := s.asleep.erase i } .acquire
  | released (c : Nat) : Moves i s r (.leased c) { s with pool := s.pool ++ [c] } .notifyOne
  | unheard : s.asleep = ∅ → Moves i s r .notifyOne s .done
  | heard (k : Nat) : k ∈ s.asleep → Moves i s r .notifyOne { s with asleep := s.asleep.erase k } .done

theorem moves_of_step {i : Nat} {s s' : Waits} {p p' : Place} {r : Reply}
    (stepped : pool.step i s p r = some (s', p')) : Moves i s r p s' p' := by
  have moved : step i s p r = some (s', p') := stepped
  cases p with
  | acquire =>
      rw [step] at moved
      split at moved
      · rename_i c rest free
        cases moved
        exact .took c rest free
      · rename_i none_free
        cases moved
        exact .slept none_free
  | asleep =>
      rw [step] at moved
      split at moved
      · rename_i waits
        split at moved
        · rename_i spurious
          cases moved
          exact .stirred waits spurious
        · cases moved
      · rename_i awake
        cases moved
        exact .woke awake
  | leased c =>
      cases moved
      exact .released c
  | notifyOne =>
      rw [step] at moved
      split at moved
      · rename_i nobody
        cases moved
        exact .unheard nobody
      · split at moved
        · rename_i waits
          cases moved
          exact .heard r.woken waits
        · cases moved
  | done => cases moved

def held : Place → Option Nat
  | .leased c => some c
  | _ => none

/-- The threads on their way to a connection, asleep or not, and those that are about to wake one. -/
def ready : Place → Bool
  | .acquire | .asleep | .notifyOne => true
  | _ => false

def isAsleep : Place → Bool
  | .asleep => true
  | _ => false

/-- What holds of the pool and of the threads that wait for it. -/
structure Kept (size : Nat) (c : Config Waits Place) : Prop where
  owned : (c.shared.pool ++ c.procs.filterMap held).Perm (List.range size)
  sleepers : Located c.shared.asleep c.procs .asleep
  served : Served c.shared.pool.length c.shared.asleep.card (c.procs.countP ready)

section Preserved

variable {size i : Nat} {c d : Config Waits Place} {p q : Place} {s : Waits} {r : Reply}

theorem kept_constructed : Kept size (constructed size) where
  owned := by
    rw [constructed, List.filterMap_nil, List.append_nil]
  sleepers := located_empty _ _
  served := served_awake _ _

theorem Kept.owned_step (kept : Kept size c) (at_i : c.procs[i]? = some p)
    (moves : Moves i c.shared r p s q) :
    (s.pool ++ (c.procs.set i q).filterMap held).Perm (List.range size) := by
  refine List.Perm.trans ?_ kept.owned
  have traded := filterMap_set_perm (f := held) (q := q) at_i
  have same : held p = none → held q = none →
      ((c.procs.set i q).filterMap held).Perm (c.procs.filterMap held) := by
    intro before after
    simpa [before, after] using traded
  cases moves with
  | took k rest free =>
      have taken : ((c.procs.set i (.leased k)).filterMap held).Perm
          (c.procs.filterMap held ++ [k]) := by
        simpa [held] using traded
      rw [free, List.cons_append]
      refine (taken.append_left rest).trans ?_
      rw [← List.append_assoc]
      exact List.perm_append_comm
  | released k =>
      have given : ((c.procs.set i .notifyOne).filterMap held ++ [k]).Perm
          (c.procs.filterMap held) := by
        simpa [held] using traded
      show (c.shared.pool ++ [k] ++ (c.procs.set i .notifyOne).filterMap held).Perm _
      rw [List.append_assoc]
      exact (List.perm_append_comm.trans given).append_left _
  | _ => exact (same rfl rfl).append_left _

theorem Kept.sleepers_step (kept : Kept size c) (at_i : c.procs[i]? = some p)
    (moves : Moves i c.shared r p s q) : Located s.asleep (c.procs.set i q) .asleep := by
  have sleepers := kept.sleepers
  have away : p ≠ .asleep → i ∉ c.shared.asleep := sleepers.notMem at_i
  cases moves with
  | slept _ => exact sleepers.enter at_i
  | woke gone => exact sleepers.set (Finset.Subset.refl _) gone _
  | stirred _ _ => exact sleepers.set (Finset.erase_subset _ _) (Finset.notMem_erase i _) _
  | heard k _ =>
      have gone : i ∉ c.shared.asleep.erase k := fun mem =>
        away Place.noConfusion (Finset.mem_of_mem_erase mem)
      exact sleepers.set (Finset.erase_subset _ _) gone _
  | _ => exact sleepers.set (Finset.Subset.refl _) (away Place.noConfusion) _

theorem Kept.served_step (kept : Kept size c) (at_i : c.procs[i]? = some p)
    (moves : Moves i c.shared r p s q) :
    Served s.pool.length s.asleep.card ((c.procs.set i q).countP ready) := by
  have served := kept.served
  have sleeping : c.shared.asleep.card ≤ c.procs.countP ready := kept.sleepers.card_le rfl
  have traded := countP_set_add (f := ready) (q := q) at_i
  cases moves with
  | took k rest free =>
      have counted : (c.procs.set i (.leased k)).countP ready + 1 = c.procs.countP ready := traded
      rw [free, ← counted] at served
      exact served.take
  | slept none_free =>
      rw [none_free]
      exact served_zero _ _
  | woke _ => exact served.weaken (Nat.le_refl _) (Nat.le_of_eq (Nat.succ_inj.mp traded).symm)
  | stirred _ _ =>
      exact served.weaken Finset.card_erase_le (Nat.le_of_eq (Nat.succ_inj.mp traded).symm)
  | released k =>
      have counted : (c.procs.set i .notifyOne).countP ready = c.procs.countP ready + 1 := traded
      rw [List.length_append, counted]
      exact served.put sleeping
  | unheard nobody =>
      rw [nobody]
      exact served_awake _ _
  | heard k mem =>
      have counted : (c.procs.set i .done).countP ready + 1 = c.procs.countP ready := traded
      rw [← counted, ← Finset.card_erase_add_one mem] at served
      exact served.notify

theorem Kept.next {l : Label Place Reply} (kept : Kept size c) (next : pool.next c l = some d) :
    Kept size d := by
  rcases next_cases next with ⟨p, -, entry, rfl⟩ | ⟨i, r, p, s, q, -, at_i, stepped, rfl⟩
  · have call : isCall p = true := entry
    have none_held : held p = none := by
      cases p <;> first | rfl | cases call
    exact {
      owned := by
        rw [List.filterMap_append, List.filterMap_cons, none_held, List.filterMap_nil,
          List.append_nil]
        exact kept.owned
      sleepers := kept.sleepers.snoc p
      served := by
        refine kept.served.weaken (Nat.le_refl _) ?_
        rw [countP_snoc]
        exact Nat.le_add_right _ _ }
  · have moves := moves_of_step stepped
    exact ⟨kept.owned_step at_i moves, kept.sleepers_step at_i moves, kept.served_step at_i moves⟩

theorem kept_of_reach (reach : Reach pool anyLabel (constructed size) c) : Kept size c :=
  reach.invariant kept_constructed fun _ _ _ kept _ next => kept.next next

end Preserved

def weigh : Place → Nat
  | .acquire => 6
  | .asleep => 5
  | .leased _ => 4
  | .notifyOne => 3
  | .done => 0

/-- The steps that the threads have left, with those that have been woken and are still where they
waited. -/
def remaining (c : Config Waits Place) : Nat :=
  (c.procs.map weigh).sum + 2 * (c.procs.countP isAsleep - c.shared.asleep.card)

def calm (_ : Config Waits Place) : Label Place Reply → Bool
  | .spawn _ => false
  | .act _ r => !r.spurious

/-- No thread can go on, unless a wait ends by itself. -/
def Stuck (c : Config Waits Place) : Prop :=
  ∀ i r, r.spurious = false → pool.next c (.act i r) = none

section Rest

variable {size i : Nat} {c d : Config Waits Place} {p q : Place} {s : Waits} {r : Reply}

theorem Kept.remaining_lt (kept : Kept size c) (quiet : r.spurious = false)
    (at_i : c.procs[i]? = some p) (moves : Moves i c.shared r p s q) :
    remaining ⟨s, c.procs.set i q⟩ < remaining c := by
  have sleepers := kept.sleepers
  have asleep : c.shared.asleep.card ≤ c.procs.countP isAsleep := sleepers.card_le rfl
  have weights := sum_set_add (f := weigh) (q := q) at_i
  have sleeping := countP_set_add (f := isAsleep) (q := q) at_i
  unfold remaining
  cases moves with
  | slept _ =>
      have fresh : i ∉ c.shared.asleep := sleepers.notMem at_i Place.noConfusion
      rw [Finset.card_insert_of_notMem fresh]
      simp only [weigh, isAsleep, Bool.toNat_true, Bool.toNat_false] at weights sleeping ⊢
      omega
  | woke away =>
      have woken : c.shared.asleep.card < c.procs.countP isAsleep :=
        sleepers.card_lt rfl at_i away
      simp only [weigh, isAsleep, Bool.toNat_true, Bool.toNat_false] at weights sleeping ⊢
      omega
  | stirred _ spurious => cases quiet.symm.trans spurious
  | heard k mem =>
      have fewer := Finset.card_erase_add_one mem
      simp only [weigh, isAsleep, Bool.toNat_false] at weights sleeping ⊢
      omega
  | _ =>
      simp only [weigh, isAsleep, Bool.toNat_false] at weights sleeping ⊢
      omega

theorem Kept.calm_next {l : Label Place Reply} (kept : Kept size c) (allowed : calm c l = true)
    (next : pool.next c l = some d) : remaining d < remaining c := by
  rcases next_cases next with ⟨p, rfl, -, rfl⟩ | ⟨i, r, p, s, q, rfl, at_i, stepped, rfl⟩
  · cases allowed
  · have quiet : r.spurious = false := Bool.not_eq_true' _ |>.mp allowed
    exact kept.remaining_lt quiet at_i (moves_of_step stepped)

theorem step_none (stuck : Stuck c) (at_i : c.procs[i]? = some p) (quiet : r.spurious = false) :
    step i c.shared p r = none := by
  have blocked := stuck i r quiet
  simp only [Machine.next, at_i] at blocked
  cases moved : step i c.shared p r with
  | none => rfl
  | some out =>
      have stepped : pool.step i c.shared p r = some (out.1, out.2) := moved
      rw [stepped] at blocked
      cases blocked

theorem halted_of_stuck (stuck : Stuck c) (at_i : c.procs[i]? = some p) :
    p = .done ∨ p = .asleep ∧ i ∈ c.shared.asleep := by
  have blocked := step_none stuck at_i (r := {}) rfl
  cases p with
  | acquire =>
      rw [step] at blocked
      split at blocked <;> cases blocked
  | asleep =>
      rw [step] at blocked
      split at blocked
      · rename_i waits
        exact Or.inr ⟨rfl, waits⟩
      · cases blocked
  | leased k => cases blocked
  | notifyOne =>
      by_cases nobody : c.shared.asleep = ∅
      · rw [step, if_pos nobody] at blocked
        cases blocked
      · obtain ⟨k, mem⟩ := Finset.nonempty_iff_ne_empty.mpr nobody
        have woken := step_none stuck at_i (r := { woken := k }) rfl
        rw [step, if_neg nobody, if_pos mem] at woken
        cases woken
  | done => exact Or.inl rfl

theorem Kept.free_of_stuck (kept : Kept size c) (stuck : Stuck c) :
    c.shared.pool.Perm (List.range size) := by
  have none_held : c.procs.filterMap held = [] := by
    rw [List.filterMap_eq_nil_iff]
    intro p mem
    obtain ⟨i, at_i⟩ := List.mem_iff_getElem?.mp mem
    rcases halted_of_stuck stuck at_i with rfl | ⟨rfl, -⟩ <;> rfl
  have owned := kept.owned
  rwa [none_held, List.append_nil] at owned

theorem Kept.done_of_stuck (kept : Kept size c) (stuck : Stuck c) (some_conn : 1 ≤ size) :
    ∀ p ∈ c.procs, p = .done := by
  intro p mem
  obtain ⟨i, at_i⟩ := List.mem_iff_getElem?.mp mem
  rcases halted_of_stuck stuck at_i with done | ⟨rfl, waits⟩
  · exact done
  · have some_sleeper : 0 < c.shared.asleep.card := Finset.card_pos.mpr ⟨i, waits⟩
    have all_sleep : c.procs.countP ready ≤ c.shared.asleep.card := by
      refine countP_le_card fun j q at_j on_way => ?_
      rcases halted_of_stuck stuck at_j with rfl | ⟨-, asleep⟩
      · cases on_way
      · exact asleep
    have none_left := kept.served.none_left some_sleeper all_sleep
    have all_free := (kept.free_of_stuck stuck).length_eq
    rw [none_left, List.length_range] at all_free
    omega

end Rest

/-- From every state that the pool reaches, a run in which no new thread comes and no wait ends by itself
ends after a bounded number of steps, with every connection free or leased once all along. Where it cannot
go on, every thread has had its connection and given it back, and all of them are free. -/
theorem acquires_return (size : Nat) (some_conn : 1 ≤ size) (c : Config Waits Place)
    (reach : Reach pool anyLabel (constructed size) c) (ls : List (Label Place Reply))
    (d : Config Waits Place) (run : pool.run calm c ls = some d) :
    ls.length + remaining d ≤ remaining c ∧
      (d.shared.pool ++ d.procs.filterMap held).Perm (List.range size) ∧
      (Stuck d → (∀ p ∈ d.procs, p = .done) ∧ d.shared.pool.Perm (List.range size)) := by
  have further : Reach pool anyLabel (constructed size) d :=
    reach.trans (reach_of_run (fun _ _ _ => trivial) run)
  have kept := kept_of_reach further
  refine ⟨?_, kept.owned, fun stuck => ⟨kept.done_of_stuck stuck some_conn, kept.free_of_stuck stuck⟩⟩
  refine length_le_of_run (fun e e' l before allowed next => ?_) reach run
  exact ⟨before.step trivial next, (kept_of_reach before).calm_next allowed next⟩

section Sample

def contended : Config Waits Place where
  shared := { pool := [], asleep := {1} }
  procs := [.leased 0, .asleep]

def served : Config Waits Place where
  shared := { pool := [0] }
  procs := [.done, .done]

theorem acquires_return_two : (∀ p ∈ served.procs, p = .done) ∧ served.shared.pool.Perm [0] := by
  have reach : Reach pool anyLabel (constructed 1) contended := by
    have run : pool.run (fun _ _ => true) (constructed 1)
        [.spawn .acquire, .spawn .acquire, .act 0 {}, .act 1 {}] = some contended := rfl
    exact reach_of_run (fun _ _ _ => trivial) run
  have run : pool.run calm contended
      [.act 0 {}, .act 0 { woken := 1 }, .act 1 {}, .act 1 {}, .act 1 {}, .act 1 {}] = some served :=
    rfl
  obtain ⟨-, -, rests⟩ := acquires_return 1 (Nat.le_refl 1) contended reach _ served run
  refine rests fun i r _ => ?_
  match i with
  | 0 => rfl
  | 1 => rfl
  | i + 2 => rfl

end Sample

end Scand.Store.PoolWakeups
