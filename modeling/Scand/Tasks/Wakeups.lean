/- path: Scand/Tasks/Wakeups
   layer: code model and results
   digest: WorkerPool with its two condition variables: it refines the pool that waits for its conditions
   itself, loses no wakeup, and comes to rest with every accepted task executed. -/

import Scand.Foundation.Waiting
import Scand.Foundation.WorkQueue
import Scand.Tasks.WorkerPool

set_option autoImplicit false
set_option relaxedAutoImplicit false

namespace Scand.Tasks.Wakeups

open Scand.Foundation.Interleaving
open Scand.Foundation.Waiting
open Scand.Foundation.WorkQueue (sum_set_add)
open Scand.Tasks.WorkerPool (Pool Pc Log tryPush tryPush_cases logged sound_of_reach executing busy
  isWorker)

/-- The members behind `mutex_` with the threads that wait on `cv_` and the calls that wait on
`cv_idle_`. -/
structure Waits where
  pool : Pool := {}
  asleep : Finset Nat := ∅
  idle : Finset Nat := ∅

structure Reply where
  threw : Bool := false
  woken : Nat := 0
  spurious : Bool := false
  timedOut : Bool := false

inductive Place
  -- worker_loop: the test of the wait under the lock, the wait itself, the task, and the lock behind it
  | check | asleep | running (task : Nat) | ran (task : Nat) (threw : Bool) | ended
  -- try_submit: its lock, notify_one, and its result
  | trySubmit | notifyOne | submitted (ok : Bool)
  -- stop_accepting
  | stopAccepting | stopped
  -- wait_idle: the test under the lock, the wait, and its result
  | waitIdle | idleAsleep | waited (ok : Bool)
  -- the destructor: its lock, notify_all, and the threads that it joins in their order
  | destroy | notifyAll | joining (next : Nat) | destroyed
  deriving DecidableEq

section Code

variable (threads maxQueue : Nat)

def step (i : Nat) (s : Waits) (p : Place) (r : Reply) : Option (Waits × Place) :=
  match p with
  | .check =>
      match s.pool.tasks with
      | task :: rest =>
          some ({ s with pool := { s.pool with tasks := rest, active := s.pool.active + 1 } },
            .running task)
      | [] =>
          if s.pool.stopping then
            some ({ s with pool := { s.pool with ended := s.pool.ended ++ [i] } }, .ended)
          else some ({ s with asleep := insert i s.asleep }, .asleep)
  | .asleep =>
      if i ∈ s.asleep then
        if r.spurious then some ({ s with asleep := s.asleep.erase i }, .check) else none
      else some (s, .check)
  | .running task => some (s, .ran task r.threw)
  | .ran _ _ =>
      -- notify_all of cv_idle_ is under the lock
      some ({ s with
        pool := { s.pool with active := s.pool.active - 1 }
        idle := if s.pool.active = 1 ∧ s.pool.tasks = [] then ∅ else s.idle }, .check)
  | .trySubmit =>
      match tryPush maxQueue s.pool i with
      | some pool => some ({ s with pool := pool }, .notifyOne)
      | none => some (s, .submitted false)
  | .notifyOne =>
      if s.asleep = ∅ then some (s, .submitted true)
      else if r.woken ∈ s.asleep then
        some ({ s with asleep := s.asleep.erase r.woken }, .submitted true)
      else none
  | .stopAccepting => some ({ s with pool := { s.pool with accepting := false } }, .stopped)
  | .waitIdle =>
      if s.pool.tasks = [] ∧ s.pool.active = 0 then some (s, .waited true)
      else some ({ s with idle := insert i s.idle }, .idleAsleep)
  | .idleAsleep =>
      if r.timedOut then
        some ({ s with idle := s.idle.erase i },
          .waited (decide (s.pool.tasks = [] ∧ s.pool.active = 0)))
      else if i ∈ s.idle then
        if r.spurious then some ({ s with idle := s.idle.erase i }, .waitIdle) else none
      else some (s, .waitIdle)
  | .destroy =>
      some ({ s with pool := { s.pool with stopping := true, accepting := false } }, .notifyAll)
  | .notifyAll => some ({ s with asleep := ∅ }, .joining 0)
  | .joining k =>
      if k < threads then if k ∈ s.pool.ended then some (s, .joining (k + 1)) else none
      else some (s, .destroyed)
  | .ended | .submitted _ | .stopped | .waited _ | .destroyed => none

def isCall : Place → Bool
  | .trySubmit | .stopAccepting | .waitIdle | .destroy => true
  | _ => false

def wakeups : Machine Waits Place Reply where
  entry := isCall
  step := step threads maxQueue

/-- The place as the pool without condition variables has it. -/
def Place.pc : Place → Pc
  | .check | .asleep => .waiting
  | .running task => .running task
  | .ran task threw => .ran task threw
  | .ended => .ended
  | .trySubmit => .trySubmit
  | .notifyOne => .submitted true
  | .submitted ok => .submitted ok
  | .stopAccepting => .stopAccepting
  | .stopped => .stopped
  | .waitIdle | .idleAsleep => .waitIdle
  | .waited ok => .waited ok
  | .destroy => .destroy
  | .notifyAll => .joining 0
  | .joining k => .joining k
  | .destroyed => .destroyed

/-- The tasks that were accepted, taken and finished, logged where the pool logs them. -/
def noted (i : Nat) (s : Waits) (n : Log) : Place → Log
  | .check => logged maxQueue i s.pool n .waiting
  | .running task => logged maxQueue i s.pool n (.running task)
  | .trySubmit => logged maxQueue i s.pool n .trySubmit
  | _ => n

abbrev logging : Machine (Waits × Log) Place Reply :=
  (wakeups threads maxQueue).logging (noted maxQueue)

def constructed : Config (Waits × Log) Place := ⟨({}, {}), List.replicate threads .check⟩

end Code

inductive Moves (threads maxQueue i : Nat) (s : Waits) (n : Log) (r : Reply) :
    Place → Waits → Log → Place → Prop
  | took (task : Nat) (rest : List Nat) : s.pool.tasks = task :: rest →
      Moves threads maxQueue i s n r .check
        { s with pool := { s.pool with tasks := rest, active := s.pool.active + 1 } }
        { n with started := n.started ++ [task] } (.running task)
  | ended : s.pool.tasks = [] → s.pool.stopping = true →
      Moves threads maxQueue i s n r .check
        { s with pool := { s.pool with ended := s.pool.ended ++ [i] } } n .ended
  | slept : s.pool.tasks = [] → s.pool.stopping = false →
      Moves threads maxQueue i s n r .check { s with asleep := insert i s.asleep } n .asleep
  | woke : i ∉ s.asleep → Moves threads maxQueue i s n r .asleep s n .check
  | stirred : i ∈ s.asleep → r.spurious = true →
      Moves threads maxQueue i s n r .asleep { s with asleep := s.asleep.erase i } n .check
  | ran (task : Nat) (threw : Bool) : Moves threads maxQueue i s n r (.running task) s
      { n with finished := n.finished ++ [task] } (.ran task threw)
  | rested (task : Nat) (threw : Bool) : Moves threads maxQueue i s n r (.ran task threw)
      { s with
        pool := { s.pool with active := s.pool.active - 1 }
        idle := if s.pool.active = 1 ∧ s.pool.tasks = [] then ∅ else s.idle } n .check
  | accepted : s.pool.stopping = false → s.pool.accepting = true → s.pool.tasks.length < maxQueue →
      tryPush maxQueue s.pool i = some { s.pool with tasks := s.pool.tasks ++ [i] } →
      Moves threads maxQueue i s n r .trySubmit
        { s with pool := { s.pool with tasks := s.pool.tasks ++ [i] } }
        { n with accepted := n.accepted ++ [i] } .notifyOne
  | refused : tryPush maxQueue s.pool i = none →
      Moves threads maxQueue i s n r .trySubmit s n (.submitted false)
  | unheard : s.asleep = ∅ → Moves threads maxQueue i s n r .notifyOne s n (.submitted true)
  | heard (k : Nat) : k ∈ s.asleep → Moves threads maxQueue i s n r .notifyOne
      { s with asleep := s.asleep.erase k } n (.submitted true)
  | stopped : Moves threads maxQueue i s n r .stopAccepting
      { s with pool := { s.pool with accepting := false } } n .stopped
  | idle : s.pool.tasks = [] ∧ s.pool.active = 0 →
      Moves threads maxQueue i s n r .waitIdle s n (.waited true)
  | idled : ¬ (s.pool.tasks = [] ∧ s.pool.active = 0) →
      Moves threads maxQueue i s n r .waitIdle { s with idle := insert i s.idle } n .idleAsleep
  | timedOut : r.timedOut = true → Moves threads maxQueue i s n r .idleAsleep
      { s with idle := s.idle.erase i } n
      (.waited (decide (s.pool.tasks = [] ∧ s.pool.active = 0)))
  | recheck : i ∉ s.idle → Moves threads maxQueue i s n r .idleAsleep s n .waitIdle
  | restless : i ∈ s.idle → r.spurious = true →
      Moves threads maxQueue i s n r .idleAsleep { s with idle := s.idle.erase i } n .waitIdle
  | destroys : Moves threads maxQueue i s n r .destroy
      { s with pool := { s.pool with stopping := true, accepting := false } } n .notifyAll
  | notified : Moves threads maxQueue i s n r .notifyAll { s with asleep := ∅ } n (.joining 0)
  | joined (k : Nat) : k < threads → k ∈ s.pool.ended →
      Moves threads maxQueue i s n r (.joining k) s n (.joining (k + 1))
  | destroyed (k : Nat) : ¬ k < threads → Moves threads maxQueue i s n r (.joining k) s n .destroyed

section Steps

variable {threads maxQueue i : Nat} {s s' : Waits} {n n' : Log} {p p' : Place} {r : Reply}

theorem moves_of_step
    (stepped : (logging threads maxQueue).step i (s, n) p r = some ((s', n'), p')) :
    Moves threads maxQueue i s n r p s' n' p' := by
  obtain ⟨inner, log⟩ := logging_step stepped
  have moved : step threads maxQueue i s p r = some (s', p') := inner
  have kept : n' = noted maxQueue i s n p := log
  subst kept
  cases p with
  | check =>
      rw [step] at moved
      split at moved
      · rename_i task rest queue
        cases moved
        rw [noted, logged, queue]
        exact .took task rest queue
      · rename_i queue
        rw [noted, logged, queue]
        split at moved
        · rename_i stopping
          cases moved
          exact .ended queue stopping
        · rename_i going
          cases moved
          exact .slept queue (Bool.not_eq_true _ ▸ going)
  | asleep =>
      rw [step] at moved
      split at moved
      · rename_i waits
        split at moved
        · rename_i spurious
          cases moved
          exact .stirred waits spurious
        · cases moved
      · rename_i awake
        cases moved
        exact .woke awake
  | running task =>
      cases moved
      exact .ran task r.threw
  | ran task threw =>
      cases moved
      exact .rested task threw
  | trySubmit =>
      rcases tryPush_cases maxQueue s.pool i with refused | ⟨going, accepting, room, pushed⟩
      · rw [step, refused] at moved
        cases moved
        rw [noted, logged, refused]
        exact .refused refused
      · rw [step, pushed] at moved
        cases moved
        rw [noted, logged, pushed]
        exact .accepted going accepting room pushed
  | notifyOne =>
      rw [step] at moved
      split at moved
      · rename_i nobody
        cases moved
        exact .unheard nobody
      · split at moved
        · rename_i waits
          cases moved
          exact .heard r.woken waits
        · cases moved
  | stopAccepting =>
      cases moved
      exact .stopped
  | waitIdle =>
      rw [step] at moved
      split at moved
      · rename_i idle
        cases moved
        exact .idle idle
      · rename_i at_work
        cases moved
        exact .idled at_work
  | idleAsleep =>
      rw [step] at moved
      split at moved
      · rename_i late
        cases moved
        exact .timedOut late
      · split at moved
        · rename_i waits
          split at moved
          · rename_i spurious
            cases moved
            exact .restless waits spurious
          · cases moved
        · rename_i awake
          cases moved
          exact .recheck awake
  | destroy =>
      cases moved
      exact .destroys
  | notifyAll =>
      cases moved
      exact .notified
  | joining k =>
      rw [step] at moved
      split at moved
      · rename_i more
        split at moved
        · rename_i ended
          cases moved
          exact .joined k more ended
        · cases moved
      · rename_i all_joined
        cases moved
        exact .destroyed k all_joined
  | ended => cases moved
  | submitted ok => cases moved
  | stopped => cases moved
  | waited ok => cases moved
  | destroyed => cases moved

end Steps

def plain (c : Config (Waits × Log) Place) : Config (Pool × Log) Pc :=
  ⟨(c.shared.1.pool, c.shared.2), c.procs.map Place.pc⟩

section Image

variable {threads maxQueue i : Nat} {c d : Config (Waits × Log) Place} {s : Waits} {n : Log}
  {p q : Place}

theorem plain_constructed : plain (constructed threads) = WorkerPool.constructed threads := by
  rw [plain, constructed, List.map_replicate]
  rfl

theorem plain_same (at_i : c.procs[i]? = some p) (pool : s.pool = c.shared.1.pool)
    (same : q.pc = p.pc) : plain ⟨(s, c.shared.2), c.procs.set i q⟩ = plain c := by
  obtain ⟨bound, rfl⟩ := List.getElem?_eq_some_iff.mp at_i
  have kept : (c.procs.set i c.procs[i]).map Place.pc = c.procs.map Place.pc := by
    rw [List.set_getElem_self]
  rw [List.map_set] at kept
  unfold plain
  rw [pool, List.map_set, same, kept]

theorem plain_act {r : WorkerPool.Reply} (at_i : c.procs[i]? = some p)
    (stepped : WorkerPool.step threads maxQueue i c.shared.1.pool p.pc r = some (s.pool, q.pc))
    (log : n = logged maxQueue i c.shared.1.pool c.shared.2 p.pc) :
    (WorkerPool.logging threads maxQueue).next (plain c) (.act i r) =
      some (plain ⟨(s, n), c.procs.set i q⟩) := by
  have here : (plain c).procs[i]? = some p.pc := by
    show (c.procs.map Place.pc)[i]? = some p.pc
    rw [List.getElem?_map, at_i]
    rfl
  have moved : (WorkerPool.logging threads maxQueue).step i (plain c).shared p.pc r =
      some ((s.pool, n), q.pc) := by
    show (WorkerPool.step threads maxQueue i c.shared.1.pool p.pc r).map _ = _
    rw [stepped, log]
    rfl
  simp only [Machine.next, here, moved]
  unfold plain
  rw [List.map_set]

/-- The steps around the condition variables are no steps of the image, all others are. -/
theorem plain_next {l : Label Place Reply} (next : (logging threads maxQueue).next c l = some d) :
    plain d = plain c ∨
      ∃ l', (WorkerPool.logging threads maxQueue).next (plain c) l' = some (plain d) := by
  rcases next_cases next with ⟨p, -, entry, rfl⟩ | ⟨i, r, p, ⟨s, n⟩, q, -, at_i, stepped, rfl⟩
  · have call : isCall p = true := entry
    have call' : WorkerPool.isCall p.pc = true := by
      cases p <;> first | rfl | cases call
    refine Or.inr ⟨.spawn p.pc, ?_⟩
    show (if WorkerPool.isCall p.pc then _ else none) = _
    rw [if_pos call']
    simp [plain]
  · cases moves_of_step stepped with
    | took task rest queue =>
        refine Or.inr ⟨.act i {}, plain_act at_i ?_ ?_⟩
        · simp only [Place.pc, WorkerPool.step, queue]
        · rw [Place.pc, logged, queue]
    | ended queue stopping =>
        refine Or.inr ⟨.act i {}, plain_act at_i ?_ ?_⟩
        · simp only [Place.pc, WorkerPool.step, queue, stopping, if_true]
        · rw [Place.pc, logged, queue]
    | slept _ _ => exact Or.inl (plain_same at_i rfl rfl)
    | woke _ => exact Or.inl (plain_same at_i rfl rfl)
    | stirred _ _ => exact Or.inl (plain_same at_i rfl rfl)
    | ran task threw => exact Or.inr ⟨.act i { threw := threw }, plain_act at_i rfl rfl⟩
    | rested task threw => exact Or.inr ⟨.act i {}, plain_act at_i rfl rfl⟩
    | accepted _ _ _ pushed =>
        refine Or.inr ⟨.act i {}, plain_act at_i ?_ ?_⟩
        · simp only [Place.pc, WorkerPool.step, pushed]
        · rw [Place.pc, logged, pushed]
          rfl
    | refused refused =>
        refine Or.inr ⟨.act i {}, plain_act at_i ?_ ?_⟩
        · simp only [Place.pc, WorkerPool.step, refused]
        · rw [Place.pc, logged, refused]
          rfl
    | unheard _ => exact Or.inl (plain_same at_i rfl rfl)
    | heard _ _ => exact Or.inl (plain_same at_i rfl rfl)
    | stopped => exact Or.inr ⟨.act i {}, plain_act at_i rfl rfl⟩
    | idle idle =>
        refine Or.inr ⟨.act i {}, plain_act at_i ?_ rfl⟩
        simp only [Place.pc, WorkerPool.step, if_pos idle]
    | idled _ => exact Or.inl (plain_same at_i rfl rfl)
    | timedOut _ =>
        refine Or.inr ⟨.act i { timedOut := true }, plain_act at_i ?_ rfl⟩
        by_cases idle : c.shared.1.pool.tasks = [] ∧ c.shared.1.pool.active = 0
        · simp only [Place.pc, WorkerPool.step, if_pos idle, decide_eq_true idle]
        · simp only [Place.pc, WorkerPool.step, if_neg idle, decide_eq_false idle, if_true]
    | recheck _ => exact Or.inl (plain_same at_i rfl rfl)
    | restless _ _ => exact Or.inl (plain_same at_i rfl rfl)
    | destroys => exact Or.inr ⟨.act i {}, plain_act at_i rfl rfl⟩
    | notified => exact Or.inl (plain_same at_i rfl rfl)
    | joined k more ended =>
        refine Or.inr ⟨.act i {}, plain_act at_i ?_ rfl⟩
        simp only [Place.pc, WorkerPool.step, if_pos more, if_pos ended]
    | destroyed k done =>
        refine Or.inr ⟨.act i {}, plain_act at_i ?_ rfl⟩
        simp only [Place.pc, WorkerPool.step, if_neg done]

/-- Every run of the pool with its condition variables is, without them, a run of the pool. -/
theorem reach_plain (reach : Reach (logging threads maxQueue) anyLabel (constructed threads) c) :
    Reach (WorkerPool.logging threads maxQueue) anyLabel (WorkerPool.constructed threads)
      (plain c) := by
  rw [← plain_constructed]
  exact reach_image (fun _ _ _ next => plain_next next) reach

end Image

/-- The threads that test the queue before they wait again, asleep or not, and the calls that are about to
wake one. -/
def ready : Place → Bool
  | .check | .asleep | .notifyOne => true
  | _ => false

def isClosing : Place → Bool
  | .notifyAll | .joining _ | .destroyed => true
  | _ => false

def isAccepted : Place → Bool
  | .notifyOne | .submitted true => true
  | _ => false

/-- What the condition variables add to what holds of the pool. -/
structure Awake (threads : Nat) (c : Config (Waits × Log) Place) : Prop where
  sleepers : Located c.shared.1.asleep c.procs .asleep
  idlers : Located c.shared.1.idle c.procs .idleAsleep
  served : Served c.shared.1.pool.tasks.length c.shared.1.asleep.card (c.procs.countP ready)
  idling : c.shared.1.idle.Nonempty →
    ¬ (c.shared.1.pool.tasks = [] ∧ c.shared.1.pool.active = 0)
  called : c.shared.1.pool.stopping = true → c.shared.1.asleep = ∅ ∨ .notifyAll ∈ c.procs
  closing : ∀ p ∈ c.procs, isClosing p = true → c.shared.1.pool.stopping = true
  ended : ∀ k, c.procs[k]? = some .ended → k ∈ c.shared.1.pool.ended
  workers : ∀ k < threads, ∃ p, c.procs[k]? = some p ∧ isWorker p.pc = true
  accepted : ∀ k p, c.procs[k]? = some p → isAccepted p = true → k ∈ c.shared.2.accepted

section Preserved

variable {threads maxQueue i : Nat} {c d : Config (Waits × Log) Place} {p q : Place} {s : Waits}
  {n : Log} {r : Reply}

theorem awake_constructed : Awake threads (constructed threads) where
  sleepers := located_empty _ _
  idlers := located_empty _ _
  served := served_zero _ _
  idling := fun some_call => absurd some_call Finset.not_nonempty_empty
  called := fun _ => Or.inl rfl
  closing := by
    intro p mem closing
    rw [List.eq_of_mem_replicate mem] at closing
    cases closing
  ended := fun _ at_k => by cases List.eq_of_mem_replicate (List.mem_of_getElem? at_k)
  workers := by
    intro k before
    refine ⟨.check, ?_, rfl⟩
    rw [constructed, List.getElem?_replicate, if_pos before]
  accepted := by
    intro k p at_k accepted
    rw [List.eq_of_mem_replicate (List.mem_of_getElem? at_k)] at accepted
    cases accepted

theorem Awake.sleepers_step (awake : Awake threads c) (at_i : c.procs[i]? = some p)
    (moves : Moves threads maxQueue i c.shared.1 c.shared.2 r p s n q) :
    Located s.asleep (c.procs.set i q) .asleep := by
  have sleepers := awake.sleepers
  have away : p ≠ .asleep → i ∉ c.shared.1.asleep := sleepers.notMem at_i
  cases moves with
  | slept _ _ => exact sleepers.enter at_i
  | woke gone => exact sleepers.set (Finset.Subset.refl _) gone _
  | stirred _ _ => exact sleepers.set (Finset.erase_subset _ _) (Finset.notMem_erase i _) _
  | heard k _ =>
      have gone : i ∉ c.shared.1.asleep.erase k := fun mem =>
        away Place.noConfusion (Finset.mem_of_mem_erase mem)
      exact sleepers.set (Finset.erase_subset _ _) gone _
  | notified => exact located_empty _ _
  | _ => exact sleepers.set (Finset.Subset.refl _) (away Place.noConfusion) _

theorem Awake.idlers_step (awake : Awake threads c) (at_i : c.procs[i]? = some p)
    (moves : Moves threads maxQueue i c.shared.1 c.shared.2 r p s n q) :
    Located s.idle (c.procs.set i q) .idleAsleep := by
  have idlers := awake.idlers
  have away : p ≠ .idleAsleep → i ∉ c.shared.1.idle := idlers.notMem at_i
  cases moves with
  | rested task threw =>
      dsimp only
      split
      · exact located_empty _ _
      · exact idlers.set (Finset.Subset.refl _) (away Place.noConfusion) _
  | idled _ => exact idlers.enter at_i
  | timedOut _ => exact idlers.set (Finset.erase_subset _ _) (Finset.notMem_erase i _) _
  | recheck gone => exact idlers.set (Finset.Subset.refl _) gone _
  | restless _ _ => exact idlers.set (Finset.erase_subset _ _) (Finset.notMem_erase i _) _
  | _ => exact idlers.set (Finset.Subset.refl _) (away Place.noConfusion) _

/-- A thread falls asleep only where the queue is empty, and every task brings its notification. -/
theorem Awake.served_step (awake : Awake threads c) (at_i : c.procs[i]? = some p)
    (moves : Moves threads maxQueue i c.shared.1 c.shared.2 r p s n q) :
    Served s.pool.tasks.length s.asleep.card ((c.procs.set i q).countP ready) := by
  have served := awake.served
  have sleeping : c.shared.1.asleep.card ≤ c.procs.countP ready := awake.sleepers.card_le rfl
  have traded := countP_set_add (f := ready) (q := q) at_i
  cases moves with
  | took task rest queue =>
      have counted : (c.procs.set i (.running task)).countP ready + 1 = c.procs.countP ready := traded
      rw [queue, ← counted] at served
      exact served.take
  | ended queue _ =>
      rw [queue]
      exact served_zero _ _
  | slept queue _ =>
      rw [queue]
      exact served_zero _ _
  | woke _ => exact served.weaken (Nat.le_refl _) (Nat.le_of_eq (Nat.succ_inj.mp traded).symm)
  | stirred mem _ =>
      exact served.weaken Finset.card_erase_le (Nat.le_of_eq (Nat.succ_inj.mp traded).symm)
  | rested task threw =>
      have counted : (c.procs.set i .check).countP ready = c.procs.countP ready + 1 := traded
      exact served.weaken (Nat.le_refl _) (by omega)
  | accepted _ _ _ _ =>
      have counted : (c.procs.set i .notifyOne).countP ready = c.procs.countP ready + 1 := traded
      rw [List.length_append, counted]
      exact served.put sleeping
  | unheard nobody =>
      rw [nobody]
      exact served_awake _ _
  | heard k mem =>
      have counted : (c.procs.set i (.submitted true)).countP ready + 1 = c.procs.countP ready := traded
      rw [← counted, ← Finset.card_erase_add_one mem] at served
      exact served.notify
  | notified => exact served_awake _ _
  | _ => exact served.weaken (Nat.le_refl _) (Nat.le_of_eq traded.symm)

theorem Awake.idling_step (awake : Awake threads c) (at_work : busy p.pc = true → 1 ≤ c.shared.1.pool.active)
    (moves : Moves threads maxQueue i c.shared.1 c.shared.2 r p s n q) :
    s.idle.Nonempty → ¬ (s.pool.tasks = [] ∧ s.pool.active = 0) := by
  have idling := awake.idling
  cases moves with
  | took task rest _ =>
      rintro _ ⟨-, none_active⟩
      exact absurd none_active (Nat.succ_ne_zero _)
  | rested task threw =>
      dsimp only
      have active := at_work rfl
      split
      · exact fun some_call => absurd some_call Finset.not_nonempty_empty
      · rename_i more
        rintro - ⟨empty, none_active⟩
        exact more ⟨by omega, empty⟩
  | accepted _ _ _ _ =>
      rintro _ ⟨empty, -⟩
      exact absurd empty (List.append_ne_nil_of_right_ne_nil _ (List.cons_ne_nil i []))
  | idled unfinished => exact fun _ => unfinished
  | timedOut _ => exact fun some_call => idling (some_call.mono (Finset.erase_subset i _))
  | restless _ _ => exact fun some_call => idling (some_call.mono (Finset.erase_subset i _))
  | _ => exact idling

theorem Awake.called_step (awake : Awake threads c) (at_i : c.procs[i]? = some p)
    (moves : Moves threads maxQueue i c.shared.1 c.shared.2 r p s n q) :
    s.pool.stopping = true → s.asleep = ∅ ∨ .notifyAll ∈ c.procs.set i q := by
  have called := awake.called
  have kept : p ≠ .notifyAll → .notifyAll ∈ c.procs → .notifyAll ∈ c.procs.set i q := by
    intro other mem
    obtain ⟨j, at_j⟩ := List.mem_iff_getElem?.mp mem
    exact List.mem_of_getElem? (getElem?_set_kept at_i at_j other.symm)
  cases moves with
  | slept _ going =>
      intro stopping
      cases going.symm.trans stopping
  | stirred _ _ =>
      intro stopping
      apply (called stopping).imp _ (kept Place.noConfusion)
      intro nobody
      show c.shared.1.asleep.erase i = ∅
      rw [nobody, Finset.erase_empty]
  | heard k mem =>
      intro stopping
      rcases called stopping with nobody | notifies
      · rw [nobody] at mem
        exact absurd mem (Finset.notMem_empty k)
      · exact Or.inr (kept Place.noConfusion notifies)
  | destroys =>
      intro _
      exact Or.inr (List.mem_of_getElem? (getElem?_set_here at_i))
  | notified => exact fun _ => Or.inl rfl
  | _ => exact fun stopping => (called stopping).imp id (kept Place.noConfusion)

theorem Awake.closing_step (awake : Awake threads c) (at_i : c.procs[i]? = some p)
    (moves : Moves threads maxQueue i c.shared.1 c.shared.2 r p s n q) :
    ∀ p' ∈ c.procs.set i q, isClosing p' = true → s.pool.stopping = true := by
  intro p' mem closing
  have before : ∀ p' ∈ c.procs, isClosing p' = true → c.shared.1.pool.stopping = true :=
    awake.closing
  have here := before p (List.mem_of_getElem? at_i)
  rcases mem_set_cases mem with rfl | ⟨j, -, at_j⟩
  · cases moves with
    | destroys => rfl
    | notified => exact here rfl
    | joined _ _ _ => exact here rfl
    | destroyed _ _ => exact here rfl
    | _ => cases closing
  · have stopping := before p' (List.mem_of_getElem? at_j) closing
    cases moves with
    | destroys => rfl
    | _ => exact stopping

theorem Awake.ended_step (awake : Awake threads c)
    (moves : Moves threads maxQueue i c.shared.1 c.shared.2 r p s n q) (k : Nat)
    (at_k : (c.procs.set i q)[k]? = some .ended) : k ∈ s.pool.ended := by
  rcases getElem?_set_cases at_k with ⟨rfl, same⟩ | ⟨-, at_k⟩
  · cases moves with
    | ended _ _ => exact List.mem_append_right _ (List.mem_singleton_self i)
    | _ => cases same
  · have before := awake.ended k at_k
    cases moves with
    | ended _ _ => exact List.mem_append_left _ before
    | _ => exact before

theorem Awake.workers_step (awake : Awake threads c) (at_i : c.procs[i]? = some p)
    (moves : Moves threads maxQueue i c.shared.1 c.shared.2 r p s n q) (k : Nat) (before : k < threads) :
    ∃ p', (c.procs.set i q)[k]? = some p' ∧ isWorker p'.pc = true := by
  obtain ⟨p', at_k, worker⟩ := awake.workers k before
  by_cases here : i = k
  · subst here
    obtain rfl : p = p' := Option.some.inj (at_i.symm.trans at_k)
    refine ⟨q, getElem?_set_here at_i, ?_⟩
    cases moves with
    | took _ _ _ => rfl
    | ended _ _ => rfl
    | slept _ _ => rfl
    | woke _ => rfl
    | stirred _ _ => rfl
    | ran _ _ => rfl
    | rested _ _ => rfl
    | _ => cases worker
  · rw [List.getElem?_set_ne here]
    exact ⟨p', at_k, worker⟩

theorem Awake.accepted_step (awake : Awake threads c) (at_i : c.procs[i]? = some p)
    (moves : Moves threads maxQueue i c.shared.1 c.shared.2 r p s n q) (k : Nat) (p' : Place)
    (at_k : (c.procs.set i q)[k]? = some p') (accepted : isAccepted p' = true) : k ∈ n.accepted := by
  have here := awake.accepted i p at_i
  rcases getElem?_set_cases at_k with ⟨rfl, rfl⟩ | ⟨-, at_k⟩
  · cases moves with
    | accepted _ _ _ _ => exact List.mem_append_right _ (List.mem_singleton_self i)
    | unheard _ => exact here rfl
    | heard _ _ => exact here rfl
    | _ => cases accepted
  · have before := awake.accepted k p' at_k accepted
    cases moves with
    | accepted _ _ _ _ => exact List.mem_append_left _ before
    | _ => exact before

theorem Awake.spawn (awake : Awake threads c) (entry : isCall p = true) :
    Awake threads ⟨c.shared, c.procs ++ [p]⟩ := by
  have passive : isClosing p = false ∧ p ≠ .ended ∧ isAccepted p = false := by
    cases p <;> first | cases entry; done | exact ⟨rfl, Place.noConfusion, rfl⟩
  obtain ⟨not_closing, not_ended, not_accepted⟩ := passive
  exact {
    sleepers := awake.sleepers.snoc p
    idlers := awake.idlers.snoc p
    served := by
      refine awake.served.weaken (Nat.le_refl _) ?_
      show c.procs.countP ready ≤ (c.procs ++ [p]).countP ready
      rw [countP_snoc]
      exact Nat.le_add_right _ _
    idling := awake.idling
    called := fun stopping => (awake.called stopping).imp id (List.mem_append_left _)
    closing := by
      intro p' mem closing
      rcases List.mem_append.mp mem with old | new
      · exact awake.closing p' old closing
      · rw [List.mem_singleton.mp new, not_closing] at closing
        cases closing
    ended := by
      intro k at_k
      rcases getElem?_snoc_cases at_k with old | same
      · exact awake.ended k old
      · exact absurd same.symm not_ended
    workers := by
      intro k before
      obtain ⟨p', at_k, worker⟩ := awake.workers k before
      exact ⟨p', getElem?_snoc_kept at_k, worker⟩
    accepted := by
      intro k p' at_k accepted
      rcases getElem?_snoc_cases at_k with old | rfl
      · exact awake.accepted k p' old accepted
      · rw [not_accepted] at accepted
        cases accepted }

theorem Awake.next {l : Label Place Reply} (awake : Awake threads c)
    (sound : WorkerPool.Sound threads maxQueue (plain c))
    (next : (logging threads maxQueue).next c l = some d) : Awake threads d := by
  rcases next_cases next with ⟨p, -, entry, rfl⟩ | ⟨i, r, p, ⟨s, n⟩, q, -, at_i, stepped, rfl⟩
  · exact awake.spawn entry
  · have moves := moves_of_step stepped
    have at_work : busy p.pc = true → 1 ≤ c.shared.1.pool.active := by
      intro here
      have active : c.shared.1.pool.active = (c.procs.map Place.pc).countP busy := sound.active
      have mem := List.mem_map_of_mem (f := Place.pc) (List.mem_of_getElem? at_i)
      have some_busy := List.countP_pos_iff.mpr ⟨p.pc, mem, here⟩
      omega
    exact {
      sleepers := awake.sleepers_step at_i moves
      idlers := awake.idlers_step at_i moves
      served := awake.served_step at_i moves
      idling := awake.idling_step at_work moves
      called := awake.called_step at_i moves
      closing := awake.closing_step at_i moves
      ended := awake.ended_step moves
      workers := awake.workers_step at_i moves
      accepted := awake.accepted_step at_i moves }

theorem awake_of_reach (reach : Reach (logging threads maxQueue) anyLabel (constructed threads) c) :
    Awake threads c := by
  induction reach with
  | refl => exact awake_constructed
  | step before _ next ih => exact ih.next (sound_of_reach (reach_plain before)) next

end Preserved

def isAsleep : Place → Bool
  | .asleep => true
  | _ => false

def isIdle : Place → Bool
  | .idleAsleep => true
  | _ => false

def weigh (threads n : Nat) : Place → Nat
  | .check => 1
  | .running _ => 2 * n + 3
  | .ran _ _ => 2 * n + 2
  | .trySubmit => 2 * n + 7
  | .notifyOne => 3
  | .stopAccepting => 1
  | .waitIdle => 2
  | .idleAsleep => 1
  | .destroy => 2 * n + threads + 4
  | .notifyAll => 2 * n + threads + 3
  | .joining k => threads - k + 1
  | .asleep | .ended | .submitted _ | .stopped | .waited _ | .destroyed => 0

/-- The steps that the pool has left: those of the places, of the tasks in the queue, and of the threads
and calls that have been woken and are still where they waited. -/
def remaining (threads : Nat) (c : Config (Waits × Log) Place) : Nat :=
  (c.procs.map (weigh threads c.procs.length)).sum +
    (2 * c.procs.length + 3) * c.shared.1.pool.tasks.length +
    2 * (c.procs.countP isAsleep - c.shared.1.asleep.card) +
    2 * (c.procs.countP isIdle - c.shared.1.idle.card)

def calm (_ : Config (Waits × Log) Place) : Label Place Reply → Bool
  | .spawn _ => false
  | .act _ r => !r.spurious

section Rest

variable {threads maxQueue i : Nat} {c d : Config (Waits × Log) Place} {p q : Place} {s : Waits}
  {n : Log} {r : Reply}

theorem Awake.remaining_lt (awake : Awake threads c) (quiet : r.spurious = false)
    (at_i : c.procs[i]? = some p)
    (moves : Moves threads maxQueue i c.shared.1 c.shared.2 r p s n q) :
    remaining threads ⟨(s, n), c.procs.set i q⟩ < remaining threads c := by
  have sleepers := awake.sleepers
  have idlers := awake.idlers
  have asleep : c.shared.1.asleep.card ≤ c.procs.countP isAsleep := sleepers.card_le rfl
  have idle : c.shared.1.idle.card ≤ c.procs.countP isIdle := idlers.card_le rfl
  have all_asleep : c.procs.countP isAsleep ≤ c.procs.length := List.countP_le_length
  have all_idle : c.procs.countP isIdle ≤ c.procs.length := List.countP_le_length
  have weights := sum_set_add (f := weigh threads c.procs.length) (q := q) at_i
  have sleeping := countP_set_add (f := isAsleep) (q := q) at_i
  have waiting := countP_set_add (f := isIdle) (q := q) at_i
  unfold remaining
  rw [List.length_set]
  cases moves with
  | took task rest queue =>
      rw [queue, List.length_cons, Nat.mul_succ]
      simp only [weigh, isAsleep, isIdle, Bool.toNat_false] at weights sleeping waiting ⊢
      omega
  | slept _ _ =>
      have fresh : i ∉ c.shared.1.asleep := sleepers.notMem at_i Place.noConfusion
      rw [Finset.card_insert_of_notMem fresh]
      simp only [weigh, isAsleep, isIdle, Bool.toNat_true, Bool.toNat_false] at weights sleeping waiting ⊢
      omega
  | woke away =>
      have woken : c.shared.1.asleep.card < c.procs.countP isAsleep :=
        sleepers.card_lt rfl at_i away
      simp only [weigh, isAsleep, isIdle, Bool.toNat_true, Bool.toNat_false] at weights sleeping waiting ⊢
      omega
  | stirred _ spurious => cases quiet.symm.trans spurious
  | rested task threw =>
      dsimp only
      split
      · rw [Finset.card_empty]
        simp only [weigh, isAsleep, isIdle, Bool.toNat_false] at weights sleeping waiting ⊢
        omega
      · simp only [weigh, isAsleep, isIdle, Bool.toNat_false] at weights sleeping waiting ⊢
        omega
  | accepted _ _ _ _ =>
      rw [List.length_append, List.length_singleton, Nat.mul_succ]
      simp only [weigh, isAsleep, isIdle, Bool.toNat_false] at weights sleeping waiting ⊢
      omega
  | heard k mem =>
      have fewer := Finset.card_erase_add_one mem
      simp only [weigh, isAsleep, isIdle, Bool.toNat_false] at weights sleeping waiting ⊢
      omega
  | idled _ =>
      have fresh : i ∉ c.shared.1.idle := idlers.notMem at_i Place.noConfusion
      rw [Finset.card_insert_of_notMem fresh]
      simp only [weigh, isAsleep, isIdle, Bool.toNat_true, Bool.toNat_false] at weights sleeping waiting ⊢
      omega
  | timedOut _ =>
      by_cases mem : i ∈ c.shared.1.idle
      · have fewer := Finset.card_erase_add_one mem
        simp only [weigh, isAsleep, isIdle, Bool.toNat_true, Bool.toNat_false] at weights sleeping waiting ⊢
        omega
      · rw [Finset.erase_eq_of_notMem mem]
        simp only [weigh, isAsleep, isIdle, Bool.toNat_true, Bool.toNat_false] at weights sleeping waiting ⊢
        omega
  | recheck away =>
      have woken : c.shared.1.idle.card < c.procs.countP isIdle := idlers.card_lt rfl at_i away
      simp only [weigh, isAsleep, isIdle, Bool.toNat_true, Bool.toNat_false] at weights sleeping waiting ⊢
      omega
  | restless _ spurious => cases quiet.symm.trans spurious
  | notified =>
      rw [Finset.card_empty]
      simp only [weigh, isAsleep, isIdle, Bool.toNat_false] at weights sleeping waiting ⊢
      omega
  | _ =>
      simp only [weigh, isAsleep, isIdle, Bool.toNat_false] at weights sleeping waiting ⊢
      omega

theorem Awake.calm_next {l : Label Place Reply} (awake : Awake threads c) (allowed : calm c l = true)
    (next : (logging threads maxQueue).next c l = some d) :
    remaining threads d < remaining threads c := by
  rcases next_cases next with ⟨p, rfl, -, rfl⟩ | ⟨i, r, p, ⟨s, n⟩, q, rfl, at_i, stepped, rfl⟩
  · cases allowed
  · have quiet : r.spurious = false := Bool.not_eq_true' _ |>.mp allowed
    exact awake.remaining_lt quiet at_i (moves_of_step stepped)

end Rest

/-- No thread and no call can go on, unless a wait ends by itself or by its time. -/
def Stuck (threads maxQueue : Nat) (c : Config (Waits × Log) Place) : Prop :=
  ∀ i r, r.spurious = false → r.timedOut = false →
    (logging threads maxQueue).next c (.act i r) = none

def hasResult : Place → Bool
  | .submitted _ | .stopped | .waited _ | .destroyed => true
  | _ => false

inductive Halted (threads i : Nat) (s : Waits) : Place → Prop
  | asleep : i ∈ s.asleep → Halted threads i s .asleep
  | ended : Halted threads i s .ended
  | result (p : Place) : hasResult p = true → Halted threads i s p
  | idleAsleep : i ∈ s.idle → Halted threads i s .idleAsleep
  | joining (k : Nat) : k < threads → k ∉ s.pool.ended → Halted threads i s (.joining k)

/-- The pool at rest: every task that a call was promised to be executed has been, each once, every call
has its result, and the threads sleep, or have ended where the destructor was called. -/
structure Drained (threads : Nat) (c : Config (Waits × Log) Place) : Prop where
  promised : ∀ k, c.procs[k]? = some (.submitted true) → k ∈ c.shared.2.finished
  once : c.shared.2.finished.Perm c.shared.2.accepted
  distinct : c.shared.2.accepted.Nodup
  returned : ∀ p ∈ c.procs, isWorker p.pc = false → hasResult p = true
  threads : ∀ k < threads,
    c.procs[k]? = some (if c.shared.1.pool.stopping = true then .ended else .asleep)

section Stuck

variable {threads maxQueue i : Nat} {c : Config (Waits × Log) Place} {p : Place}

theorem step_none (stuck : Stuck threads maxQueue c) (at_i : c.procs[i]? = some p) {r : Reply}
    (spurious : r.spurious = false) (timely : r.timedOut = false) :
    step threads maxQueue i c.shared.1 p r = none := by
  have blocked := stuck i r spurious timely
  simp only [Machine.next, at_i] at blocked
  cases moved : step threads maxQueue i c.shared.1 p r with
  | none => rfl
  | some out =>
      have stepped : (logging threads maxQueue).step i c.shared p r =
          some ((out.1, noted maxQueue i c.shared.1 c.shared.2 p), out.2) := by
        show (step threads maxQueue i c.shared.1 p r).map _ = _
        rw [moved]
        rfl
      rw [stepped] at blocked
      cases blocked

theorem halted_of_stuck (stuck : Stuck threads maxQueue c) (at_i : c.procs[i]? = some p) :
    Halted threads i c.shared.1 p := by
  have blocked : ∀ r : Reply, r.spurious = false → r.timedOut = false →
      step threads maxQueue i c.shared.1 p r = none := fun r => step_none stuck at_i
  have plain_reply := blocked {} rfl rfl
  cases p with
  | check =>
      rw [step] at plain_reply
      split at plain_reply
      · cases plain_reply
      · split at plain_reply <;> cases plain_reply
  | asleep =>
      rw [step] at plain_reply
      split at plain_reply
      · rename_i waits
        exact .asleep waits
      · cases plain_reply
  | trySubmit =>
      rw [step] at plain_reply
      split at plain_reply <;> cases plain_reply
  | notifyOne =>
      by_cases nobody : c.shared.1.asleep = ∅
      · rw [step, if_pos nobody] at plain_reply
        cases plain_reply
      · obtain ⟨k, mem⟩ := Finset.nonempty_iff_ne_empty.mpr nobody
        have woken := blocked { woken := k } rfl rfl
        rw [step, if_neg nobody, if_pos mem] at woken
        cases woken
  | waitIdle =>
      rw [step] at plain_reply
      split at plain_reply <;> cases plain_reply
  | idleAsleep =>
      rw [step, if_neg Bool.false_ne_true] at plain_reply
      split at plain_reply
      · rename_i waits
        exact .idleAsleep waits
      · cases plain_reply
  | joining k =>
      rw [step] at plain_reply
      split at plain_reply
      · rename_i more
        split at plain_reply
        · cases plain_reply
        · rename_i unended
          exact .joining k more unended
      · cases plain_reply
  | ended => exact .ended
  | submitted ok => exact .result _ rfl
  | stopped => exact .result _ rfl
  | waited ok => exact .result _ rfl
  | destroyed => exact .result _ rfl
  | running task => cases plain_reply
  | ran task threw => cases plain_reply
  | stopAccepting => cases plain_reply
  | destroy => cases plain_reply
  | notifyAll => cases plain_reply

theorem Awake.thread_of_stuck (awake : Awake threads c) (stuck : Stuck threads maxQueue c) {k : Nat}
    (before : k < threads) :
    c.procs[k]? = some .asleep ∧ k ∈ c.shared.1.asleep ∨
      c.procs[k]? = some .ended ∧ k ∈ c.shared.1.pool.ended := by
  obtain ⟨p, at_k, worker⟩ := awake.workers k before
  cases halted_of_stuck stuck at_k with
  | asleep waits => exact Or.inl ⟨at_k, waits⟩
  | ended => exact Or.inr ⟨at_k, awake.ended k at_k⟩
  | result p result => cases p <;> first | cases worker; done | cases result
  | idleAsleep _ => cases worker
  | joining _ _ _ => cases worker

/-- No task is left: a sleeping thread would have been woken for it. -/
theorem Awake.empty_of_stuck (awake : Awake threads c)
    (sound : WorkerPool.Sound threads maxQueue (plain c)) (some_thread : 1 ≤ threads)
    (stuck : Stuck threads maxQueue c) : c.shared.1.pool.tasks = [] := by
  by_contra some_task
  by_cases nobody : c.shared.1.asleep = ∅
  · rcases awake.thread_of_stuck stuck some_thread with ⟨-, waits⟩ | ⟨-, ended⟩
    · rw [nobody] at waits
      exact absurd waits (Finset.notMem_empty 0)
    · obtain ⟨-, -, empty⟩ := sound.ended 0 ended
      exact some_task empty
  · have some_sleeper : 0 < c.shared.1.asleep.card :=
      Finset.card_pos.mpr (Finset.nonempty_iff_ne_empty.mpr nobody)
    have all_sleep : c.procs.countP ready ≤ c.shared.1.asleep.card := by
      refine countP_le_card fun i p at_i on_way => ?_
      cases halted_of_stuck stuck at_i with
      | asleep waits => exact waits
      | result p result => cases p <;> first | cases on_way; done | cases result
      | ended => cases on_way
      | idleAsleep _ => cases on_way
      | joining _ _ _ => cases on_way
    exact some_task (List.length_eq_zero_iff.mp (awake.served.none_left some_sleeper all_sleep))

theorem none_busy_of_stuck (stuck : Stuck threads maxQueue c) :
    ∀ p ∈ c.procs.map Place.pc, busy p = false ∧ executing p = none := by
  intro p' mem
  obtain ⟨p, listed, rfl⟩ := List.mem_map.mp mem
  obtain ⟨i, at_i⟩ := List.mem_iff_getElem?.mp listed
  cases halted_of_stuck stuck at_i with
  | result p result => cases p <;> first | exact ⟨rfl, rfl⟩ | cases result
  | asleep _ => exact ⟨rfl, rfl⟩
  | ended => exact ⟨rfl, rfl⟩
  | idleAsleep _ => exact ⟨rfl, rfl⟩
  | joining _ _ _ => exact ⟨rfl, rfl⟩

theorem Awake.idle_of_stuck (awake : Awake threads c)
    (sound : WorkerPool.Sound threads maxQueue (plain c)) (some_thread : 1 ≤ threads)
    (stuck : Stuck threads maxQueue c) : c.shared.1.idle = ∅ := by
  by_contra some_call
  have none_active : c.shared.1.pool.active = 0 := by
    have active : c.shared.1.pool.active = (c.procs.map Place.pc).countP busy := sound.active
    rw [active, List.countP_eq_zero]
    intro p mem here
    cases here.symm.trans (none_busy_of_stuck stuck p mem).1
  exact awake.idling (Finset.nonempty_iff_ne_empty.mpr some_call)
    ⟨awake.empty_of_stuck sound some_thread stuck, none_active⟩

theorem Awake.none_asleep (awake : Awake threads c) (stuck : Stuck threads maxQueue c)
    (stopping : c.shared.1.pool.stopping = true) : c.shared.1.asleep = ∅ := by
  rcases awake.called stopping with nobody | notifies
  · exact nobody
  · obtain ⟨i, at_i⟩ := List.mem_iff_getElem?.mp notifies
    cases halted_of_stuck stuck at_i with
    | result _ result => cases result

theorem Awake.drained (awake : Awake threads c)
    (sound : WorkerPool.Sound threads maxQueue (plain c)) (some_thread : 1 ≤ threads)
    (stuck : Stuck threads maxQueue c) : Drained threads c := by
  have once : c.shared.2.finished.Perm c.shared.2.accepted := by
    have none_executed : (c.procs.map Place.pc).filterMap executing = [] :=
      List.filterMap_eq_nil_iff.mpr fun p mem => (none_busy_of_stuck stuck p mem).2
    have accounted : c.shared.2.started.Perm
        ((c.procs.map Place.pc).filterMap executing ++ c.shared.2.finished) := sound.accounted
    have order : c.shared.2.accepted = c.shared.2.started ++ c.shared.1.pool.tasks := sound.order
    rw [none_executed, List.nil_append] at accounted
    rw [order, awake.empty_of_stuck sound some_thread stuck, List.append_nil]
    exact accounted.symm
  refine ⟨?_, once, sound.once, ?_, ?_⟩
  · intro k at_k
    exact once.mem_iff.mpr (awake.accepted k _ at_k rfl)
  · intro p mem not_worker
    obtain ⟨i, at_i⟩ := List.mem_iff_getElem?.mp mem
    cases halted_of_stuck stuck at_i with
    | asleep _ => cases not_worker
    | ended => cases not_worker
    | result p result => exact result
    | idleAsleep waits =>
        rw [awake.idle_of_stuck sound some_thread stuck] at waits
        exact absurd waits (Finset.notMem_empty i)
    | joining k more unended =>
        have nobody := awake.none_asleep stuck (awake.closing _ mem rfl)
        rcases awake.thread_of_stuck stuck more with ⟨-, waits⟩ | ⟨-, ended⟩
        · rw [nobody] at waits
          exact absurd waits (Finset.notMem_empty k)
        · exact absurd ended unended
  · intro k before
    rcases awake.thread_of_stuck stuck before with ⟨at_k, waits⟩ | ⟨at_k, ended⟩
    · have going : ¬ c.shared.1.pool.stopping = true := by
        intro stopping
        rw [awake.none_asleep stuck stopping] at waits
        exact absurd waits (Finset.notMem_empty k)
      rw [if_neg going]
      exact at_k
    · obtain ⟨-, stopping, -⟩ := sound.ended k ended
      have stopped : c.shared.1.pool.stopping = true := stopping
      rw [if_pos stopped]
      exact at_k

end Stuck

/-- From every state that the pool reaches, a run in which no new call comes and no wait ends by itself
ends after a bounded number of steps. Where it cannot go on, every task whose submission returned true has
been executed, every call has returned, and the threads sleep, or have ended where the destructor was
called. -/
theorem pool_drains (threads maxQueue : Nat) (some_thread : 1 ≤ threads)
    (c : Config (Waits × Log) Place)
    (reach : Reach (logging threads maxQueue) anyLabel (constructed threads) c)
    (ls : List (Label Place Reply)) (d : Config (Waits × Log) Place)
    (run : (logging threads maxQueue).run calm c ls = some d) :
    ls.length + remaining threads d ≤ remaining threads c ∧
      (Stuck threads maxQueue d → Drained threads d) := by
  constructor
  · refine length_le_of_run (fun e e' l before allowed next => ?_) reach run
    have awake : Awake threads e := awake_of_reach before
    exact ⟨before.step trivial next, awake.calm_next allowed next⟩
  · intro stuck
    have further : Reach (logging threads maxQueue) anyLabel (constructed threads) d :=
      reach.trans (reach_of_run (fun _ _ _ => trivial) run)
    exact (awake_of_reach further).drained (sound_of_reach (reach_plain further)) some_thread stuck

section Sample

def submitting : Config (Waits × Log) Place where
  shared := ({ pool := { tasks := [1] }, asleep := {0} }, { accepted := [1] })
  procs := [.asleep, .notifyOne]

def executed : Config (Waits × Log) Place where
  shared := ({ pool := {}, asleep := {0} }, { accepted := [1], started := [1], finished := [1] })
  procs := [.asleep, .submitted true]

theorem reach_submitting : Reach (logging 1 4) anyLabel (constructed 1) submitting := by
  have slept : (logging 1 4).run (fun _ _ => true) (constructed 1)
      [.act 0 {}, .spawn .trySubmit, .act 1 {}] = some submitting := rfl
  exact reach_of_run (fun _ _ _ => trivial) slept

theorem stuck_executed : Stuck 1 4 executed := by
  intro i r spurious _
  match i with
  | 0 =>
      cases next : (logging 1 4).next executed (.act 0 r) with
      | none => rfl
      | some d =>
          obtain ⟨p, ⟨s, n⟩, q, at_0, stepped, -⟩ := next_act next
          cases at_0
          cases moves_of_step stepped with
          | woke away => exact absurd (Finset.mem_singleton_self 0) away
          | stirred _ noisy => cases spurious.symm.trans noisy
  | 1 => rfl
  | i + 2 => rfl

theorem pool_drains_one : 6 + remaining 1 executed ≤ remaining 1 submitting ∧ Drained 1 executed := by
  have run : (logging 1 4).run calm submitting
      [.act 1 {}, .act 0 {}, .act 0 {}, .act 0 {}, .act 0 {}, .act 0 {}] = some executed := rfl
  obtain ⟨bounded, rests⟩ := pool_drains 1 4 (Nat.le_refl 1) submitting reach_submitting _ executed run
  exact ⟨bounded, rests stuck_executed⟩

end Sample

end Scand.Tasks.Wakeups
