/- path: Scand/Tasks/WorkerPool
   layer: code model and results
   digest: WorkerPool as atomic steps: every accepted task is queued, executing or finished, in order and
   once, up to the end of the destructor. -/

import Scand.Foundation.Interleaving
import Mathlib.Data.List.Nodup

set_option autoImplicit false
set_option relaxedAutoImplicit false

namespace Scand.Tasks.WorkerPool

open Scand.Foundation.Interleaving

/-- The members behind `mutex_`, with the threads whose function has returned. A task is named by the
call that submitted it, a thread by its place in `workers_`. -/
structure Pool where
  tasks : List Nat := []
  stopping : Bool := false
  accepting : Bool := true
  active : Nat := 0
  ended : List Nat := []
  deriving DecidableEq

structure Reply where
  threw : Bool := false
  timedOut : Bool := false

/-- Where a thread or a call stands: each place is the next atomic step. -/
inductive Pc
  -- worker_loop: the wait, the task, and the lock behind it
  | waiting | running (task : Nat) | ran (task : Nat) (threw : Bool) | ended
  -- try_submit and its result
  | trySubmit | submitted (ok : Bool)
  -- stop_accepting
  | stopAccepting | stopped
  -- wait_idle and its result
  | waitIdle | waited (ok : Bool)
  -- the destructor: its lock, and the threads that it joins in their order
  | destroy | joining (next : Nat) | destroyed
  deriving DecidableEq

section Code

variable (threads maxQueue : Nat)

/-- The locked part of `try_submit`; nothing where the task is refused. -/
def tryPush (s : Pool) (task : Nat) : Option Pool :=
  if s.stopping || !s.accepting then none
  else if s.tasks.length ≥ maxQueue then none
  else some { s with tasks := s.tasks ++ [task] }

def step (i : Nat) (s : Pool) (pc : Pc) (r : Reply) : Option (Pool × Pc) :=
  match pc with
  | .waiting =>
      match s.tasks with
      | task :: rest => some ({ s with tasks := rest, active := s.active + 1 }, .running task)
      | [] => if s.stopping then some ({ s with ended := s.ended ++ [i] }, .ended) else none
  | .running task => some (s, .ran task r.threw)
  | .ran _ _ => some ({ s with active := s.active - 1 }, .waiting)
  | .trySubmit =>
      match tryPush maxQueue s i with
      | some s => some (s, .submitted true)
      | none => some (s, .submitted false)
  | .stopAccepting => some ({ s with accepting := false }, .stopped)
  | .waitIdle =>
      if s.tasks = [] ∧ s.active = 0 then some (s, .waited true)
      else some (s, if r.timedOut then .waited false else .waitIdle)
  | .destroy => some ({ s with stopping := true, accepting := false }, .joining 0)
  | .joining k =>
      if k < threads then if k ∈ s.ended then some (s, .joining (k + 1)) else none
      else some (s, .destroyed)
  | .ended | .submitted _ | .stopped | .waited _ | .destroyed => none

def isCall : Pc → Bool
  | .trySubmit | .stopAccepting | .waitIdle | .destroy => true
  | _ => false

def workerPool : Machine Pool Pc Reply where
  entry := isCall
  step := step threads maxQueue

/-- The tasks that were accepted, that were taken from the queue and whose execution ended, each in the
order in which this happened. -/
structure Log where
  accepted : List Nat := []
  started : List Nat := []
  finished : List Nat := []

def logged (i : Nat) (s : Pool) (n : Log) : Pc → Log
  | .waiting =>
      match s.tasks with
      | task :: _ => { n with started := n.started ++ [task] }
      | [] => n
  | .running task => { n with finished := n.finished ++ [task] }
  | .trySubmit =>
      if (tryPush maxQueue s i).isSome then { n with accepted := n.accepted ++ [i] } else n
  | _ => n

abbrev logging : Machine (Pool × Log) Pc Reply := (workerPool threads maxQueue).logging (logged maxQueue)

def constructed : Config (Pool × Log) Pc := ⟨({}, {}), List.replicate threads .waiting⟩

end Code

inductive Moves (threads maxQueue i : Nat) (s : Pool) (n : Log) : Pc → Pool → Log → Pc → Prop
  | took (task : Nat) (rest : List Nat) : s.tasks = task :: rest →
      Moves threads maxQueue i s n .waiting { s with tasks := rest, active := s.active + 1 }
        { n with started := n.started ++ [task] } (.running task)
  | ended : s.tasks = [] → s.stopping = true →
      Moves threads maxQueue i s n .waiting { s with ended := s.ended ++ [i] } n .ended
  | ran (task : Nat) (threw : Bool) : Moves threads maxQueue i s n (.running task) s
      { n with finished := n.finished ++ [task] } (.ran task threw)
  | rested (task : Nat) (threw : Bool) : Moves threads maxQueue i s n (.ran task threw)
      { s with active := s.active - 1 } n .waiting
  | accepted : s.stopping = false → s.accepting = true → s.tasks.length < maxQueue →
      Moves threads maxQueue i s n .trySubmit { s with tasks := s.tasks ++ [i] }
        { n with accepted := n.accepted ++ [i] } (.submitted true)
  | refused : Moves threads maxQueue i s n .trySubmit s n (.submitted false)
  | stopped : Moves threads maxQueue i s n .stopAccepting { s with accepting := false } n .stopped
  | idle : s.tasks = [] → s.active = 0 → Moves threads maxQueue i s n .waitIdle s n (.waited true)
  | timedOut : Moves threads maxQueue i s n .waitIdle s n (.waited false)
  | waits : Moves threads maxQueue i s n .waitIdle s n .waitIdle
  | destroys : Moves threads maxQueue i s n .destroy
      { s with stopping := true, accepting := false } n (.joining 0)
  | joined (k : Nat) : k ∈ s.ended → Moves threads maxQueue i s n (.joining k) s n (.joining (k + 1))
  | destroyed (k : Nat) : threads ≤ k → Moves threads maxQueue i s n (.joining k) s n .destroyed

section Steps

variable {threads maxQueue i : Nat} {s s' : Pool} {n n' : Log} {pc pc' : Pc} {r : Reply}

theorem tryPush_cases (maxQueue : Nat) (s : Pool) (task : Nat) :
    tryPush maxQueue s task = none ∨ s.stopping = false ∧ s.accepting = true ∧
      s.tasks.length < maxQueue ∧
      tryPush maxQueue s task = some { s with tasks := s.tasks ++ [task] } := by
  unfold tryPush
  split
  · exact Or.inl rfl
  · rename_i opened
    split
    · exact Or.inl rfl
    · rename_i room
      rw [Bool.or_eq_true, not_or, Bool.not_eq_true, Bool.not_eq_true'] at opened
      exact Or.inr ⟨opened.1, Bool.not_eq_false _ |>.mp opened.2, Nat.lt_of_not_le room, rfl⟩

theorem moves_of_step
    (stepped : (logging threads maxQueue).step i (s, n) pc r = some ((s', n'), pc')) :
    Moves threads maxQueue i s n pc s' n' pc' := by
  obtain ⟨inner, log⟩ := logging_step stepped
  have moved : step threads maxQueue i s pc r = some (s', pc') := inner
  have kept : n' = logged maxQueue i s n pc := log
  subst kept
  cases pc with
  | waiting =>
      unfold step at moved
      dsimp only at moved
      split at moved
      · rename_i task rest queue
        cases moved
        rw [logged, queue]
        exact .took task rest queue
      · rename_i queue
        have none_started : logged maxQueue i s n .waiting = n := by rw [logged, queue]
        rw [none_started]
        split at moved
        · rename_i stopping
          cases moved
          exact .ended queue stopping
        · cases moved
  | running task =>
      cases moved
      exact .ran task r.threw
  | ran task threw =>
      cases moved
      exact .rested task threw
  | trySubmit =>
      rcases tryPush_cases maxQueue s i with refused | ⟨going, accepting, room, pushed⟩
      · rw [step, refused] at moved
        cases moved
        rw [logged, refused]
        exact .refused
      · rw [step, pushed] at moved
        cases moved
        rw [logged, pushed]
        exact .accepted going accepting room
  | stopAccepting =>
      cases moved
      exact .stopped
  | waitIdle =>
      by_cases idle : s.tasks = [] ∧ s.active = 0
      · rw [step, if_pos idle] at moved
        cases moved
        exact .idle idle.1 idle.2
      · rw [step, if_neg idle] at moved
        cases over_time : r.timedOut with
        | true =>
            rw [over_time] at moved
            cases moved
            exact .timedOut
        | false =>
            rw [over_time] at moved
            cases moved
            exact .waits
  | destroy =>
      cases moved
      exact .destroys
  | joining k =>
      rw [step] at moved
      split at moved
      · split at moved
        · rename_i ended
          cases moved
          exact .joined k ended
        · cases moved
      · rename_i all_joined
        cases moved
        exact .destroyed k (Nat.le_of_not_lt all_joined)
  | ended => cases moved
  | submitted ok => cases moved
  | stopped => cases moved
  | waited ok => cases moved
  | destroyed => cases moved

end Steps

def executing : Pc → Option Nat
  | .running task => some task
  | _ => none

def busy : Pc → Bool
  | .running _ | .ran _ _ => true
  | _ => false

def isWorker : Pc → Bool
  | .waiting | .running _ | .ran _ _ | .ended => true
  | _ => false

/-- What holds of the pool, of the tasks that went through it and of its threads. -/
structure Sound (threads maxQueue : Nat) (c : Config (Pool × Log) Pc) : Prop where
  order : c.shared.2.accepted = c.shared.2.started ++ c.shared.1.tasks
  accounted : c.shared.2.started.Perm (c.procs.filterMap executing ++ c.shared.2.finished)
  once : c.shared.2.accepted.Nodup
  results : ∀ task ∈ c.shared.2.accepted, c.procs[task]? = some (.submitted true)
  bounded : c.shared.1.tasks.length ≤ maxQueue
  active : c.shared.1.active = c.procs.countP busy
  closed : .stopped ∈ c.procs → c.shared.1.accepting = false
  ended : ∀ k ∈ c.shared.1.ended,
    c.procs[k]? = some .ended ∧ c.shared.1.stopping = true ∧ c.shared.1.tasks = []
  workers : ∀ k p, c.procs[k]? = some p → isWorker p = true → k < threads
  joining : ∀ k, .joining k ∈ c.procs → ∀ j < k, j ∈ c.shared.1.ended
  destroyed : .destroyed ∈ c.procs → ∀ j < threads, j ∈ c.shared.1.ended

section Preserved

variable {threads maxQueue i : Nat} {c d : Config (Pool × Log) Pc} {p q : Pc} {s : Pool} {n : Log}

theorem sound_constructed : Sound threads maxQueue (constructed threads) where
  order := rfl
  accounted := by simp [constructed, List.filterMap_replicate, executing]
  once := List.nodup_nil
  results := fun _ mem => absurd mem List.not_mem_nil
  bounded := Nat.zero_le _
  active := by simp [constructed, List.countP_replicate, busy]
  closed := fun mem => by cases List.eq_of_mem_replicate mem
  ended := fun _ mem => absurd mem List.not_mem_nil
  workers := by
    intro k p at_k _
    have bound := (List.getElem?_eq_some_iff.mp at_k).1
    rwa [constructed, List.length_replicate] at bound
  joining := fun _ mem => by cases List.eq_of_mem_replicate mem
  destroyed := fun mem => by cases List.eq_of_mem_replicate mem

theorem Sound.order_step (sound : Sound threads maxQueue c)
    (moves : Moves threads maxQueue i c.shared.1 c.shared.2 p s n q) :
    n.accepted = n.started ++ s.tasks := by
  have order := sound.order
  cases moves with
  | took task rest queue =>
      show c.shared.2.accepted = (c.shared.2.started ++ [task]) ++ rest
      rw [order, queue, List.append_assoc, List.singleton_append]
  | accepted _ _ _ =>
      show c.shared.2.accepted ++ [i] = c.shared.2.started ++ (c.shared.1.tasks ++ [i])
      rw [order, List.append_assoc]
  | _ => exact order

theorem Sound.accounted_step (sound : Sound threads maxQueue c) (at_i : c.procs[i]? = some p)
    (moves : Moves threads maxQueue i c.shared.1 c.shared.2 p s n q) :
    n.started.Perm ((c.procs.set i q).filterMap executing ++ n.finished) := by
  have traded := filterMap_set_perm (f := executing) (q := q) at_i
  have balance : ∀ task,
      n.started.count task + c.shared.2.finished.count task + (executing p).toList.count task =
        c.shared.2.started.count task + n.finished.count task + (executing q).toList.count task := by
    intro task
    cases moves with
    | took first rest queue =>
        show (c.shared.2.started ++ [first]).count task + c.shared.2.finished.count task + 0 =
          c.shared.2.started.count task + c.shared.2.finished.count task + [first].count task
        rw [List.count_append]
        omega
    | ran first threw =>
        show c.shared.2.started.count task + c.shared.2.finished.count task + [first].count task =
          c.shared.2.started.count task + (c.shared.2.finished ++ [first]).count task + 0
        rw [List.count_append]
        omega
    | _ => rfl
  apply List.perm_iff_count.mpr
  intro task
  have before := sound.accounted.count_eq task
  have trade := traded.count_eq task
  have moved := balance task
  rw [List.count_append] at before trade ⊢
  rw [List.count_append] at trade
  omega

theorem Sound.results_step (sound : Sound threads maxQueue c) (at_i : c.procs[i]? = some p)
    (moves : Moves threads maxQueue i c.shared.1 c.shared.2 p s n q) :
    n.accepted.Nodup ∧ ∀ task ∈ n.accepted, (c.procs.set i q)[task]? = some (.submitted true) := by
  have results := sound.results
  have running : ∀ ok, p ≠ .submitted ok := by
    rintro ok rfl
    cases moves
  have kept : ∀ task ∈ c.shared.2.accepted, (c.procs.set i q)[task]? = some (.submitted true) := by
    intro task mem
    exact getElem?_set_kept at_i (results task mem) (running true).symm
  cases moves with
  | accepted _ _ _ =>
      have fresh : i ∉ c.shared.2.accepted := by
        intro mem
        exact running true (Option.some.inj (at_i.symm.trans (results i mem)))
      have bound := (List.getElem?_eq_some_iff.mp at_i).1
      refine ⟨List.nodup_append.mpr ⟨sound.once, List.nodup_singleton i, ?_⟩, ?_⟩
      · rintro task mem other here rfl
        exact fresh (List.mem_singleton.mp here ▸ mem)
      · intro task mem
        rcases List.mem_append.mp mem with old | new
        · exact kept task old
        · rw [List.mem_singleton.mp new, List.getElem?_set_self bound]
  | _ => exact ⟨sound.once, kept⟩

theorem Sound.bounded_step (sound : Sound threads maxQueue c)
    (moves : Moves threads maxQueue i c.shared.1 c.shared.2 p s n q) : s.tasks.length ≤ maxQueue := by
  have bounded := sound.bounded
  cases moves with
  | took task rest queue =>
      rw [queue, List.length_cons] at bounded
      show rest.length ≤ maxQueue
      omega
  | accepted _ _ room =>
      show (c.shared.1.tasks ++ [i]).length ≤ maxQueue
      rw [List.length_append, List.length_singleton]
      omega
  | _ => exact bounded

theorem Sound.active_step (sound : Sound threads maxQueue c) (at_i : c.procs[i]? = some p)
    (moves : Moves threads maxQueue i c.shared.1 c.shared.2 p s n q) :
    s.active = (c.procs.set i q).countP busy := by
  have active := sound.active
  have traded := countP_set_add (f := busy) (q := q) at_i
  cases moves with
  | took task rest queue =>
      have counted : (c.procs.set i (.running task)).countP busy + 0 = c.procs.countP busy + 1 := traded
      show c.shared.1.active + 1 = _
      omega
  | rested task threw =>
      have counted : (c.procs.set i .waiting).countP busy + 1 = c.procs.countP busy + 0 := traded
      show c.shared.1.active - 1 = _
      omega
  | ran task threw =>
      have counted : (c.procs.set i (.ran task threw)).countP busy + 1 = c.procs.countP busy + 1 :=
        traded
      show c.shared.1.active = _
      omega
  | _ => exact active.trans traded.symm

theorem Sound.closed_step (sound : Sound threads maxQueue c) (at_i : c.procs[i]? = some p)
    (moves : Moves threads maxQueue i c.shared.1 c.shared.2 p s n q)
    (stopped : .stopped ∈ c.procs.set i q) : s.accepting = false := by
  have before : .stopped ∈ c.procs → c.shared.1.accepting = false := sound.closed
  rcases mem_set_cases stopped with same | ⟨j, -, at_j⟩
  · cases moves with
    | stopped => rfl
    | _ => cases same
  · have shut := before (List.mem_of_getElem? at_j)
    cases moves with
    | stopped => rfl
    | destroys => rfl
    | _ => exact shut

theorem Sound.ended_step (sound : Sound threads maxQueue c) (at_i : c.procs[i]? = some p)
    (moves : Moves threads maxQueue i c.shared.1 c.shared.2 p s n q) :
    ∀ k ∈ s.ended, (c.procs.set i q)[k]? = some .ended ∧ s.stopping = true ∧ s.tasks = [] := by
  have ended := sound.ended
  have running : p ≠ .ended := by
    rintro rfl
    cases moves
  have kept : ∀ k ∈ c.shared.1.ended, (c.procs.set i q)[k]? = some .ended :=
    fun k mem => getElem?_set_kept at_i (ended k mem).1 running.symm
  cases moves with
  | took task rest queue =>
      intro k mem
      obtain ⟨-, -, empty⟩ := ended k mem
      rw [queue] at empty
      cases empty
  | ended empty stopping =>
      intro k mem
      refine ⟨?_, stopping, empty⟩
      rcases List.mem_append.mp mem with old | new
      · exact kept k old
      · have bound := (List.getElem?_eq_some_iff.mp at_i).1
        rw [List.mem_singleton.mp new, List.getElem?_set_self bound]
  | accepted going _ _ =>
      intro k mem
      obtain ⟨-, stopping, -⟩ := ended k mem
      rw [going] at stopping
      cases stopping
  | destroys => exact fun k mem => ⟨kept k mem, rfl, (ended k mem).2.2⟩
  | _ => exact fun k mem => ⟨kept k mem, (ended k mem).2⟩

theorem Sound.ended_grows (moves : Moves threads maxQueue i c.shared.1 c.shared.2 p s n q) {k : Nat}
    (mem : k ∈ c.shared.1.ended) : k ∈ s.ended := by
  cases moves with
  | ended _ _ => exact List.mem_append_left _ mem
  | _ => exact mem

theorem Sound.workers_step (sound : Sound threads maxQueue c) (at_i : c.procs[i]? = some p)
    (moves : Moves threads maxQueue i c.shared.1 c.shared.2 p s n q) (k : Nat) (p' : Pc)
    (at_k : (c.procs.set i q)[k]? = some p') (worker : isWorker p' = true) : k < threads := by
  have workers := sound.workers
  rcases getElem?_set_cases at_k with ⟨rfl, rfl⟩ | ⟨-, at_k⟩
  · apply workers i p at_i
    cases moves with
    | took _ _ _ => rfl
    | ended _ _ => rfl
    | ran _ _ => rfl
    | rested _ _ => rfl
    | _ => cases worker
  · exact workers k p' at_k worker

theorem Sound.joining_step (sound : Sound threads maxQueue c) (at_i : c.procs[i]? = some p)
    (moves : Moves threads maxQueue i c.shared.1 c.shared.2 p s n q) :
    (∀ k, .joining k ∈ c.procs.set i q → ∀ j < k, j ∈ s.ended) ∧
      (.destroyed ∈ c.procs.set i q → ∀ j < threads, j ∈ s.ended) := by
  have grows : ∀ {j}, j ∈ c.shared.1.ended → j ∈ s.ended := Sound.ended_grows moves
  constructor
  · intro k mem j before
    rcases mem_set_cases mem with same | ⟨other, -, at_other⟩
    · cases moves with
      | joined k' ended =>
          cases same
          rcases Nat.lt_succ_iff_lt_or_eq.mp before with earlier | rfl
          · exact sound.joining k' (List.mem_of_getElem? at_i) j earlier
          · exact ended
      | destroys =>
          cases same
          omega
      | _ => cases same
    · exact grows (sound.joining k (List.mem_of_getElem? at_other) j before)
  · intro mem j before
    rcases mem_set_cases mem with same | ⟨other, -, at_other⟩
    · cases moves with
      | destroyed k all =>
          exact sound.joining k (List.mem_of_getElem? at_i) j (Nat.lt_of_lt_of_le before all)
      | _ => cases same
    · exact grows (sound.destroyed (List.mem_of_getElem? at_other) j before)

theorem Sound.next {l : Label Pc Reply} (sound : Sound threads maxQueue c)
    (next : (logging threads maxQueue).next c l = some d) : Sound threads maxQueue d := by
  rcases next_cases next with ⟨p, -, entry, rfl⟩ | ⟨i, r, p, ⟨s, n⟩, q, -, at_i, stepped, rfl⟩
  · have call : isCall p = true := entry
    have old : ∀ r, r ≠ p → (r ∈ c.procs ++ [p] ↔ r ∈ c.procs) := by
      intro r other
      rw [List.mem_append, List.mem_singleton]
      exact or_iff_left other
    have counted : (c.procs ++ [p]).countP busy = c.procs.countP busy + (busy p).toNat :=
      countP_snoc
    have passive : busy p = false ∧ executing p = none ∧ isWorker p = false ∧ p ≠ .stopped ∧
        (∀ k, p ≠ .joining k) ∧ p ≠ .destroyed := by
      cases p <;> first | cases call; done | simp [busy, executing, isWorker]
    obtain ⟨idle, none_executed, no_worker, not_stopped, not_joining, not_destroyed⟩ := passive
    exact {
      order := sound.order
      accounted := by
        rw [List.filterMap_append, List.filterMap_cons, none_executed, List.filterMap_nil,
          List.append_nil]
        exact sound.accounted
      once := sound.once
      results := fun task mem => getElem?_snoc_kept (sound.results task mem)
      bounded := sound.bounded
      active := by
        rw [counted, idle]
        exact sound.active
      closed := fun mem => sound.closed ((old _ not_stopped.symm).mp mem)
      ended := fun k mem => ⟨getElem?_snoc_kept (sound.ended k mem).1, (sound.ended k mem).2⟩
      workers := by
        intro k r at_k worker
        rcases getElem?_snoc_cases at_k with before | rfl
        · exact sound.workers k r before worker
        · rw [no_worker] at worker
          cases worker
      joining := fun k mem => sound.joining k ((old _ (not_joining k).symm).mp mem)
      destroyed := fun mem => sound.destroyed ((old _ not_destroyed.symm).mp mem) }
  · have moves := moves_of_step stepped
    obtain ⟨once, results⟩ := sound.results_step at_i moves
    obtain ⟨joining, destroyed⟩ := sound.joining_step at_i moves
    exact {
      order := sound.order_step moves
      accounted := sound.accounted_step at_i moves
      once := once
      results := results
      bounded := sound.bounded_step moves
      active := sound.active_step at_i moves
      closed := sound.closed_step at_i moves
      ended := sound.ended_step at_i moves
      workers := sound.workers_step at_i moves
      joining := joining
      destroyed := destroyed }

theorem sound_of_reach (reach : Reach (logging threads maxQueue) anyLabel (constructed threads) c) :
    Sound threads maxQueue c :=
  reach.invariant sound_constructed fun _ _ _ sound _ next => sound.next next

theorem Sound.all_finished (sound : Sound threads maxQueue c) (some_thread : 1 ≤ threads)
    (destroyed : .destroyed ∈ c.procs) : c.shared.2.accepted.Perm c.shared.2.finished := by
  have joined := sound.destroyed destroyed
  obtain ⟨-, -, empty⟩ := sound.ended 0 (joined 0 some_thread)
  have none_executed : c.procs.filterMap executing = [] := by
    rw [List.filterMap_eq_nil_iff]
    intro p mem
    obtain ⟨k, at_k⟩ := List.mem_iff_getElem?.mp mem
    cases p with
    | running task =>
        obtain ⟨at_end, -⟩ := sound.ended k (joined k (sound.workers k _ at_k rfl))
        cases at_k.symm.trans at_end
    | _ => rfl
  have accounted := sound.accounted
  rw [none_executed, List.nil_append] at accounted
  rw [sound.order, empty, List.append_nil]
  exact accounted

theorem shut_next {l : Label Pc Reply} (next : (logging threads maxQueue).next c l = some d)
    (shut : c.shared.1.accepting = false) :
    d.shared.1.accepting = false ∧ d.shared.2.accepted = c.shared.2.accepted := by
  rcases next_cases next with ⟨p, -, -, rfl⟩ | ⟨i, r, p, ⟨s, n⟩, q, -, at_i, stepped, rfl⟩
  · exact ⟨shut, rfl⟩
  · cases moves_of_step stepped with
    | accepted _ accepting _ =>
        rw [shut] at accepting
        cases accepting
    | stopped => exact ⟨rfl, rfl⟩
    | destroys => exact ⟨rfl, rfl⟩
    | _ => exact ⟨shut, rfl⟩

theorem shut_reach (reach : Reach (logging threads maxQueue) anyLabel c d)
    (shut : c.shared.1.accepting = false) : d.shared.2.accepted = c.shared.2.accepted := by
  have kept : d.shared.1.accepting = false ∧ d.shared.2.accepted = c.shared.2.accepted := by
    refine reach.invariant
      (I := fun e => e.shared.1.accepting = false ∧ e.shared.2.accepted = c.shared.2.accepted)
      ⟨shut, rfl⟩ ?_
    intro e e' l before _ next
    obtain ⟨shut', same⟩ := shut_next next before.1
    exact ⟨shut', same.trans before.2⟩
  exact kept.2

theorem Sound.idle_when_waited (sound : Sound threads maxQueue c) {r : Reply}
    (next : (logging threads maxQueue).next c (.act i r) = some d)
    (waited : d.procs[i]? = some (.waited true)) :
    d.shared.1.tasks = [] ∧ ∀ p ∈ d.procs, executing p = none := by
  have after := sound.next next
  obtain ⟨p, ⟨s, n⟩, q, at_i, stepped, rfl⟩ := next_act next
  rw [List.getElem?_set_self (List.getElem?_eq_some_iff.mp at_i).1] at waited
  cases waited
  have active := after.active
  cases moves_of_step stepped with
  | idle empty none_active =>
      refine ⟨empty, fun p mem => ?_⟩
      have none_busy : (c.procs.set i (.waited true)).countP busy = 0 :=
        active.symm.trans none_active
      have rests := List.countP_eq_zero.mp none_busy p mem
      cases p with
      | running task => exact absurd rfl rests
      | _ => rfl

end Preserved

/-- What is asked of a reached pool: its tasks are accounted for, in their order and once, within the
bound of the queue, and none is left when the destructor has returned. -/
structure Kept (maxQueue : Nat) (c : Config (Pool × Log) Pc) : Prop where
  accounted : c.shared.2.accepted.Perm
    (c.shared.1.tasks ++ c.procs.filterMap executing ++ c.shared.2.finished)
  order : c.shared.2.started <+: c.shared.2.accepted
  once : c.shared.2.started.Nodup
  bounded : c.shared.1.tasks.length ≤ maxQueue
  finished : .destroyed ∈ c.procs → ∀ task ∈ c.shared.2.accepted, task ∈ c.shared.2.finished

/-- Every reached pool is kept, accepts nothing after `stop_accepting` has returned, and `wait_idle`
returns true only where no task is queued or executing. -/
theorem pool_kept (threads maxQueue : Nat) (some_thread : 1 ≤ threads) (c : Config (Pool × Log) Pc)
    (reach : Reach (logging threads maxQueue) anyLabel (constructed threads) c) :
    Kept maxQueue c ∧
      (.stopped ∈ c.procs → ∀ d, Reach (logging threads maxQueue) anyLabel c d →
        d.shared.2.accepted = c.shared.2.accepted) ∧
      ∀ i r d, (logging threads maxQueue).next c (.act i r) = some d →
        d.procs[i]? = some (.waited true) →
          d.shared.1.tasks = [] ∧ ∀ p ∈ d.procs, executing p = none := by
  have sound := sound_of_reach reach
  refine ⟨?_, ?_, ?_⟩
  · exact {
      accounted := by
        apply List.perm_iff_count.mpr
        intro task
        have started := sound.accounted.count_eq task
        rw [List.count_append] at started
        rw [sound.order, List.count_append, List.count_append, List.count_append]
        omega
      order := by
        rw [sound.order]
        exact List.prefix_append _ _
      once := by
        have once := sound.once
        rw [sound.order] at once
        exact once.of_append_left
      bounded := sound.bounded
      finished := fun destroyed task mem =>
        (sound.all_finished some_thread destroyed).mem_iff.mp mem }
  · intro stopped d further
    exact shut_reach further (sound.closed stopped)
  · intro i r d next waited
    exact sound.idle_when_waited next waited

theorem pool_kept_throwing : ∃ c : Config (Pool × Log) Pc,
    .destroyed ∈ c.procs ∧ c.shared.2.finished = [1] ∧ Kept 2 c := by
  obtain ⟨c, reach, test⟩ := reach_of_run_test (M := logging 1 2) (G := anyLabel) (c := constructed 1)
    [.spawn .trySubmit, .act 1 {}, .act 0 {}, .spawn .destroy, .act 2 {}, .act 0 { threw := true },
      .act 0 {}, .act 0 {}, .act 2 {}, .act 2 {}]
    (fun c => decide (.destroyed ∈ c.procs ∧ c.shared.2.finished = [1])) (g := fun _ _ => true)
    (fun _ _ _ => trivial) (by decide +kernel)
  obtain ⟨destroyed, finished⟩ := of_decide_eq_true test
  exact ⟨c, destroyed, finished, (pool_kept 1 2 (by decide) c reach).1⟩

end Scand.Tasks.WorkerPool
