/- path: Scand/Ozon/JobRows
   layer: results
   digest: Which rows of the run history an Ozon run closes, as long as the triggered syncs do not
   overlap. -/

import Scand.Ozon.Exclusion

set_option autoImplicit false
set_option relaxedAutoImplicit false

namespace Scand.Ozon.JobRows

open Scand.Foundation.Interleaving
open Scand.Foundation.RowUpdate
open Scand.Ozon.Service
open Scand.Ozon.Exclusion (executing)
open Scand.Store.SyncRuns

abbrev Proc := Pc × List (Pc × Reply)

/-- The job id that `ozon_job_start` draws from the clock. -/
def drawnJob (r : Reply) : String := "sync-" ++ toString r.micros

def ownJob (past : List (Pc × Reply)) : Option String :=
  past.foldl (fun job e => if e.1 = .startJob then some (drawnJob e.2) else job) none

/-- Between setting the job id and the statement that closes its row. -/
def isOpen : Pc → Bool
  | .abandonOld _ | .insertJob _ | .submit | .releaseRefused | .readRefusedJob
  | .failRefusedJob _ => true
  | .releaseRunning => false
  | pc => executing pc

def unstarted : Pc → Bool
  | .abandonOld _ | .insertJob _ => true
  | _ => false

def carriedJob : Pc → Option String
  | .abandonOld jobId | .insertJob jobId | .failRefusedJob jobId | .finishJob _ jobId
  | .failJob _ jobId => some jobId
  | _ => none

def finishes : Pc → Bool
  | .failRefusedJob _ | .finishJob _ _ | .failJob _ _ => true
  | _ => false

def noneOpen (c : Config Shared Proc) : Bool := c.procs.all fun p => !isOpen p.1

/-- A trigger sets the job id, and draws a new one, only when no triggered sync is open; a reset
abandons the rows of `ozon` and clears the job id only then. -/
def SyncsApart (c : Config Shared Proc) (l : Label Proc Reply) : Prop :=
  ∀ i r p, l = .act i r → c.procs[i]? = some p →
    (p.1 = .startJob → noneOpen c = true ∧ ∀ row ∈ c.shared.syncRuns, row.jobId ≠ drawnJob r) ∧
      (p.1 = .resetOzonRuns ∨ p.1 = .resetJob → noneOpen c = true)

def runsAfter (pc : Pc) (r : Reply) (rows : List SyncRun) : List SyncRun :=
  if r.dbOk then
    match pc with
    | .abandonOld _ => abandonRunning 1 "ozon" "superseded by new run" rows
    | .insertJob jobId => start "ozon" jobId 1 rows
    | .failRefusedJob jobId => finishFailed 1 "ozon" jobId "pool submit failed" "error" rows
    | .finishJob total jobId => finishDone 1 "ozon" jobId { accepted := total } rows
    | .failJob error jobId => finishFailed 1 "ozon" jobId error "error" rows
    | .resetPullRuns => abandonRunning 1 "inventory_pull" "reset by user" rows
    | .resetOzonRuns => abandonRunning 1 "ozon" "reset by user" rows
    | _ => rows
  else rows

def jobAfter (pc : Pc) (r : Reply) (jobId : String) : String :=
  match pc with
  | .startJob => drawnJob r
  | .resetJob => ""
  | _ => jobId

section Steps

variable {conf : Conf} {i : Nat} {s s' : Shared} {pc pc' : Pc} {r : Reply}

private theorem trigger_history (stepped : triggerStep i s pc r = some (s', pc')) :
    s'.syncRuns = runsAfter pc r s.syncRuns ∧ s'.ozonJobId = jobAfter pc r s.ozonJobId := by
  cases pc <;> simp only [triggerStep, Option.some.injEq, Prod.mk.injEq, reduceCtorEq] at stepped
  case claimRunning | submit => split at stepped <;> cases stepped <;> simp [runsAfter, jobAfter]
  all_goals
    obtain ⟨rfl, -⟩ := stepped
    simp [runsAfter, jobAfter, resetCheckpoint, updateRuns, drawnJob]

private theorem run_history (stepped : runStep conf i s pc r = some (s', pc')) :
    s'.syncRuns = runsAfter pc r s.syncRuns ∧ s'.ozonJobId = jobAfter pc r s.ozonJobId := by
  cases pc <;> simp only [runStep, Option.some.injEq, Prod.mk.injEq, reduceCtorEq] at stepped
  case queued =>
    split at stepped
    · split at stepped
      · cases stepped
        simp [runsAfter, jobAfter]
      · cases stepped
    · cases stepped
  case fetchPage v =>
    split at stepped
    · cases stepped
      simp [runsAfter, jobAfter]
    · split at stepped <;> cases stepped <;> simp [runsAfter, jobAfter]
  all_goals
    obtain ⟨rfl, -⟩ := stepped
    simp [runsAfter, jobAfter, Service.saveCheckpoint, sendProgress, upsertProducts, updateRuns]

private theorem control_history (stepped : controlStep s pc r = some (s', pc')) :
    s'.syncRuns = runsAfter pc r s.syncRuns ∧ s'.ozonJobId = jobAfter pc r s.ozonJobId := by
  cases pc <;> simp only [controlStep, Option.some.injEq, Prod.mk.injEq, reduceCtorEq] at stepped
  case requestShutdown => split at stepped <;> cases stepped <;> simp [runsAfter, jobAfter]
  all_goals
    obtain ⟨rfl, -⟩ := stepped
    simp [runsAfter, jobAfter, updateCheckpointStatus, updateRuns]

theorem step_history (stepped : (service conf).step i s pc r = some (s', pc')) :
    s'.syncRuns = runsAfter pc r s.syncRuns ∧ s'.ozonJobId = jobAfter pc r s.ozonJobId := by
  rcases service_step stepped with trigger | run | control
  · exact trigger_history trigger
  · exact run_history run
  · exact control_history control

def OpenStep (s : Shared) (pc pc' : Pc) (r : Reply) : Prop :=
  (pc = .startJob ∧ pc' = .abandonOld (drawnJob r)) ∨
    (isOpen pc = true ∧ finishes pc = false ∧
      (∀ job, carriedJob pc' = some job → carriedJob pc = some job ∨ job = s.ozonJobId) ∧
      (unstarted pc' = true → ∃ job, pc = .abandonOld job))

private theorem afterListing_open (v : RunVars) (page) :
    carriedJob (afterListing v page) = none ∧ unstarted (afterListing v page) = false := by
  unfold afterListing
  split <;> exact ⟨rfl, rfl⟩

private theorem trigger_open (stepped : triggerStep i s pc r = some (s', pc'))
    (stays : isOpen pc' = true) : OpenStep s pc pc' r := by
  unfold OpenStep
  cases pc <;> simp only [triggerStep, Option.some.injEq, Prod.mk.injEq, reduceCtorEq] at stepped
  case startJob =>
    obtain ⟨-, rfl⟩ := stepped
    exact Or.inl ⟨rfl, rfl⟩
  case claimRunning => split at stepped <;> cases stepped <;> cases stays
  case submit =>
    split at stepped <;> cases stepped <;> simp [isOpen, finishes, carriedJob, unstarted]
  all_goals
    obtain ⟨-, rfl⟩ := stepped
    revert stays
    try split
    all_goals simp [isOpen, executing, finishes, carriedJob, unstarted]

private theorem run_open (stepped : runStep conf i s pc r = some (s', pc'))
    (stays : isOpen pc' = true) : OpenStep s pc pc' r := by
  unfold OpenStep
  cases pc <;> simp only [runStep, Option.some.injEq, Prod.mk.injEq, reduceCtorEq] at stepped
  case queued =>
    split at stepped
    · split at stepped
      · cases stepped
        simp [isOpen, executing, finishes, carriedJob, unstarted]
      · cases stepped
    · cases stepped
  case fetchPage v =>
    split at stepped
    · cases stepped
      simp [isOpen, executing, finishes, carriedJob, unstarted]
    · split at stepped
      · cases stepped
        simp [isOpen, executing, finishes, carriedJob, unstarted]
      · cases stepped
        simp [isOpen, executing, finishes, afterListing_open]
  case sendTotal v page =>
    obtain ⟨-, rfl⟩ := stepped
    simp [isOpen, executing, finishes, afterListing_open]
  all_goals
    obtain ⟨-, rfl⟩ := stepped
    revert stays
    try split
    all_goals simp [isOpen, executing, finishes, carriedJob, unstarted]

private theorem control_closed (stepped : controlStep s pc r = some (s', pc')) :
    isOpen pc' = false := by
  cases pc <;> simp only [controlStep, Option.some.injEq, Prod.mk.injEq, reduceCtorEq] at stepped
  case requestShutdown => split at stepped <;> cases stepped <;> rfl
  all_goals
    obtain ⟨-, rfl⟩ := stepped
    try split
    all_goals rfl

theorem open_step (stepped : (service conf).step i s pc r = some (s', pc'))
    (stays : isOpen pc' = true) : OpenStep s pc pc' r := by
  rcases service_step stepped with trigger | run | control
  · exact trigger_open trigger stays
  · exact run_open run stays
  · rw [control_closed control] at stays
    cases stays

end Steps

/-- The rows of a job: none before its insertion and one at most after it, running until the job
is closed. -/
structure RowsOf (rows : List SyncRun) (job : String) (unstarted : Bool) : Prop where
  count : jobCount job rows ≤ (!unstarted).toNat
  running : ∀ row ∈ rows, row.jobId = job → row.source = "ozon" ∧ row.status = .running

/-- An open call owns the job id of the service and the rows of that job. -/
def OwnsJob (s : Shared) (p : Proc) : Prop :=
  ∃ job, ownJob p.2 = some job ∧ s.ozonJobId = job ∧
    (∀ carried, carriedJob p.1 = some carried → carried = job) ∧
      RowsOf s.syncRuns job (unstarted p.1)

structure Apart (c : Config Shared Proc) : Prop where
  single : c.procs.countP (fun p => isOpen p.1) ≤ 1
  owned : ∀ (i : Nat) (p : Proc), c.procs[i]? = some p → isOpen p.1 = true → OwnsJob c.shared p

theorem ownJob_snoc (past : List (Pc × Reply)) (pc : Pc) (r : Reply) :
    ownJob (past ++ [(pc, r)]) = if pc = .startJob then some (drawnJob r) else ownJob past := by
  simp [ownJob]

theorem noneOpen_iff {c : Config Shared Proc} :
    noneOpen c = true ↔ ∀ (i : Nat) (p : Proc), c.procs[i]? = some p → isOpen p.1 = false := by
  simp only [noneOpen, List.all_eq_true, Bool.not_eq_true']
  constructor
  · exact fun all i p at_i => all p (List.mem_of_getElem? at_i)
  · intro all p mem
    obtain ⟨i, at_i⟩ := List.mem_iff_getElem?.mp mem
    exact all i p at_i

theorem jobAfter_other {pc : Pc} {r : Reply} {jobId : String} (not_draw : pc ≠ .startJob)
    (not_reset : pc ≠ .resetJob) : jobAfter pc r jobId = jobId := by
  cases pc <;> first | rfl | exact absurd rfl not_draw | exact absurd rfl not_reset

section Rows

variable {rows : List SyncRun} {job : String} {pc : Pc} {r : Reply}

private theorem rowsOf_fresh (fresh : ∀ row ∈ rows, row.jobId ≠ job) : RowsOf rows job true where
  count := by
    rw [jobCount, List.countP_eq_zero.mpr fun row mem => by simpa using fresh row mem]
    exact Nat.zero_le _
  running row mem same := absurd same (fresh row mem)

private theorem RowsOf.weaken {early : Bool} (h : RowsOf rows job early) :
    RowsOf rows job false where
  count := h.count.trans (Bool.toNat_le _)
  running := h.running

private theorem RowsOf.update_unstarted {hit : SyncRun → Bool} {change : SyncRun → SyncRun}
    (h : RowsOf rows job true) (kept : ∀ row, (change row).jobId = row.jobId) :
    RowsOf (updateWhere hit change rows) job true := by
  have count : jobCount job (updateWhere hit change rows) ≤ 0 :=
    (jobCount_updateWhere kept).trans_le h.count
  refine ⟨count, fun row mem same => ?_⟩
  have none_left := List.countP_eq_zero.mp (Nat.le_zero.mp count) row mem
  exact absurd same (by simpa using none_left)

private theorem RowsOf.update_missed {early : Bool} {hit : SyncRun → Bool}
    {change : SyncRun → SyncRun} (h : RowsOf rows job early)
    (kept : ∀ row, (change row).jobId = row.jobId)
    (missed : ∀ row, row.source = "ozon" → hit row = false) :
    RowsOf (updateWhere hit change rows) job early := by
  refine ⟨(jobCount_updateWhere kept).trans_le h.count, fun row mem same => ?_⟩
  obtain ⟨old, old_mem, equal⟩ := List.mem_map.mp mem
  split at equal
  · rename_i was_hit
    have job_old : old.jobId = job := by rw [← same, ← equal, kept]
    rw [missed old (h.running old old_mem job_old).1] at was_hit
    cases was_hit
  · cases equal
    exact h.running row old_mem same

private theorem RowsOf.insert (h : RowsOf rows job true) : RowsOf (start "ozon" job 1 rows) job false := by
  refine ⟨?_, fun row mem same => ?_⟩
  · rw [jobCount_start]
    have := h.count
    simp only [Bool.not_true, Bool.toNat_false, decide_true, Bool.toNat_true, Bool.not_false] at *
    omega
  · rcases List.mem_append.mp mem with old | new
    · exact h.running row old same
    · rw [List.mem_singleton.mp new]
      exact ⟨rfl, rfl⟩

private theorem pull_rows_missed (row : SyncRun) (ozon : row.source = "ozon") :
    runningOf 1 "inventory_pull" row = false := by
  simp [runningOf, ozon]

private theorem RowsOf.other {early : Bool} (h : RowsOf rows job early) (closed : isOpen pc = false)
    (no_reset : pc ≠ .resetOzonRuns) : RowsOf (runsAfter pc r rows) job early := by
  unfold runsAfter
  split
  · cases pc
    case resetPullRuns => exact h.update_missed (fun _ => rfl) pull_rows_missed
    case resetOzonRuns => exact absurd rfl no_reset
    case abandonOld | insertJob | failRefusedJob | finishJob | failJob => cases closed
    all_goals exact h
  · exact h

private theorem RowsOf.own (h : RowsOf rows job (unstarted pc)) (stays : isOpen pc = true)
    (open_still : finishes pc = false) (carries : ∀ carried, carriedJob pc = some carried →
      carried = job) {later : Bool} (order : later = true → ∃ job, pc = .abandonOld job) :
    RowsOf (runsAfter pc r rows) job later := by
  have no_later : (∀ job, pc ≠ .abandonOld job) → later = false := by
    intro other
    cases later with
    | false => rfl
    | true =>
        obtain ⟨job, same⟩ := order rfl
        exact absurd same (other job)
  cases pc
  case abandonOld carried =>
    have kept : RowsOf (runsAfter (.abandonOld carried) r rows) job true := by
      unfold runsAfter
      split
      · exact h.update_unstarted fun _ => rfl
      · exact h
    cases later with
    | true => exact kept
    | false => exact kept.weaken
  case insertJob carried =>
    rw [no_later (by simp), carries carried rfl] at *
    unfold runsAfter
    split
    · exact h.insert
    · exact h.weaken
  case failRefusedJob | finishJob | failJob => cases open_still
  case resetPullRuns | resetOzonRuns => cases stays
  all_goals
    rw [no_later (by simp)]
    simpa [runsAfter, unstarted] using h

end Rows

section Owner

variable {conf : Conf} {i : Nat} {s s' : Shared} {p q : Proc} {r : Reply}

private theorem OwnsJob.stepped (step : (service conf).step i s p.1 r = some (s', q.1))
    (past : q.2 = p.2 ++ [(p.1, r)]) (owns : isOpen p.1 = true → OwnsJob s p)
    (fresh : p.1 = .startJob → ∀ row ∈ s.syncRuns, row.jobId ≠ drawnJob r)
    (stays : isOpen q.1 = true) : OwnsJob s' q := by
  obtain ⟨rows_after, job_after⟩ := step_history step
  rcases open_step step stays with ⟨draws, lands⟩ | ⟨was_open, unfinished, carried, order⟩
  · refine ⟨drawnJob r, ?_, ?_, ?_, ?_⟩
    · rw [past, ownJob_snoc, if_pos draws]
    · rw [job_after, draws]
      rfl
    · intro named held
      rw [lands] at held
      exact (Option.some.inj held).symm
    · rw [rows_after, draws, lands]
      have none_yet := rowsOf_fresh (fresh draws)
      simpa [runsAfter, unstarted] using none_yet
  · obtain ⟨job, own, shared, carries, rows⟩ := owns was_open
    have not_draw : p.1 ≠ .startJob := by
      intro draws
      rw [draws] at was_open
      cases was_open
    have not_reset : p.1 ≠ .resetJob := by
      intro reset
      rw [reset] at was_open
      cases was_open
    refine ⟨job, ?_, ?_, ?_, ?_⟩
    · rw [past, ownJob_snoc, if_neg not_draw, own]
    · rw [job_after, jobAfter_other not_draw not_reset, shared]
    · intro named held
      rcases carried named held with before | read
      · exact carries named before
      · exact read.trans shared
    · rw [rows_after]
      exact rows.own was_open unfinished carries order

private theorem OwnsJob.beside {pc pc' : Pc} (owns : OwnsJob s p)
    (step : (service conf).step i s pc r = some (s', pc')) (closed : isOpen pc = false)
    (not_draw : pc ≠ .startJob) (not_reset : pc ≠ .resetJob) (not_abandon : pc ≠ .resetOzonRuns) :
    OwnsJob s' p := by
  obtain ⟨rows_after, job_after⟩ := step_history step
  obtain ⟨job, own, shared, carries, rows⟩ := owns
  refine ⟨job, own, ?_, carries, ?_⟩
  · rw [job_after, jobAfter_other not_draw not_reset, shared]
  · rw [rows_after]
    exact rows.other closed not_abandon

end Owner

theorem Apart.spawn {conf : Conf} {c : Config Shared Proc} {p : Proc} (apart : Apart c)
    (entry : (service conf).recording.entry p = true) :
    Apart ⟨c.shared, c.procs ++ [p]⟩ := by
  have closed : isOpen p.1 = false := by
    obtain ⟨call, -⟩ := recording_entry entry
    generalize p.1 = pc at call
    cases pc <;> first | rfl | cases call
  refine ⟨by rw [countP_snoc, closed]; exact apart.single, ?_⟩
  intro j p' at_j stays
  rcases getElem?_snoc_cases at_j with old | rfl
  · exact apart.owned j p' old stays
  · rw [closed] at stays
    cases stays

private theorem Apart.single_act {conf : Conf} {c : Config Shared Proc} {i : Nat} {p q : Proc}
    {r : Reply} {s' : Shared} (apart : Apart c) (at_i : c.procs[i]? = some p)
    (step : (service conf).step i c.shared p.1 r = some (s', q.1))
    (alone : p.1 = .startJob → noneOpen c = true) :
    (c.procs.set i q).countP (fun p => isOpen p.1) ≤ 1 := by
  have counted := countP_set_add (f := fun p : Proc => isOpen p.1) (q := q) at_i
  have single := apart.single
  cases opened : isOpen q.1 with
  | false =>
      rw [opened, Bool.toNat_false] at counted
      omega
  | true =>
      rcases open_step step opened with ⟨draws, -⟩ | ⟨was_open, -⟩
      · have none_before := noneOpen_iff.mp (alone draws)
        have zero : c.procs.countP (fun p => isOpen p.1) = 0 := by
          rw [List.countP_eq_zero]
          intro other mem
          obtain ⟨j, at_j⟩ := List.mem_iff_getElem?.mp mem
          simp [none_before j other at_j]
        rw [zero, opened] at counted
        simp only [Bool.toNat_true] at counted
        omega
      · rw [opened, was_open] at counted
        omega

theorem Apart.next {conf : Conf} {c d : Config Shared Proc} {l : Label Proc Reply}
    (apart : Apart c) (guard : SyncsApart c l)
    (moved : (service conf).recording.next c l = some d) : Apart d := by
  rcases next_cases moved with ⟨p, rfl, entry, rfl⟩ | ⟨i, r, p, s', q, rfl, at_i, stepped, rfl⟩
  · exact apart.spawn entry
  · obtain ⟨step, past⟩ := recording_step stepped
    obtain ⟨trigger_guard, reset_guard⟩ := guard i r p rfl at_i
    refine ⟨apart.single_act at_i step fun draws => (trigger_guard draws).1, ?_⟩
    intro j p' at_j stays
    rcases getElem?_set_cases at_j with ⟨rfl, rfl⟩ | ⟨same, at_j⟩
    · exact OwnsJob.stepped step past (apart.owned i _ at_i) (fun draws => (trigger_guard draws).2)
        stays
    · -- another call is open, so the one that stepped is not
      have closed : isOpen p.1 = false := by
        cases opened : isOpen p.1 with
        | false => rfl
        | true => exact absurd (eq_of_countP_le_one apart.single at_i at_j opened stays) same
      have still_open : noneOpen c ≠ true := by
        intro none_open
        rw [noneOpen_iff.mp none_open j p' at_j] at stays
        cases stays
      have not_draw : p.1 ≠ .startJob := fun draws => still_open (trigger_guard draws).1
      have not_reset : p.1 ≠ .resetJob := fun reset => still_open (reset_guard (Or.inr reset))
      have not_abandon : p.1 ≠ .resetOzonRuns :=
        fun reset => still_open (reset_guard (Or.inl reset))
      exact (apart.owned j p' at_j stays).beside step closed not_draw not_reset not_abandon

/-- What a step may do to the rows of the run history. -/
structure KeepsRows (c d : Config Shared Proc) (l : Label Proc Reply) : Prop where
  /-- A call that closes its row changes at most the one row of the job it drew. -/
  own : ∀ i r p, l = .act i r → c.procs[i]? = some p → finishes p.1 = true →
    ∀ (k : Nat) (row : SyncRun), c.shared.syncRuns[k]? = some row →
      d.shared.syncRuns[k]? ≠ some row →
      ownJob p.2 = some row.jobId ∧
        ∀ (k' : Nat) (row' : SyncRun), c.shared.syncRuns[k']? = some row' →
          row'.jobId = row.jobId → k' = k
  /-- A closed row keeps its status. -/
  final : ∀ (k : Nat) (row : SyncRun), c.shared.syncRuns[k]? = some row → row.source = "ozon" →
    row.status ≠ .running →
    ∃ row', d.shared.syncRuns[k]? = some row' ∧ row'.status = row.status

private theorem apart_reach {conf : Conf} {s₀ : Shared} {c : Config Shared Proc}
    (reach : Reach (service conf).recording SyncsApart ⟨s₀, []⟩ c) : Apart c :=
  reach.invariant ⟨by simp, fun i p at_i => by simp at at_i⟩
    fun _ _ _ apart guard moved => apart.next guard moved

private theorem finish_changed {pc : Pc} {r : Reply} {rows : List SyncRun} {k : Nat} {row : SyncRun}
    (ends : finishes pc = true) (at_k : rows[k]? = some row)
    (changed : (runsAfter pc r rows)[k]? ≠ some row) : carriedJob pc = some row.jobId := by
  unfold runsAfter at changed
  split at changed
  · cases pc
    case failRefusedJob | finishJob | failJob =>
      have hit := updateWhere_changed at_k changed
      simp only [ofJob, decide_eq_true_eq] at hit
      rw [carriedJob, hit.2.2]
    all_goals cases ends
  · exact absurd at_k changed

private theorem open_of_finishes {pc : Pc} (ends : finishes pc = true) : isOpen pc = true := by
  cases pc <;> first | rfl | cases ends

private theorem closed_row_kept {pc : Pc} {r : Reply} {rows : List SyncRun} {k : Nat}
    {row : SyncRun} (goes_on : finishes pc = false) (at_k : rows[k]? = some row)
    (closed : row.status ≠ .running) : (runsAfter pc r rows)[k]? = some row := by
  unfold runsAfter
  split
  · cases pc
    case abandonOld | resetPullRuns | resetOzonRuns => exact abandonRunning_closed _ at_k closed
    case insertJob => exact getElem?_snoc_kept at_k
    case failRefusedJob | finishJob | failJob => cases goes_on
    all_goals exact at_k
  · exact at_k

/-- The job whose row a call is about to close is its own, and it has one row at most. -/
private theorem Apart.closing {c : Config Shared Proc} (apart : Apart c) {i : Nat} {p : Proc}
    {r : Reply} (at_i : c.procs[i]? = some p) (ends : finishes p.1 = true) {k : Nat} {row : SyncRun}
    (at_k : c.shared.syncRuns[k]? = some row)
    (changed : (runsAfter p.1 r c.shared.syncRuns)[k]? ≠ some row) :
    ownJob p.2 = some row.jobId ∧ RowsOf c.shared.syncRuns row.jobId (unstarted p.1) := by
  obtain ⟨job, own, -, carries, rows⟩ := apart.owned i p at_i (open_of_finishes ends)
  have same := carries _ (finish_changed ends at_k changed)
  exact ⟨same ▸ own, same ▸ rows⟩

theorem Apart.keepsRows {conf : Conf} {c d : Config Shared Proc} {l : Label Proc Reply}
    (apart : Apart c) (guard : SyncsApart c l)
    (moved : (service conf).recording.next c l = some d) : KeepsRows c d l := by
  rcases next_cases moved with ⟨p, rfl, entry, rfl⟩ | ⟨i, r, p, s', q, rfl, at_i, stepped, rfl⟩
  · exact ⟨(fun _ _ _ label => nomatch label), fun k row at_k _ _ => ⟨row, at_k, rfl⟩⟩
  · obtain ⟨rows_after, -⟩ := step_history (recording_step stepped).1
    constructor
    · intro i' r' p' label at_i' ends k row at_k changed
      cases label
      obtain rfl := Option.some.inj (at_i.symm.trans at_i')
      simp only [rows_after] at changed
      obtain ⟨own, rows⟩ := apart.closing at_i ends at_k changed
      refine ⟨own, fun k' row' at_k' same => ?_⟩
      exact eq_of_countP_le_one (f := fun other : SyncRun => decide (other.jobId = row.jobId))
        (rows.count.trans (Bool.toNat_le _)) at_k' at_k (by simpa using same) (by simp)
    · intro k row at_k _ closed
      simp only [rows_after]
      cases ends : finishes p.1 with
      | false => exact ⟨row, closed_row_kept ends at_k closed, rfl⟩
      | true =>
          by_cases changed : (runsAfter p.1 r c.shared.syncRuns)[k]? = some row
          · exact ⟨row, changed, rfl⟩
          · obtain ⟨-, rows⟩ := apart.closing at_i ends at_k changed
            exact absurd (rows.running row (List.mem_of_getElem? at_k) rfl).2 closed

/-- In every run whose triggered syncs do not overlap with each other or with a reset, the end of a
run changes only the row of its own trigger, and a closed row of `ozon` stays closed as it is. -/
theorem job_rows_kept (conf : Conf) (s₀ : Shared) (c d : Config Shared Proc) (l : Label Proc Reply)
    (reach : Reach (service conf).recording SyncsApart ⟨s₀, []⟩ c) (guard : SyncsApart c l)
    (moved : (service conf).recording.next c l = some d) : KeepsRows c d l :=
  (apart_reach reach).keepsRows guard moved

section Sample

def steps (i n : Nat) (r : Reply) : List (Label Proc Reply) := List.replicate n (.act i r)

def emptyListing : Reply where
  http := { statusCode := 200, body := .ok (.object []) }

def startedRun (i micros : Nat) : List (Label Proc Reply) :=
  .spawn (.checkShutdown, []) :: steps i 12 { micros := micros }

/-- A run up to the statement that closes its row, with a reset and a second trigger on the way. -/
def overtakenRun : List (Label Proc Reply) :=
  startedRun 0 1 ++ .spawn (.resetPullRuns, []) :: steps 1 7 {} ++
    .spawn (.checkShutdown, []) :: steps 2 7 { micros := 2 } ++ steps 0 5 emptyListing

def closesOther (c d : Config Shared Proc) : Bool :=
  match c.procs[0]?, c.shared.syncRuns[1]? with
  | some p, some row => finishes p.1 && decide (d.shared.syncRuns[1]? ≠ some row) &&
      decide (ownJob p.2 ≠ some row.jobId)
  | _, _ => false

private theorem not_keepsRows {c d : Config Shared Proc} {r : Reply}
    (closes : closesOther c d = true) : ¬ KeepsRows c d (.act 0 r) := by
  intro keeps
  unfold closesOther at closes
  split at closes
  · rename_i p row at_0 at_1
    simp only [Bool.and_eq_true, decide_eq_true_eq] at closes
    exact closes.2 (keeps.own 0 r p rfl at_0 closes.1.1 1 row at_1 closes.1.2).1
  · cases closes

/-- After a reset and a second trigger, the end of the first run closes the row of the second. -/
theorem other_row_closed :
    ∃ c d, Reach (service { pageSize := 100 }).recording anyLabel ⟨{}, []⟩ c ∧
      (service { pageSize := 100 }).recording.next c (.act 0 {}) = some d ∧
      ¬ KeepsRows c d (.act 0 {}) := by
  obtain ⟨c, d, reach, moved, closes⟩ := reach_next_of_run_test
    (M := (service { pageSize := 100 }).recording) (G := anyLabel) (g := fun _ _ => true)
    (c := ⟨{}, []⟩) overtakenRun (.act 0 {}) closesOther
    (fun _ _ _ => trivial) (by decide)
  exact ⟨c, d, reach, moved, not_keepsRows closes⟩

def syncsApart (c : Config Shared Proc) : Label Proc Reply → Bool
  | .spawn _ => true
  | .act i r =>
      match c.procs[i]? with
      | none => true
      | some p =>
          (p.1 ≠ .startJob ||
            noneOpen c && c.shared.syncRuns.all fun row => row.jobId ≠ drawnJob r) &&
          ((p.1 ≠ .resetOzonRuns && p.1 ≠ .resetJob) || noneOpen c)

private theorem syncsApart_guard (c : Config Shared Proc) (l : Label Proc Reply)
    (passed : syncsApart c l = true) : SyncsApart c l := by
  rintro i r p rfl at_i
  simp only [syncsApart, at_i] at passed
  simp only [Bool.and_eq_true, Bool.or_eq_true, List.all_eq_true, decide_eq_true_eq] at passed
  obtain ⟨draws, resets⟩ := passed
  refine ⟨fun at_start => ?_, fun at_reset => ?_⟩
  · exact draws.resolve_left fun other => other at_start
  · rcases resets with ⟨no_runs, no_job⟩ | none_open
    · rcases at_reset with runs | job
      · exact absurd runs no_runs
      · exact absurd job no_job
    · exact none_open

theorem job_rows_kept_alone :
    ∃ c d, Reach (service { pageSize := 100 }).recording SyncsApart ⟨{}, []⟩ c ∧
      (service { pageSize := 100 }).recording.next c (.act 0 {}) = some d ∧
      KeepsRows c d (.act 0 {}) := by
  obtain ⟨c, d, reach, moved, passed⟩ := reach_next_of_run_test
    (M := (service { pageSize := 100 }).recording) (G := SyncsApart) (g := syncsApart)
    (c := ⟨{}, []⟩) (startedRun 0 1 ++ steps 0 5 emptyListing) (.act 0 {})
    (fun c _ => syncsApart c (.act 0 {})) syncsApart_guard (by decide)
  exact ⟨c, d, reach, moved, job_rows_kept { pageSize := 100 } {} c d (.act 0 {}) reach
    (syncsApart_guard c _ passed) moved⟩

end Sample

end Scand.Ozon.JobRows
