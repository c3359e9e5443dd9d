/- path: Scand/Store/Unfinished
   layer: results
   digest: What find_unfinished returns after any history of the checkpoints: the interrupted job that was
   started last, and only until the next start. -/

import Scand.Store.Checkpoints

set_option autoImplicit false
set_option relaxedAutoImplicit false

namespace Scand.Store.Unfinished

open Scand.Foundation.RowUpdate
open Scand.Store.Checkpoints

inductive Call
  | start (jobId : String)
  | update (jobId : String) (u : CheckpointUpdate)
  | finish (jobId : String) (status : FinalStatus) (error : String)
  | abandonRunning (reason : String)
  | markInterrupted (reason : String)

/-- A refused transaction leaves the table as it was. -/
def Call.apply (tenantId : Int) (t : CheckpointTable) : Call → CheckpointTable
  | .start jobId =>
      match Checkpoints.start jobId tenantId t with
      | .ok u => u
      | .error _ => t
  | .update jobId u => Checkpoints.update jobId u tenantId t
  | .finish jobId status error => Checkpoints.finish jobId status error tenantId t
  | .abandonRunning reason => Checkpoints.abandonRunning reason tenantId t
  | .markInterrupted reason => Checkpoints.markInterrupted reason tenantId t

def table (calls : List (Int × Call)) : CheckpointTable :=
  calls.foldl (fun t call => call.2.apply call.1 t) CheckpointTable.empty

/-- The job that a tenant may have open. -/
inductive Life
  | idle
  | running (jobId : String)
  | interrupted (jobId : String)
  deriving DecidableEq

namespace Life

def step : Life → Call → Life
  | _, .start jobId => .running jobId
  | life, .update _ _ => life
  | .running open_, .finish jobId _ _ => if open_ = jobId then .idle else .running open_
  | .interrupted open_, .finish jobId _ _ => if open_ = jobId then .idle else .interrupted open_
  | .idle, .finish _ _ _ => .idle
  | _, .abandonRunning _ => .idle
  | .running open_, .markInterrupted _ => .interrupted open_
  | life, .markInterrupted _ => life

def rows : Life → List (String × CheckpointStatus)
  | .idle => []
  | .running jobId => [(jobId, .running)]
  | .interrupted jobId => [(jobId, .interrupted)]

end Life

/-- The life of a tenant's jobs: the calls of the other tenants have no part in it. -/
def life (tenantId : Int) (calls : List (Int × Call)) : Life :=
  (calls.filter fun call => call.1 = tenantId).foldl (fun life call => life.step call.2) .idle

def openRow (tenantId : Int) (row : InventoryCheckpoint) : Option (String × CheckpointStatus) :=
  if unfinishedOf tenantId row then some (row.jobId, row.status) else none

def openRows (tenantId : Int) (t : CheckpointTable) : List (String × CheckpointStatus) :=
  t.rows.filterMap (openRow tenantId)

def marked (row : String × CheckpointStatus) : String × CheckpointStatus :=
  if row.2 = .running then (row.1, .interrupted) else row

section Statements

variable {tenantId other : Int} {t : CheckpointTable} {hit : InventoryCheckpoint → Bool}
  {change : InventoryCheckpoint → InventoryCheckpoint}

theorem openRows_update {g : String × CheckpointStatus → Option (String × CheckpointStatus)}
    (pointwise : ∀ row,
      openRow tenantId (if hit row then change row else row) = (openRow tenantId row).bind g)
    (rows : List InventoryCheckpoint) :
    (updateWhere hit change rows).filterMap (openRow tenantId) =
      (rows.filterMap (openRow tenantId)).filterMap g := by
  simp only [updateWhere, List.filterMap_map, List.filterMap_filterMap]
  congr 1
  funext row
  exact pointwise row

theorem openRows_kept
    (pointwise : ∀ row, hit row = true → openRow tenantId (change row) = openRow tenantId row)
    (rows : List InventoryCheckpoint) :
    (updateWhere hit change rows).filterMap (openRow tenantId) =
      rows.filterMap (openRow tenantId) := by
  rw [openRows_update (g := some), List.filterMap_some]
  intro row
  rw [Option.bind_fun_some]
  split
  · exact pointwise row ‹_›
  · rfl

theorem openRow_other (apart : other ≠ tenantId) {row changed : InventoryCheckpoint}
    (tenant : row.tenantId = other) (kept : changed.tenantId = row.tenantId) :
    openRow tenantId changed = openRow tenantId row := by
  have old : row.tenantId ≠ tenantId := tenant ▸ apart
  have new : changed.tenantId ≠ tenantId := kept ▸ old
  simp [openRow, unfinishedOf, old, new]

theorem openRows_closed (closes : ∀ row, (change row).status = .failed)
    (rows : List InventoryCheckpoint) :
    (updateWhere (unfinishedOf tenantId) change rows).filterMap (openRow tenantId) = [] := by
  rw [openRows_update (g := fun _ => none), List.filterMap_none]
  intro row
  rw [Option.bind_fun_none]
  split
  · simp [openRow, unfinishedOf, closes row]
  · rename_i missed
    simp [openRow, missed]

theorem openRows_supersede : openRows tenantId (supersede tenantId t) = [] :=
  openRows_closed (fun _ => rfl) t.rows

theorem openRows_abandon (reason : String) :
    openRows tenantId (abandonRunning reason tenantId t) = [] :=
  openRows_closed (fun _ => rfl) t.rows

theorem openRows_updated (tenant : Int) (jobId : String) (u : CheckpointUpdate) :
    openRows tenantId (Checkpoints.update jobId u tenant t) = openRows tenantId t := by
  refine openRows_kept ?_ t.rows
  intro row _
  rfl

private theorem openRow_finish (jobId : String) (status : FinalStatus) (error : String)
    (row : InventoryCheckpoint) :
    openRow tenantId (if ofJob tenantId jobId row then
        { row with status := status.status, error := some error } else row) =
      (openRow tenantId row).bind (Option.guard fun open_ => open_.1 ≠ jobId) := by
  have closed : status.status ≠ .running ∧ status.status ≠ .interrupted := by
    cases status <;> simp [FinalStatus.status]
  by_cases tenant : row.tenantId = tenantId
  · by_cases job : row.jobId = jobId
    · cases row_status : row.status <;>
        simp [openRow, ofJob, tenant, job, unfinishedOf, closed, row_status, Option.guard]
    · cases row_status : row.status <;>
        simp [openRow, ofJob, job, unfinishedOf, row_status, tenant, Option.guard]
  · simp [openRow, ofJob, tenant, unfinishedOf]

theorem openRows_finish (jobId : String) (status : FinalStatus) (error : String) :
    openRows tenantId (finish jobId status error tenantId t) =
      (openRows tenantId t).filter fun row => row.1 ≠ jobId := by
  rw [← List.filterMap_eq_filter]
  exact openRows_update (openRow_finish jobId status error) t.rows

private theorem openRow_mark (reason : String) (row : InventoryCheckpoint) :
    openRow tenantId (if runningOf tenantId row then
        { row with
          status := .interrupted
          error := some ((row.error.filter (· ≠ "")).getD reason) } else row) =
      (openRow tenantId row).bind fun open_ => some (marked open_) := by
  by_cases tenant : row.tenantId = tenantId
  · cases status : row.status <;> simp [openRow, runningOf, unfinishedOf, tenant, status, marked]
  · simp [openRow, runningOf, unfinishedOf, tenant]

theorem openRows_mark (reason : String) :
    openRows tenantId (markInterrupted reason tenantId t) = (openRows tenantId t).map marked := by
  rw [← List.filterMap_eq_map]
  exact openRows_update (openRow_mark reason) t.rows

theorem openRows_start (jobId : String) (tenant : Int) :
    openRows tenantId (Call.apply tenant t (.start jobId)) =
      openRows tenantId (supersede tenant t) ++
        if tenant = tenantId then [(jobId, .running)] else [] := by
  obtain ⟨u, started, -⟩ := start_ok t tenant jobId
  simp only [Call.apply, started]
  unfold Checkpoints.start CheckpointTable.insert at started
  split at started
  · cases started
  · cases started
    simp only [openRows, List.filterMap_append]
    congr 1
    by_cases mine : tenant = tenantId <;> simp [openRow, unfinishedOf, mine]

end Statements

section Histories

variable {tenantId : Int} {t : CheckpointTable} {current : Life}

theorem apply_own (refined : openRows tenantId t = current.rows) (call : Call) :
    openRows tenantId (call.apply tenantId t) = (current.step call).rows := by
  cases call with
  | start jobId => simp [openRows_start, openRows_supersede, Life.step, Life.rows]
  | update jobId u =>
      rw [Call.apply, openRows_updated, refined]
      rfl
  | finish jobId status error =>
      rw [Call.apply, openRows_finish, refined]
      cases current with
      | idle => rfl
      | running open_ => by_cases same : open_ = jobId <;> simp [Life.rows, Life.step, same]
      | interrupted open_ => by_cases same : open_ = jobId <;> simp [Life.rows, Life.step, same]
  | abandonRunning reason =>
      rw [Call.apply, openRows_abandon]
      cases current <;> rfl
  | markInterrupted reason =>
      rw [Call.apply, openRows_mark, refined]
      cases current <;> rfl

theorem apply_other {other : Int} (apart : other ≠ tenantId) (call : Call) :
    openRows tenantId (call.apply other t) = openRows tenantId t := by
  have theirs : ∀ {hit : InventoryCheckpoint → Bool}
      {change : InventoryCheckpoint → InventoryCheckpoint},
      (∀ row, hit row = true → row.tenantId = other) → (∀ row, (change row).tenantId = row.tenantId) →
      (updateWhere hit change t.rows).filterMap (openRow tenantId) = openRows tenantId t :=
    fun hits kept => openRows_kept (fun row met => openRow_other apart (hits row met) (kept row)) t.rows
  cases call with
  | start jobId =>
      rw [openRows_start, if_neg apart, List.append_nil]
      exact theirs (fun row met => (of_decide_eq_true met).1) fun _ => rfl
  | update jobId u => exact openRows_updated other jobId u
  | finish jobId status error => exact theirs (fun row met => (of_decide_eq_true met).1) fun _ => rfl
  | abandonRunning reason => exact theirs (fun row met => (of_decide_eq_true met).1) fun _ => rfl
  | markInterrupted reason => exact theirs (fun row met => (of_decide_eq_true met).1) fun _ => rfl

theorem table_snoc (calls : List (Int × Call)) (call : Int × Call) :
    table (calls ++ [call]) = call.2.apply call.1 (table calls) := by
  simp [table]

theorem life_own (calls : List (Int × Call)) (call : Call) :
    life tenantId (calls ++ [(tenantId, call)]) = (life tenantId calls).step call := by
  simp [life]

theorem life_other {other : Int} (apart : other ≠ tenantId) (calls : List (Int × Call))
    (call : Call) : life tenantId (calls ++ [(other, call)]) = life tenantId calls := by
  simp [life, apart]

/-- The table refines the life of the tenant's jobs. -/
theorem table_refines (tenantId : Int) (calls : List (Int × Call)) :
    openRows tenantId (table calls) = (life tenantId calls).rows := by
  induction calls using List.reverseRecOn with
  | nil => rfl
  | append_singleton calls call ih =>
      obtain ⟨tenant, call⟩ := call
      rw [table_snoc]
      by_cases mine : tenant = tenantId
      · subst mine
        rw [life_own]
        exact apply_own ih call
      · rw [life_other mine, apply_other mine, ih]

def started : Call → Option String
  | .start jobId => some jobId
  | _ => none

def lastStarted (tenantId : Int) (calls : List (Int × Call)) : Option String :=
  (calls.filterMap fun call => if call.1 = tenantId then started call.2 else none).getLast?

/-- A call after which a job is not to be resumed any more. -/
def ends (jobId : String) : Call → Bool
  | .start _ | .abandonRunning _ => true
  | .finish other _ _ => other = jobId
  | _ => false

/-- The job that was started last was still running at a mark, and since then no call ended it. -/
def InterruptedSince (tenantId : Int) (calls : List (Int × Call)) : Prop :=
  ∃ before reason after jobId, calls = before ++ (tenantId, .markInterrupted reason) :: after ∧
    lastStarted tenantId before = some jobId ∧
    (∃ row ∈ (table before).rows, runningOf tenantId row = true ∧ row.jobId = jobId) ∧
    ∀ call ∈ after, call.1 = tenantId → ends jobId call.2 = false

theorem life_started {jobId : String} (calls : List (Int × Call))
    (open_ : life tenantId calls = .running jobId ∨ life tenantId calls = .interrupted jobId) :
    lastStarted tenantId calls = some jobId := by
  induction calls using List.reverseRecOn with
  | nil => rcases open_ with open_ | open_ <;> cases open_
  | append_singleton calls call ih =>
      obtain ⟨tenant, call⟩ := call
      by_cases mine : tenant = tenantId
      · subst mine
        rw [life_own] at open_
        cases before : life tenant calls <;> cases call <;> rw [before] at open_ ih <;>
          simp only [Life.step] at open_ <;> (try split at open_) <;>
          simp_all [lastStarted, started]
      · rw [life_other mine] at open_
        simpa [lastStarted, mine] using ih open_

theorem mem_openRows {entry : String × CheckpointStatus} :
    entry ∈ openRows tenantId t ↔
      ∃ row ∈ t.rows, unfinishedOf tenantId row = true ∧ (row.jobId, row.status) = entry := by
  simp only [openRows, openRow, List.mem_filterMap, Option.ite_none_right_eq_some, Option.some.injEq]

theorem running_row_iff (jobId : String) (calls : List (Int × Call)) :
    (∃ row ∈ (table calls).rows, runningOf tenantId row = true ∧ row.jobId = jobId) ↔
      life tenantId calls = .running jobId := by
  have rows : (jobId, CheckpointStatus.running) ∈ (life tenantId calls).rows ↔
      life tenantId calls = .running jobId := by
    cases life tenantId calls <;> simp [Life.rows, eq_comm]
  rw [← rows, ← table_refines, mem_openRows]
  refine exists_congr fun row => and_congr_right fun _ => ?_
  simp only [runningOf, unfinishedOf, decide_eq_true_eq, Prod.mk.injEq]
  constructor
  · rintro ⟨⟨tenant, running⟩, job⟩
    exact ⟨⟨tenant, Or.inl running⟩, job, running⟩
  · rintro ⟨⟨tenant, -⟩, job, running⟩
    exact ⟨⟨tenant, running⟩, job⟩

theorem interrupted_row_iff (calls : List (Int × Call)) :
    (∃ row ∈ (table calls).rows, interruptedOf tenantId row = true) ↔
      ∃ jobId, life tenantId calls = .interrupted jobId := by
  have rows : ∀ jobId, (jobId, CheckpointStatus.interrupted) ∈ (life tenantId calls).rows ↔
      life tenantId calls = .interrupted jobId := by
    intro jobId
    cases life tenantId calls <;> simp [Life.rows, eq_comm]
  simp only [← rows, ← table_refines, mem_openRows]
  constructor
  · rintro ⟨row, stored, met⟩
    obtain ⟨tenant, interrupted⟩ := of_decide_eq_true met
    exact ⟨row.jobId, row, stored, by simp [unfinishedOf, tenant, interrupted], by rw [interrupted]⟩
  · rintro ⟨jobId, row, stored, open_, same⟩
    have tenant := (of_decide_eq_true open_).1
    have interrupted := (Prod.mk.inj same).2
    exact ⟨row, stored, by simp [interruptedOf, tenant, interrupted]⟩

theorem life_append (before after : List (Int × Call)) :
    life tenantId (before ++ after) = (after.filter fun call => call.1 = tenantId).foldl
      (fun life call => life.step call.2) (life tenantId before) := by
  simp [life, List.foldl_append]

theorem step_interrupted {jobId : String} {call : Call} :
    current.step call = .interrupted jobId ↔
      (current = .running jobId ∧ ∃ reason, call = .markInterrupted reason) ∨
        (current = .interrupted jobId ∧ ends jobId call = false) := by
  cases call with
  | start other => simp [Life.step, ends]
  | update other u => cases current <;> simp [Life.step, ends]
  | finish other status error =>
      cases current with
      | idle => simp [Life.step]
      | running open_ => by_cases same : open_ = other <;> simp [Life.step, same]
      | interrupted open_ =>
          by_cases same : open_ = other
          · subst same
            simp [Life.step, ends, eq_comm]
          · simp only [Life.step, if_neg same, ends, decide_eq_false_iff_not, reduceCtorEq,
              false_and, false_or, Life.interrupted.injEq]
            constructor
            · rintro rfl
              exact ⟨rfl, Ne.symm same⟩
            · exact fun both => both.1
  | abandonRunning reason => cases current <;> simp [Life.step, ends]
  | markInterrupted reason => cases current <;> simp [Life.step, ends]

theorem interrupted_stays {jobId : String} {after : List (Int × Call)}
    (unended : ∀ call ∈ after, ends jobId call.2 = false) :
    after.foldl (fun life call => Life.step life call.2) (.interrupted jobId) =
      .interrupted jobId := by
  induction after with
  | nil => rfl
  | cons call after ih =>
      have same : (Life.interrupted jobId).step call.2 = .interrupted jobId :=
        step_interrupted.mpr (Or.inr ⟨rfl, unended call List.mem_cons_self⟩)
      rw [List.foldl_cons, same]
      exact ih fun call mem => unended call (List.mem_cons_of_mem _ mem)

theorem interruptedSince_of_life {jobId : String} (calls : List (Int × Call))
    (interrupted : life tenantId calls = .interrupted jobId) :
    ∃ before reason after, calls = before ++ (tenantId, .markInterrupted reason) :: after ∧
      life tenantId before = .running jobId ∧
      ∀ call ∈ after, call.1 = tenantId → ends jobId call.2 = false := by
  induction calls using List.reverseRecOn with
  | nil => cases interrupted
  | append_singleton calls call ih =>
      obtain ⟨tenant, call⟩ := call
      -- the call leaves an earlier mark standing, or it is the mark
      have later : life tenantId calls = .interrupted jobId →
          (tenant = tenantId → ends jobId call = false) →
          ∃ before reason after,
            calls ++ [(tenant, call)] = before ++ (tenantId, .markInterrupted reason) :: after ∧
            life tenantId before = .running jobId ∧
            ∀ call ∈ after, call.1 = tenantId → ends jobId call.2 = false := by
        intro earlier unended
        obtain ⟨before, reason, after, rfl, running, rest⟩ := ih earlier
        refine ⟨before, reason, after ++ [(tenant, call)], by simp, running, ?_⟩
        intro other mem
        rcases List.mem_append.mp mem with old | new
        · exact rest other old
        · rw [List.mem_singleton.mp new]
          exact unended
      by_cases mine : tenant = tenantId
      · subst mine
        rw [life_own] at interrupted
        rcases step_interrupted.mp interrupted with ⟨running, reason, rfl⟩ | ⟨earlier, unended⟩
        · exact ⟨calls, reason, [], rfl, running, by simp⟩
        · exact later earlier fun _ => unended
      · rw [life_other mine] at interrupted
        exact later interrupted fun same => absurd same mine

theorem interruptedSince_iff (calls : List (Int × Call)) :
    InterruptedSince tenantId calls ↔ ∃ jobId, life tenantId calls = .interrupted jobId := by
  constructor
  · rintro ⟨before, reason, after, jobId, rfl, -, running, unended⟩
    refine ⟨jobId, ?_⟩
    rw [List.append_cons, life_append, life_own, (running_row_iff jobId before).mp running]
    refine interrupted_stays fun call mem => ?_
    obtain ⟨listed, mine⟩ := List.mem_filter.mp mem
    exact unended call listed (of_decide_eq_true mine)
  · rintro ⟨jobId, interrupted⟩
    obtain ⟨before, reason, after, split, running, unended⟩ :=
      interruptedSince_of_life calls interrupted
    exact ⟨before, reason, after, jobId, split, life_started before (Or.inl running),
      (running_row_iff jobId before).mpr running, unended⟩

theorem findUnfinished_isSome {updatedAt : Nat → Nat} :
    (findUnfinished updatedAt tenantId t).isSome = true ↔
      ∃ row ∈ t.rows, interruptedOf tenantId row = true := by
  rw [findUnfinished, Option.isSome_map, Option.isSome_iff_ne_none, ne_eq, List.argmax_eq_none,
    List.filter_eq_nil_iff]
  simp only [Prod.forall, not_forall, exists_prop, not_not]
  constructor
  · rintro ⟨row, place, listed, met⟩
    exact ⟨row, List.fst_mem_of_mem_zipIdx listed, met⟩
  · rintro ⟨row, stored, met⟩
    obtain ⟨place, bound, rfl⟩ := List.mem_iff_getElem.mp stored
    exact ⟨_, place, List.mem_zipIdx_iff_getElem?.mpr (List.getElem?_eq_getElem bound), met⟩

end Histories

/-- After any history of calls, a tenant has at most one open row; an unfinished job is found exactly
when the job that was started last was running at a mark and no call ended it since; and right after a
start none is found. -/
theorem unfinished_exactly (updatedAt : Nat → Nat) (tenantId : Int) (calls : List (Int × Call)) :
    ((table calls).rows.filter (unfinishedOf tenantId)).length ≤ 1 ∧
      ((findUnfinished updatedAt tenantId (table calls)).isSome = true ↔
        InterruptedSince tenantId calls) ∧
      ∀ jobId, findUnfinished updatedAt tenantId
        (table (calls ++ [(tenantId, .start jobId)])) = none := by
  refine ⟨?_, ?_, fun jobId => ?_⟩
  · have refined := congrArg List.length (table_refines tenantId calls)
    have same : (openRows tenantId (table calls)).length =
        ((table calls).rows.filter (unfinishedOf tenantId)).length := by
      rw [openRows, ← List.countP_eq_length_filter, List.length_filterMap_eq_countP]
      congr 1
      funext row
      unfold openRow
      split <;> simp_all
    rw [← same, refined]
    cases life tenantId calls <;> simp [Life.rows]
  · rw [findUnfinished_isSome, interrupted_row_iff, interruptedSince_iff]
  · rw [← Option.not_isSome_iff_eq_none, findUnfinished_isSome, interrupted_row_iff, life_own]
    rintro ⟨other, interrupted⟩
    cases before : life tenantId calls <;> rw [before] at interrupted <;> cases interrupted

end Scand.Store.Unfinished
