/- path: Scand/Store/SyncRuns
   layer: code model
   digest: SyncRunsRepository over the rows of sync_runs, and what each of its statements changes. -/

import Scand.Foundation.RowUpdate

set_option autoImplicit false
set_option relaxedAutoImplicit false

namespace Scand.Store.SyncRuns

open Scand.Foundation.RowUpdate

/-- The statuses that the CHECK of the table admits. -/
inductive RunStatus
  | running | done | failed | interrupted
  deriving DecidableEq

structure RunCounts where
  accepted : Int := 0
  migrated : Int := 0
  conflicts : Int := 0
  warehouses : Int := 0
  stocks : Int := 0
  costs : Int := 0
  stocksAccepted : Int := 0
  costsAccepted : Int := 0
  deriving DecidableEq

/-- A row of `sync_runs`; its place in the table is its id, and its time stamps are left out. -/
structure SyncRun where
  tenantId : Int
  source : String
  jobId : String
  status : RunStatus
  stage : Option String := none
  counts : RunCounts := {}
  error : Option String := none
  deriving DecidableEq

/-- `COALESCE(NULLIF(old, ''), new)`. -/
def keepNonEmpty (old : Option String) (new : String) : Option String :=
  some ((old.filter (· ≠ "")).getD new)

def start (source jobId : String) (tenantId : Int) (rows : List SyncRun) : List SyncRun :=
  rows ++ [{ tenantId := tenantId, source := source, jobId := jobId, status := .running }]

def ofJob (tenantId : Int) (source jobId : String) (row : SyncRun) : Bool :=
  row.tenantId = tenantId ∧ row.source = source ∧ row.jobId = jobId

def runningOf (tenantId : Int) (source : String) (row : SyncRun) : Bool :=
  row.tenantId = tenantId ∧ row.source = source ∧ row.status = .running

/-- `finish_done`: whatever the status of the rows was. -/
def finishDone (tenantId : Int) (source jobId : String) (counts : RunCounts) :
    List SyncRun → List SyncRun :=
  updateWhere (ofJob tenantId source jobId) fun row =>
    { row with status := .done, stage := some "done", counts := counts }

/-- `finish_failed`: whatever the status of the rows was. -/
def finishFailed (tenantId : Int) (source jobId error stage : String) :
    List SyncRun → List SyncRun :=
  updateWhere (ofJob tenantId source jobId) fun row =>
    { row with status := .failed, stage := some stage, error := some error }

def abandonRunning (tenantId : Int) (source reason : String) : List SyncRun → List SyncRun :=
  updateWhere (runningOf tenantId source) fun row =>
    { row with
      status := .failed
      stage := keepNonEmpty row.stage "error"
      error := keepNonEmpty row.error reason }

/-- `mark_interrupted`: the stage stays what it was. -/
def markInterrupted (tenantId : Int) (source reason : String) : List SyncRun → List SyncRun :=
  updateWhere (runningOf tenantId source) fun row =>
    { row with
      status := .interrupted
      error := keepNonEmpty row.error reason }

def jobCount (jobId : String) (rows : List SyncRun) : Nat :=
  rows.countP fun row => row.jobId = jobId

def runningJobs (tenantId : Int) (source : String) (rows : List SyncRun) : List String :=
  (rows.filter (runningOf tenantId source)).map SyncRun.jobId

section Updates

variable {tenantId : Int} {source jobId : String} {rows : List SyncRun}

@[simp] theorem runningJobs_start :
    runningJobs tenantId source (start source jobId tenantId rows) =
      runningJobs tenantId source rows ++ [jobId] := by
  simp [runningJobs, start, runningOf]

@[simp] theorem runningJobs_abandon (reason : String) :
    runningJobs tenantId source (abandonRunning tenantId source reason rows) = [] := by
  rw [runningJobs, abandonRunning, column_updateWhere fun row => by simp [runningOf]]
  simp

theorem runningJobs_abandon_other {other : String} (apart : other ≠ source) (reason : String) :
    runningJobs tenantId source (abandonRunning tenantId other reason rows) =
      runningJobs tenantId source rows := by
  have missed : ∀ row, (runningOf tenantId source row && !runningOf tenantId other row) =
      runningOf tenantId source row := by
    intro row
    by_cases same : row.source = source <;> simp [runningOf, same, Ne.symm apart]
  rw [runningJobs, abandonRunning, column_updateWhere fun row => by simp [runningOf]]
  simp only [missed, runningJobs]

private theorem runningJobs_finish {change : SyncRun → SyncRun}
    (closes : ∀ row, (change row).status ≠ .running) :
    runningJobs tenantId source (updateWhere (ofJob tenantId source jobId) change rows) =
      (runningJobs tenantId source rows).filter (· ≠ jobId) := by
  rw [runningJobs, column_updateWhere fun row => by simp [runningOf, closes row], runningJobs,
    List.filter_map, List.filter_filter]
  congr 2
  funext row
  by_cases running : runningOf tenantId source row = true
  · have mine := of_decide_eq_true running
    simp [running, ofJob, mine.1, mine.2.1]
  · simp [running]

theorem runningJobs_finishDone (counts : RunCounts) :
    runningJobs tenantId source (finishDone tenantId source jobId counts rows) =
      (runningJobs tenantId source rows).filter (· ≠ jobId) :=
  runningJobs_finish fun _ => by simp

theorem runningJobs_finishFailed (error stage : String) :
    runningJobs tenantId source (finishFailed tenantId source jobId error stage rows) =
      (runningJobs tenantId source rows).filter (· ≠ jobId) :=
  runningJobs_finish fun _ => by simp

theorem jobCount_updateWhere {hit : SyncRun → Bool} {change : SyncRun → SyncRun}
    (kept : ∀ row, (change row).jobId = row.jobId) :
    jobCount jobId (updateWhere hit change rows) = jobCount jobId rows :=
  countP_updateWhere fun row => by rw [kept]

theorem jobCount_start {other : String} :
    jobCount jobId (start source other tenantId rows) =
      jobCount jobId rows + (decide (other = jobId)).toNat := by
  by_cases same : other = jobId <;> simp [jobCount, start, same]

theorem abandonRunning_closed (reason : String) {k : Nat} {row : SyncRun}
    (at_k : rows[k]? = some row) (closed : row.status ≠ .running) :
    (abandonRunning tenantId source reason rows)[k]? = some row := by
  have missed : runningOf tenantId source row = false := by simp [runningOf, closed]
  rw [abandonRunning, updateWhere_get at_k, missed]
  rfl

end Updates

end Scand.Store.SyncRuns
