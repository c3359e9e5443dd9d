/- path: Scand/Store/Checkpoints
   layer: code model
   digest: InventoryCheckpointRepository over the rows of inventory1c_checkpoints, and which jobs its
   statements leave running. -/

import Scand.Foundation.KeyedTable
import Scand.Foundation.RowUpdate
import Mathlib.Data.List.MinMax

set_option autoImplicit false
set_option relaxedAutoImplicit false

namespace Scand.Store.Checkpoints

open Scand.Foundation.KeyedTable (SqlError)
open Scand.Foundation.RowUpdate

inductive CheckpointStatus
  | running | done | failed | interrupted
  deriving DecidableEq

/-- A row of `inventory1c_checkpoints`, without its time stamps; its place in the table is its id. -/
structure InventoryCheckpoint where
  tenantId : Int
  jobId : String
  source : String := "inventory_pull"
  lastStage : String := "start"
  period : Option String := none
  batchId : Option String := none
  productKeys : Option (List String) := none
  offerByRef : Option (List (String × String)) := none
  productsAccepted : Int := 0
  productsMigrated : Int := 0
  productsConflicts : Int := 0
  status : CheckpointStatus := .running
  error : Option String := none
  deriving DecidableEq

def InventoryCheckpoint.isRunning (row : InventoryCheckpoint) : Bool := row.status = .running

abbrev InventoryCheckpoint.activeKey (row : InventoryCheckpoint) : Int × String :=
  (row.tenantId, row.source)

/-- The table with its partial unique index: one running row for each tenant and source. -/
structure CheckpointTable where
  rows : List InventoryCheckpoint
  active : ((rows.filter InventoryCheckpoint.isRunning).map InventoryCheckpoint.activeKey).Nodup

inductive FinalStatus
  | done | failed
  deriving DecidableEq

def FinalStatus.status : FinalStatus → CheckpointStatus
  | .done => .done
  | .failed => .failed

structure CheckpointUpdate where
  lastStage : String
  period : String := ""
  batchId : String := ""
  productKeys : List String := []
  offerByRef : List (String × String) := []
  accepted : Int := 0
  migrated : Int := 0
  conflicts : Int := 0

namespace CheckpointTable

private theorem active_nil : ((([] : List InventoryCheckpoint).filter
    InventoryCheckpoint.isRunning).map InventoryCheckpoint.activeKey).Nodup := List.nodup_nil

def empty : CheckpointTable := ⟨[], active_nil⟩

def update (t : CheckpointTable) (hit : InventoryCheckpoint → Bool)
    (change : InventoryCheckpoint → InventoryCheckpoint)
    (gains : ∀ row, (change row).isRunning = true → row.isRunning = true)
    (kept : ∀ row, (change row).activeKey = row.activeKey) : CheckpointTable where
  rows := updateWhere hit change t.rows
  active := t.active.sublist (column_updateWhere_sublist gains kept)

def insert (t : CheckpointTable) (row : InventoryCheckpoint) : Except SqlError CheckpointTable :=
  if taken : row.isRunning = true ∧
      ∃ other ∈ t.rows, other.isRunning = true ∧ other.activeKey = row.activeKey then
    .error .uniqueViolation
  else .ok ⟨t.rows ++ [row], by
    rw [List.filter_append, List.map_append]
    cases running : row.isRunning with
    | false => simpa [running] using t.active
    | true =>
        refine List.nodup_append.mpr ⟨t.active, by simp [running], ?_⟩
        intro key mem key' new same
        rw [List.filter_cons_of_pos running, List.filter_nil, List.map_singleton,
          List.mem_singleton] at new
        obtain ⟨other, stored, equal⟩ := List.mem_map.mp mem
        obtain ⟨listed, runs⟩ := List.mem_filter.mp stored
        exact taken ⟨running, other, listed, runs, equal.trans (same.trans new)⟩⟩

end CheckpointTable

def ofJob (tenantId : Int) (jobId : String) (row : InventoryCheckpoint) : Bool :=
  row.tenantId = tenantId ∧ row.jobId = jobId

def unfinishedOf (tenantId : Int) (row : InventoryCheckpoint) : Bool :=
  row.tenantId = tenantId ∧ (row.status = .running ∨ row.status = .interrupted)

def runningOf (tenantId : Int) (row : InventoryCheckpoint) : Bool :=
  row.tenantId = tenantId ∧ row.status = .running

/-- The first statement of `start`, which overwrites the error of what it closes. -/
def supersede (tenantId : Int) (t : CheckpointTable) : CheckpointTable :=
  t.update (unfinishedOf tenantId)
    (fun row => { row with status := .failed, error := some "superseded by new run" })
    (fun _ running => nomatch of_decide_eq_true running) (fun _ => rfl)

def start (jobId : String) (tenantId : Int) (t : CheckpointTable) : Except SqlError CheckpointTable :=
  (supersede tenantId t).insert { tenantId := tenantId, jobId := jobId }

/-- `update`: only a running row of the job. -/
def update (jobId : String) (u : CheckpointUpdate) (tenantId : Int) (t : CheckpointTable) :
    CheckpointTable :=
  t.update (fun row => ofJob tenantId jobId row && row.isRunning)
    (fun row => { row with
      lastStage := u.lastStage
      period := some u.period
      batchId := some u.batchId
      productKeys := some u.productKeys
      offerByRef := some u.offerByRef
      productsAccepted := u.accepted
      productsMigrated := u.migrated
      productsConflicts := u.conflicts })
    (fun _ running => running) (fun _ => rfl)

/-- `finish`: whatever the status of the row was. -/
def finish (jobId : String) (status : FinalStatus) (error : String) (tenantId : Int)
    (t : CheckpointTable) : CheckpointTable :=
  t.update (ofJob tenantId jobId)
    (fun row => { row with status := status.status, error := some error })
    (fun _ running => by cases status <;> cases of_decide_eq_true running) (fun _ => rfl)

/-- `abandon_running`: also what was interrupted. -/
def abandonRunning (reason : String) (tenantId : Int) (t : CheckpointTable) : CheckpointTable :=
  t.update (unfinishedOf tenantId)
    (fun row => { row with
      status := .failed
      error := some ((row.error.filter (· ≠ "")).getD reason) })
    (fun _ running => nomatch of_decide_eq_true running) (fun _ => rfl)

/-- `mark_interrupted`: what is running, and nothing else. -/
def markInterrupted (reason : String) (tenantId : Int) (t : CheckpointTable) : CheckpointTable :=
  t.update (runningOf tenantId)
    (fun row => { row with
      status := .interrupted
      error := some ((row.error.filter (· ≠ "")).getD reason) })
    (fun _ running => nomatch of_decide_eq_true running) (fun _ => rfl)

def interruptedOf (tenantId : Int) (row : InventoryCheckpoint) : Bool :=
  row.tenantId = tenantId ∧ row.status = .interrupted

structure UnfinishedCheckpoint where
  id : Nat
  jobId : String
  source : String
  lastStage : String
  period : String
  batchId : String
  productKeys : List String
  offerByRef : List (String × String)
  productsAccepted : Int
  productsMigrated : Int
  productsConflicts : Int
  status : CheckpointStatus
  error : String

def InventoryCheckpoint.read (row : InventoryCheckpoint) (id : Nat) : UnfinishedCheckpoint where
  id := id
  jobId := row.jobId
  source := row.source
  lastStage := row.lastStage
  period := row.period.getD ""
  batchId := row.batchId.getD ""
  productKeys := row.productKeys.getD []
  offerByRef := row.offerByRef.getD []
  productsAccepted := row.productsAccepted
  productsMigrated := row.productsMigrated
  productsConflicts := row.productsConflicts
  status := row.status
  error := row.error.getD ""

/-- `find_unfinished`: the last updated of the interrupted rows; `updatedAt` is the time stamp of the
row at a place. -/
def findUnfinished (updatedAt : Nat → Nat) (tenantId : Int) (t : CheckpointTable) :
    Option UnfinishedCheckpoint :=
  ((t.rows.zipIdx.filter fun entry => interruptedOf tenantId entry.1).argmax
    fun entry => updatedAt entry.2).map fun entry => entry.1.read entry.2

def runningJobs (tenantId : Int) (t : CheckpointTable) : List String :=
  (t.rows.filter (runningOf tenantId)).map InventoryCheckpoint.jobId

section Updates

variable {tenantId : Int} {jobId : String} {t : CheckpointTable}

private theorem runningJobs_closed {change : InventoryCheckpoint → InventoryCheckpoint}
    {gains : ∀ row, (change row).isRunning = true → row.isRunning = true}
    {kept : ∀ row, (change row).activeKey = row.activeKey}
    (closes : ∀ row, runningOf tenantId (change row) = false) :
    runningJobs tenantId (t.update (unfinishedOf tenantId) change gains kept) = [] := by
  have none_missed : ∀ row, (runningOf tenantId row && !unfinishedOf tenantId row) = false := by
    intro row
    by_cases running : row.status = .running <;> simp [runningOf, unfinishedOf, running]
  rw [runningJobs, CheckpointTable.update, column_updateWhere closes]
  simp [none_missed]

@[simp] theorem runningJobs_abandon (reason : String) :
    runningJobs tenantId (abandonRunning reason tenantId t) = [] :=
  runningJobs_closed fun _ => by simp [runningOf]

@[simp] theorem runningJobs_supersede : runningJobs tenantId (supersede tenantId t) = [] :=
  runningJobs_closed fun _ => by simp [runningOf]

theorem start_ok (t : CheckpointTable) (tenantId : Int) (jobId : String) :
    ∃ u, start jobId tenantId t = .ok u ∧ runningJobs tenantId u = [jobId] := by
  have free : ¬ ∃ row ∈ (supersede tenantId t).rows, row.isRunning = true ∧
      row.activeKey = (tenantId, "inventory_pull") := by
    intro taken
    obtain ⟨row, stored, running, same⟩ := taken
    have listed : row.jobId ∈ runningJobs tenantId (supersede tenantId t) := by
      refine List.mem_map_of_mem (List.mem_filter.mpr ⟨stored, ?_⟩)
      simp only [Prod.mk.injEq] at same
      simpa [runningOf, same.1, InventoryCheckpoint.isRunning] using running
    rw [runningJobs_supersede] at listed
    cases listed
  unfold start CheckpointTable.insert
  rw [dif_neg fun taken => free taken.2]
  refine ⟨_, rfl, ?_⟩
  have before : runningJobs tenantId (supersede tenantId t) = [] := runningJobs_supersede
  rw [runningJobs] at before ⊢
  rw [List.filter_append, List.map_append, before]
  simp [runningOf]

@[simp] theorem runningJobs_update (other : String) (u : CheckpointUpdate) :
    runningJobs tenantId (update other u tenantId t) = runningJobs tenantId t := by
  simp only [runningJobs, update, CheckpointTable.update, updateWhere]
  rw [List.filter_map, List.map_map]
  congr 1
  · funext row
    simp only [Function.comp_apply]
    split <;> rfl
  · congr 1
    funext row
    simp only [Function.comp_apply]
    split <;> rfl

theorem runningJobs_finish (status : FinalStatus) (error : String) :
    runningJobs tenantId (finish jobId status error tenantId t) =
      (runningJobs tenantId t).filter (· ≠ jobId) := by
  have closes : ∀ row : InventoryCheckpoint,
      runningOf tenantId { row with status := status.status, error := some error } = false := by
    intro row
    cases status <;> simp [runningOf, FinalStatus.status]
  rw [runningJobs, finish, CheckpointTable.update, column_updateWhere closes, runningJobs,
    List.filter_map, List.filter_filter]
  congr 2
  funext row
  by_cases running : runningOf tenantId row = true
  · have mine := of_decide_eq_true running
    simp [running, ofJob, mine.1]
  · simp [running]

end Updates

end Scand.Store.Checkpoints
