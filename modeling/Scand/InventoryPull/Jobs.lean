/- path: Scand/InventoryPull/Jobs
   layer: code model
   digest: POST /api/1c/inventory-pulls with its worker thread, and the reset, as atomic steps over
   the generation, the two job tables, the pull state and the broadcast events. -/

import Scand.Foundation.Interleaving
import Scand.Inventory.Endpoints
import Scand.InventoryPull.Events
import Scand.Store.Checkpoints
import Scand.Store.SyncRuns

set_option autoImplicit false
set_option relaxedAutoImplicit false

namespace Scand.InventoryPull.Jobs

open Scand.Foundation.Interleaving (Machine)
open Scand.Foundation.JsonValue
open Scand.Inventory.Database
open Scand.Inventory.Endpoints (InventoryQuery selectProducts offerByRef)
open Scand.Inventory.ImportSnapshot (ImportResult importSnapshot)
open Scand.Inventory.PullToSnapshot (HashOrder pullToSnapshot)
open Scand.Inventory.Snapshot (SnapshotRequest)
open Scand.InventoryPull.Events
open Scand.Ka2.Pull (PullResult)
open Scand.Store
open Scand.Store.Checkpoints (CheckpointTable CheckpointUpdate)
open Scand.Store.SyncRuns (SyncRun RunCounts)

/-- What does not change while the service runs: the JSON parser, which may throw, the platform of
the database, and the order of the hash maps. -/
structure Env where
  parse : String → Option Json
  platform : Platform
  order : HashOrder

structure Shared where
  generation : Nat := 0
  syncRuns : List SyncRun := []
  checkpoints : CheckpointTable := .empty
  state : Option InventorySnapshot := none
  broadcast : List Fields := []
  db : InventoryDb := .empty

structure CatalogResult where
  accepted : Nat := 0
  migrated : Nat := 0
  conflicts : Nat := 0
  measuredAt : String := ""

structure Job where
  jobId : String
  generation : Nat
  query : InventoryQuery
  allowedWarehouses : List String := []
  catalog : CatalogResult := {}
  selected : List CatalogRow := []
  period : String := ""
  pull : PullResult := {}

inductive Ending
  /-- with the counts of the finished job -/
  | done (counts : RunCounts)
  /-- with an error that the worker found itself -/
  | failed (error stage : String)
  /-- with an exception, which also updates the state -/
  | thrown (error : String)

/-- What a catalogue pull does within its transaction: the events that it reports, and its result
with the change that the commit makes, or the exception. -/
structure CatalogPull where
  progress : List (String × String) := []
  outcome : Except String (CatalogResult × (InventoryDb → InventoryDb)) := .error ""

structure Reply where
  micros : Nat := 0
  now : String := ""
  dbOk : Bool := true
  /-- the text of an exception of the database -/
  what : String := ""
  allowedWarehouses : List String := []
  catalog : CatalogPull := {}
  pull : Except String PullResult := .error ""

/-- Where a request, its worker or a reset stands: each place is the next atomic step. -/
inductive Pc
  -- POST /api/1c/inventory-pulls
  | takeGeneration (query : InventoryQuery)
  | readAllowed (job : Job) | abandonRuns (job : Job) | abandonCheckpoints (job : Job)
  | startNew (job : Job) | startRun (job : Job) | startCheckpoint (job : Job)
  -- emit, called by the worker on its way to another place
  | emit (job : Job) (e : Emission) (next : Pc)
  | updateState (job : Job) (e : Emission) (next : Pc)
  | broadcastEvent (job : Job) (e : Emission) (next : Pc)
  -- the worker
  | pullCatalog (job : Job)
  | commitCatalog (job : Job) (change : InventoryDb → InventoryDb)
  | updateCheckpoint (job : Job) (u : CheckpointUpdate) (next : Pc)
  | selectSkus (job : Job) | choosePeriod (job : Job) | pullKa2 (job : Job)
  | importRequest (job : Job) (req : SnapshotRequest)
  | checkGeneration (job : Job) (ending : Ending)
  | finishRun (job : Job) (ending : Ending) | finishCheckpoint (job : Job) (ending : Ending)
  | failState (job : Job) (error : String) | failBroadcast (job : Job) (error : String)
  | finished
  -- POST /api/sync/reset
  | resetPullRuns | resetOzonRuns | resetCheckpoints | resetState | resetOzon | bumpGeneration

section Worker

variable (job : Job)

def reportProgress (progress : List (String × String)) (next : Pc) : Pc :=
  progress.foldr
    (fun report next => .emit job { stage := report.1, status := "running", extraJson := report.2 }
      next) next

def failWith (error stage : String) : Pc :=
  .emit job { stage := "error", status := "failed", extraJson := errorJson error }
    (.checkGeneration job (.failed error stage))

def caught (error : String) : Pc := .checkGeneration job (.thrown error)

def stageUpdate (lastStage period batchId : String) (selected : List CatalogRow) :
    CheckpointUpdate where
  lastStage := lastStage
  period := period
  batchId := batchId
  productKeys := selected.map CatalogRow.refKey
  offerByRef := selected.filterMap fun row =>
    (row.article.filter (· ≠ "")).map fun article => (row.refKey, article)
  accepted := job.catalog.accepted
  migrated := job.catalog.migrated
  conflicts := job.catalog.conflicts

def catalogNumbers : List (String × Nat) :=
  [("accepted", job.catalog.accepted), ("migrated", job.catalog.migrated),
    ("conflicts", job.catalog.conflicts)]

def afterCatalog : Pc :=
  .emit job { stage := "catalog", status := "done", extraJson := numbersJson (catalogNumbers job) }
    (.updateCheckpoint job (stageUpdate job "catalog" "" "" []) (.selectSkus job))

/-- The SELECT of the products; a negative limit is refused. -/
def selectSkus (q : InventoryQuery) (db : InventoryDb) : Except String (List CatalogRow) :=
  match stoll q.limit with
  | some n =>
      if q.refKey = "" ∧ q.offer = "" ∧ n < 0 then .error "LIMIT must not be negative"
      else .ok (selectProducts db q (some n.toNat))
  | none => .ok (selectProducts db q none)

def afterPull (env : Env) : Pc :=
  let pull := job.pull
  let req := pullToSnapshot pull (offerByRef job.selected) job.allowedWarehouses env.order
    job.period false
  .emit job {
    stage := "ka2_pull"
    status := "done"
    extraJson := numbersJson [("warehouses", pull.warehouses.length),
      ("analytics", pull.analytics.length), ("stocks", pull.stocks.length),
      ("costs", pull.costs.length), ("suppliers", pull.suppliers.length),
      ("warnings", pull.warnings.length)] }
    (.updateCheckpoint job (stageUpdate job "ka2_pull" job.period "" job.selected)
      (.emit job {
        stage := "save"
        status := "running"
        extraJson := numbersJson [("warehouses", req.warehouses.length),
          ("stocks", req.stocks.length), ("costs", req.costs.length)] }
        (.importRequest job req)))

/-- The text of the last event, whose numbers are followed by the time of the catalogue. -/
def doneJson (req : SnapshotRequest) (saved : ImportResult) : String :=
  "\x7b" ++ numberMembers (catalogNumbers job ++ [("stocks_accepted", saved.stocksAccepted),
    ("costs_accepted", saved.costsAccepted), ("warehouses", req.warehouses.length)]) ++
    ",\"measured_at\":\"" ++ job.catalog.measuredAt ++ "\"\x7d"

def afterImport (req : SnapshotRequest) (saved : ImportResult) : Pc :=
  .emit job {
    stage := "save"
    status := "done"
    extraJson := numbersJson [("stocks_accepted", saved.stocksAccepted),
      ("costs_accepted", saved.costsAccepted)] }
    (.updateCheckpoint job (stageUpdate job "save" job.period req.batchId job.selected)
      (.emit job { stage := "done", status := "imported", extraJson := doneJson job req saved }
        (.checkGeneration job (.done {
          accepted := job.catalog.accepted
          migrated := job.catalog.migrated
          conflicts := job.catalog.conflicts
          warehouses := job.pull.warehouses.length
          stocks := job.pull.stocks.length
          costs := job.pull.costs.length
          stocksAccepted := saved.stocksAccepted
          costsAccepted := saved.costsAccepted }))))

end Worker

section Tables

variable (s : Shared) (dbOk : Bool)

/-- A statement of the run history; an exception of it is caught. -/
def updateRuns (change : List SyncRun → List SyncRun) : Shared :=
  { s with syncRuns := if dbOk then change s.syncRuns else s.syncRuns }

/-- A transaction on the checkpoints; an exception of it is caught. -/
def updateCheckpoints (change : CheckpointTable → CheckpointTable) : Shared :=
  { s with checkpoints := if dbOk then change s.checkpoints else s.checkpoints }

end Tables

/-- `start` of the checkpoints, where a refused INSERT leaves the table as it was. -/
def startCheckpoint (jobId : String) (t : CheckpointTable) : CheckpointTable :=
  (Checkpoints.start jobId 1 t).toOption.getD t

/-- One step of `POST /api/1c/inventory-pulls`. -/
def requestStep (s : Shared) (pc : Pc) (r : Reply) : Option (Shared × Pc) :=
  match pc with
  | .takeGeneration query =>
      let generation := s.generation + 1
      some ({ s with generation := generation },
        .readAllowed { jobId := toString r.micros, generation := generation, query := query })
  | .readAllowed job =>
      some (s, .abandonRuns { job with
        allowedWarehouses := if r.dbOk then r.allowedWarehouses else [] })
  | .abandonRuns job =>
      some (updateRuns s r.dbOk
        (SyncRuns.abandonRunning 1 "inventory_pull" "superseded by new run"),
        .abandonCheckpoints job)
  | .abandonCheckpoints job =>
      some (updateCheckpoints s r.dbOk (Checkpoints.abandonRunning "superseded by new run" 1),
        .startNew job)
  | .startNew job => some ({ s with state := some (startNew job.jobId) }, .startRun job)
  | .startRun job =>
      some (updateRuns s r.dbOk (SyncRuns.start "inventory_pull" job.jobId 1),
        .startCheckpoint job)
  | .startCheckpoint job =>
      some (updateCheckpoints s r.dbOk (startCheckpoint job.jobId),
        .emit job { stage := "catalog", status := "running" } (.pullCatalog job))
  | _ => none

/-- One step of `emit`: an event of a stale worker is dropped. -/
def emitStep (env : Env) (s : Shared) (pc : Pc) : Option (Shared × Pc) :=
  match pc with
  | .emit job e next =>
      some (s, if s.generation = job.generation then .updateState job e next else next)
  | .updateState job e next =>
      some ({ s with state := some (e.snapshot job.jobId (e.object env.parse job.jobId)) },
        .broadcastEvent job e next)
  | .broadcastEvent job e next =>
      some ({ s with broadcast := s.broadcast ++ [e.object env.parse job.jobId] }, next)
  | _ => none

def workerStep (env : Env) (s : Shared) (pc : Pc) (r : Reply) : Option (Shared × Pc) :=
  match pc with
  | .pullCatalog job =>
      some (s,
        if r.dbOk then
          reportProgress job r.catalog.progress (match r.catalog.outcome with
            | .error e => caught job e
            | .ok (result, change) => .commitCatalog { job with catalog := result } change)
        else caught job r.what)
  | .commitCatalog job change =>
      if r.dbOk then some ({ s with db := change s.db }, afterCatalog job)
      else some (s, caught job r.what)
  | .updateCheckpoint job u next =>
      some (updateCheckpoints s r.dbOk (Checkpoints.update job.jobId u 1), next)
  | .selectSkus job =>
      some (s,
        if r.dbOk then
          match selectSkus job.query s.db with
          | .error e => caught job e
          | .ok [] => failWith job "inventory1c_products is empty" "error"
          | .ok selected => .choosePeriod { job with selected := selected }
        else caught job r.what)
  | .choosePeriod job =>
      let job := { job with period := if job.query.period = "" then r.now else job.query.period }
      some (s, .emit job {
        stage := "ka2_pull"
        status := "running"
        extraJson := numbersJson [("product_keys", job.selected.length)] } (.pullKa2 job))
  | .pullKa2 job =>
      some (s, match r.pull with
        | .error e => caught job e
        | .ok pull => afterPull { job with pull := pull } env)
  | .importRequest job req =>
      if r.dbOk then
        let outcome := importSnapshot env.platform 1 req s.db
        some ({ s with db := outcome.db }, match outcome.result.value with
          | some saved => afterImport job req saved
          | none => failWith job outcome.result.error "save")
      else some (s, failWith job r.what "save")
  | .checkGeneration job ending =>
      some (s, if s.generation = job.generation then .finishRun job ending else .finished)
  | .finishRun job ending =>
      some (updateRuns s r.dbOk (match ending with
        | .done counts => SyncRuns.finishDone 1 "inventory_pull" job.jobId counts
        | .failed error stage => SyncRuns.finishFailed 1 "inventory_pull" job.jobId error stage
        | .thrown error => SyncRuns.finishFailed 1 "inventory_pull" job.jobId error "error"),
        .finishCheckpoint job ending)
  | .finishCheckpoint job ending =>
      some (updateCheckpoints s r.dbOk (match ending with
        | .done _ => Checkpoints.finish job.jobId .done "" 1
        | .failed error _ | .thrown error => Checkpoints.finish job.jobId .failed error 1),
        match ending with
        | .thrown error => .failState job error
        | _ => .finished)
  | .failState job error =>
      some ({ s with state := some (failureSnapshot job.jobId error) }, .failBroadcast job error)
  | .failBroadcast job error =>
      some ({ s with broadcast := s.broadcast ++ [failureObject job.jobId error] }, .finished)
  | _ => none

/-- One step of `POST /api/sync/reset`; an exception ends it. -/
def resetStep (s : Shared) (pc : Pc) (r : Reply) : Option (Shared × Pc) :=
  match pc with
  | .resetPullRuns =>
      some (updateRuns s r.dbOk (SyncRuns.abandonRunning 1 "inventory_pull" "reset by user"),
        if r.dbOk then .resetOzonRuns else .finished)
  | .resetOzonRuns =>
      some (updateRuns s r.dbOk (SyncRuns.abandonRunning 1 "ozon" "reset by user"),
        if r.dbOk then .resetCheckpoints else .finished)
  | .resetCheckpoints =>
      some (updateCheckpoints s r.dbOk (Checkpoints.abandonRunning "reset by user" 1),
        if r.dbOk then .resetState else .finished)
  | .resetState => some ({ s with state := none }, .resetOzon)
  | .resetOzon => some (s, .bumpGeneration)
  | .bumpGeneration => some ({ s with generation := s.generation + 1 }, .finished)
  | _ => none

def isCall : Pc → Bool
  | .takeGeneration _ | .resetPullRuns => true
  | _ => false

def jobs (env : Env) : Machine Shared Pc Reply where
  entry := isCall
  step _ s pc r :=
    (requestStep s pc r).or ((emitStep env s pc).or ((workerStep env s pc r).or (resetStep s pc r)))

theorem jobs_step {env : Env} {i : Nat} {s : Shared} {pc : Pc} {r : Reply} {next : Shared × Pc}
    (stepped : (jobs env).step i s pc r = some next) :
    requestStep s pc r = some next ∨ emitStep env s pc = some next ∨
      workerStep env s pc r = some next ∨ resetStep s pc r = some next := by
  simp only [jobs, Option.or_eq_some_iff] at stepped
  rcases stepped with request | ⟨-, emitted | ⟨-, worked | ⟨-, reset⟩⟩⟩
  · exact Or.inl request
  · exact Or.inr (Or.inl emitted)
  · exact Or.inr (Or.inr (Or.inl worked))
  · exact Or.inr (Or.inr (Or.inr reset))

end Scand.InventoryPull.Jobs
