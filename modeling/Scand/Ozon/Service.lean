/- path: Scand/Ozon/Service
   layer: code model
   digest: SyncService for Ozon: the shared state, and every call and the run itself as atomic steps. -/

import Scand.Foundation.Interleaving
import Scand.Foundation.KeyedTable
import Scand.Ozon.Client
import Scand.Store.SyncRuns

set_option autoImplicit false
set_option relaxedAutoImplicit false

namespace Scand.Ozon.Service

open Scand.Foundation.Interleaving (Machine)
open Scand.Foundation.JsonValue (HttpReply Number)
open Scand.Foundation.KeyedTable (SqlError Table numeric)
open Scand.Ozon.Client
open Scand.Store.SyncRuns

/-- The constructor arguments that the Ozon part reads. -/
structure Conf where
  pageSize : Int
  notifyEveryPercent : Int := 5
  notifyMinIntervalSec : Int := 2

/-- A checkpoint of the source `ozon`, the only one kept here. -/
structure SyncCheckpoint where
  lastCursor : String := ""
  lastPage : Int := 0
  totalSynced : Int := 0
  dirtyPages : Int := 0
  totalExpected : Int := 0
  lastNotifiedPercent : Int := -1
  lastStatus : String := ""
  deriving DecidableEq

structure SyncStateRow where
  lastCursor : String
  lastPage : Int
  totalSynced : Int
  lastStatus : String
  deriving DecidableEq

structure SyncProgress where
  source : String := ""
  processed : Int := 0
  total : Int := 0
  percent : ℚ := 0
  status : String := ""
  deriving DecidableEq

/-- What the threads share: the members of the service, the checkpoint in memory, the tables, and
the tasks waiting in the pool, each named by the call that submitted it. -/
structure Shared where
  shuttingDown : Bool := false
  ozonRunning : Bool := false
  ozonStop : Bool := false
  ozonJobId : String := ""
  ozonProgress : SyncProgress := {}
  lastNotifyTime : Option Int := none
  notified : List SyncProgress := []
  store : Option SyncCheckpoint := none
  syncState : Option SyncStateRow := none
  products : Table OzonProduct OzonProduct.id := .empty
  syncRuns : List SyncRun := []
  tasks : List Nat := []

/-- The readings of the steady clock, in nanoseconds, that a message takes before it is sent and when it
is sent. -/
structure Clock where
  now : Int := 0
  sent : Int := 0

/-- What the surroundings answer to one step: a server, the database, the pool and the clocks. -/
structure Reply where
  http : HttpReply := { statusCode := 0, body := .error "" }
  dbOk : Bool := true
  accepted : Bool := true
  clock : Clock := {}
  micros : Nat := 0

structure RunVars where
  cp : SyncCheckpoint
  lastId : String
  total : Int
  page : Int
  consecutiveFailures : Nat := 0
  deriving DecidableEq

/-- Where a call, or the run that it submitted, stands: each place is the next atomic step. -/
inductive Pc
  -- trigger_ozon_full
  | fullCheckShutdown | fullResetCheckpoint | fullRemoveStored
  -- trigger_ozon_sync with ozon_job_start and a refused submission
  | checkShutdown | claimRunning | clearStop | startJob
  | abandonOld (jobId : String) | insertJob (jobId : String) | submit
  | releaseRefused | readRefusedJob | failRefusedJob (jobId : String)
  | returned (ok : Bool)
  -- run_ozon_sync, from the queue of the pool on
  | queued | readStore | loadCheckpoint | saveRunning (v : RunVars)
  | checkStop (v : RunVars) | fetchPage (v : RunVars)
  | saveRetry (v : RunVars) | sendRetry (v : RunVars)
  | saveFailed (v : RunVars) | sendFailed (v : RunVars)
  | sendTotal (v : RunVars) (page : OzonPage)
  | fetchInfo (v : RunVars) (page : OzonPage)
  | fetchPrices (v : RunVars) (page : OzonPage) (details : List OzonProduct)
  | upsertPage (v : RunVars) (page : OzonPage) (details : List OzonProduct)
  | setStore (v : RunVars) (more : Bool) | saveCheckpoint (v : RunVars) (more : Bool)
  | sendRunning (v : RunVars) (more : Bool)
  | checkStopAtEnd (v : RunVars) | saveDone (v : RunVars) | sendDone (v : RunVars)
  | readDoneJob (total : Int) | finishJob (total : Int) (jobId : String)
  | markStopped | notifyStopped
  | readJobToFail (error : String) | failJob (error jobId : String)
  | releaseRunning | finished
  -- stop_ozon
  | stopStatus | stopProgress | stopNotify | stopFlag
  -- request_stop
  | requestShutdown | requestFlag
  -- POST /api/sync/reset
  | resetPullRuns | resetOzonRuns | resetCheckpoints
  | resetProgress | resetRunning | resetStop | resetJob
  deriving DecidableEq

section Database

variable (s : Shared) (dbOk : Bool)

def loadCheckpoint : SyncCheckpoint :=
  match dbOk, s.syncState with
  | true, some row => {
      lastCursor := row.lastCursor
      lastPage := row.lastPage
      totalSynced := row.totalSynced
      lastStatus := row.lastStatus }
  | _, _ => {}

/-- `save_checkpoint`; a failure is reported to nobody. -/
def saveCheckpoint (cp : SyncCheckpoint) : Shared :=
  { s with
    syncState := if dbOk then
      some {
        lastCursor := cp.lastCursor
        lastPage := cp.lastPage
        totalSynced := cp.totalSynced
        lastStatus := cp.lastStatus }
    else s.syncState }

def resetCheckpoint : Shared :=
  { s with
    syncState := if dbOk then
      s.syncState.map fun _ => {
        lastCursor := "", lastPage := 0, totalSynced := 0, lastStatus := "" }
    else s.syncState }

def updateCheckpointStatus (status : String) : Shared :=
  { s with
    syncState := if dbOk then s.syncState.map fun row => { row with lastStatus := status }
    else s.syncState }

/-- A statement of the run history; an exception of it is caught. -/
def updateRuns (change : List SyncRun → List SyncRun) : Shared :=
  { s with syncRuns := if dbOk then change s.syncRuns else s.syncRuns }

end Database

/-- A `double` in a `NUMERIC` column, which takes NaN but no infinite value. -/
def numericDouble (precision scale : Nat) : Number → Except SqlError Number
  | .finite q => (numeric precision scale q).map .finite
  | .infinite _ => .error .numericValueOutOfRange
  | .nan => .ok .nan

/-- The row that a product becomes: its price is a `NUMERIC(12,2)`. -/
def productRow (p : OzonProduct) : Except SqlError OzonProduct := do
  let price ← numericDouble 12 2 p.price
  return { p with price := price }

/-- `upsert_batch_ozon`: one transaction that writes every product or none. -/
def upsertBatchOzon (table : Table OzonProduct OzonProduct.id) (products : List OzonProduct) :
    Except SqlError (Table OzonProduct OzonProduct.id) := do
  let rows ← products.mapM productRow
  table.upsertAll (fun old new => { new with id := old.id }) (fun _ _ => rfl) rows

/-- The products table after `upsert_batch_ozon`, whose result nobody reads. -/
def upsertProducts (s : Shared) (dbOk : Bool) (products : List OzonProduct) : Shared :=
  { s with
    products := match dbOk, upsertBatchOzon s.products products with
      | true, .ok table => table
      | _, _ => s.products }

/-- `static_cast<int>` of a `double`; one outside the range of an `int` becomes the least one. -/
def wholePercent (percent : ℚ) : Int :=
  let whole := percent.num.tdiv percent.den
  if -2 ^ 31 ≤ whole ∧ whole < 2 ^ 31 then whole else -2 ^ 31

/-- Whether a `running` message passes the bucket of percents, with the checkpoint that keeps it. -/
def percentPasses (conf : Conf) (total : Int) (percent : ℚ) (cp : SyncCheckpoint) :
    Bool × SyncCheckpoint :=
  if conf.notifyEveryPercent ≤ 0 then (true, cp)
  else if total > 0 then
    let bucket := (wholePercent percent).tdiv conf.notifyEveryPercent * conf.notifyEveryPercent
    if bucket > cp.lastNotifiedPercent then (true, { cp with lastNotifiedPercent := bucket })
    else (false, cp)
  else (false, cp)

/-- Whether enough whole seconds lie behind the last message. -/
def intervalPasses (conf : Conf) (now : Int) (lastNotifyTime : Option Int) : Bool :=
  match lastNotifyTime with
  | some last => conf.notifyMinIntervalSec ≤ 0 ∨
      (now - last).tdiv 1000000000 ≥ conf.notifyMinIntervalSec
  | none => true

/-- `send_progress`: every status but `running` is always notified. -/
def sendProgress (conf : Conf) (clock : Clock) (processed total : Int) (status : String)
    (s : Shared) (cp : SyncCheckpoint) : Shared × SyncCheckpoint :=
  let percent : ℚ := if total > 0 then 100 * processed / total else 0
  let p : SyncProgress := {
    source := "ozon", processed := processed, total := total, percent := percent, status := status }
  let passed := if status = "running" then percentPasses conf total percent cp else (true, cp)
  let shouldNotify :=
    passed.1 && (status ≠ "running" || intervalPasses conf clock.now s.lastNotifyTime)
  ({ s with
      ozonProgress := p
      lastNotifyTime := if shouldNotify then some clock.sent else s.lastNotifyTime
      notified := if shouldNotify then s.notified ++ [p] else s.notified }, passed.2)

def enter (cp : SyncCheckpoint) : RunVars :=
  let fresh : SyncCheckpoint :=
    if cp.lastCursor = "" ∧ cp.totalSynced = 0 then
      { cp with lastNotifiedPercent := -1, totalExpected := 0 }
    else cp
  { cp := { fresh with lastStatus := "running" }
    lastId := cp.lastCursor
    total := cp.totalSynced
    page := cp.lastPage }

def afterListing (v : RunVars) (page : OzonPage) : Pc :=
  if page.items.isEmpty then .checkStopAtEnd v else .fetchInfo v page

/-- The variables after a page, whether or not its products were read and stored. -/
def advance (v : RunVars) (page : OzonPage) (details : List OzonProduct) : RunVars :=
  let total := v.total + details.length
  { v with
    total := total
    page := v.page + 1
    lastId := page.lastId
    cp := { v.cp with
      lastCursor := page.lastId
      lastPage := v.page + 1
      totalSynced := total
      dirtyPages := v.cp.dirtyPages + 1
      lastStatus := "running" } }

def maxConsecutiveFailures : Nat := 10

def triggerStep (i : Nat) (s : Shared) (pc : Pc) (r : Reply) : Option (Shared × Pc) :=
  match pc with
  | .fullCheckShutdown =>
      some (s, if s.shuttingDown then .returned false else .fullResetCheckpoint)
  | .fullResetCheckpoint => some (resetCheckpoint s r.dbOk, .fullRemoveStored)
  | .fullRemoveStored => some ({ s with store := none }, .checkShutdown)
  | .checkShutdown => some (s, if s.shuttingDown then .returned false else .claimRunning)
  | .claimRunning =>
      if s.ozonRunning then some (s, .returned false)
      else some ({ s with ozonRunning := true }, .clearStop)
  | .clearStop => some ({ s with ozonStop := false }, .startJob)
  | .startJob =>
      let jobId := "sync-" ++ toString r.micros
      some ({ s with ozonJobId := jobId }, .abandonOld jobId)
  | .abandonOld jobId =>
      -- an exception here also skips the insertion
      some (updateRuns s r.dbOk (abandonRunning 1 "ozon" "superseded by new run"),
        if r.dbOk then .insertJob jobId else .submit)
  | .insertJob jobId => some (updateRuns s r.dbOk (start "ozon" jobId 1), .submit)
  | .submit =>
      if r.accepted then some ({ s with tasks := s.tasks ++ [i] }, .queued)
      else some (s, .releaseRefused)
  | .releaseRefused => some ({ s with ozonRunning := false }, .readRefusedJob)
  | .readRefusedJob =>
      some (s, if s.ozonJobId = "" then .returned false else .failRefusedJob s.ozonJobId)
  | .failRefusedJob jobId =>
      some (updateRuns s r.dbOk (finishFailed 1 "ozon" jobId "pool submit failed" "error"),
        .returned false)
  | _ => none

def runStep (conf : Conf) (i : Nat) (s : Shared) (pc : Pc) (r : Reply) : Option (Shared × Pc) :=
  match pc with
  | .queued =>
      match s.tasks with
      | j :: rest => if j = i then some ({ s with tasks := rest }, .readStore) else none
      | [] => none
  | .readStore =>
      some (s, match s.store with
        | some cp => .saveRunning (enter cp)
        | none => .loadCheckpoint)
  | .loadCheckpoint => some (s, .saveRunning (enter (loadCheckpoint s r.dbOk)))
  | .saveRunning v => some (saveCheckpoint s r.dbOk v.cp, .checkStop v)
  | .checkStop v => some (s, if s.ozonStop then .checkStopAtEnd v else .fetchPage v)
  | .fetchPage v =>
      let page := fetchPageCursor conf.pageSize r.http
      if page.networkError then
        some (s, .saveRetry { v with
          consecutiveFailures := v.consecutiveFailures + 1
          cp := { v.cp with lastStatus := "retry" } })
      else
        let v := { v with consecutiveFailures := 0 }
        if v.cp.totalExpected = 0 ∧ page.total > 0 then
          some (s, .sendTotal { v with cp := { v.cp with totalExpected := page.total } } page)
        else some (s, afterListing v page)
  | .saveRetry v => some (saveCheckpoint s r.dbOk v.cp, .sendRetry v)
  | .sendRetry v =>
      let (s, cp) := sendProgress conf r.clock v.total v.cp.totalExpected "retry" s v.cp
      some (s,
        if v.consecutiveFailures ≥ maxConsecutiveFailures then
          .saveFailed { v with cp := { cp with lastStatus := "failed" } }
        else .checkStop { v with cp := cp })
  | .saveFailed v => some (saveCheckpoint s r.dbOk v.cp, .sendFailed v)
  | .sendFailed v =>
      some ((sendProgress conf r.clock v.total v.cp.totalExpected "failed" s v.cp).1,
        .readJobToFail "too many consecutive network failures")
  | .sendTotal v page =>
      let (s, cp) := sendProgress conf r.clock v.total v.cp.totalExpected "running" s v.cp
      some (s, afterListing { v with cp := cp } page)
  | .fetchInfo v page =>
      some (s, .fetchPrices v page (fetchInfoBatch (page.items.map OzonProduct.id) r.http))
  | .fetchPrices v page details =>
      let prices := fetchPricesStocksBatch (skusOf details) r.http
      some (s, .upsertPage v page (withPrices details prices))
  | .upsertPage v page details =>
      some (upsertProducts s r.dbOk details, .setStore (advance v page details) page.hasMore)
  | .setStore v more => some ({ s with store := some v.cp }, .saveCheckpoint v more)
  | .saveCheckpoint v more => some (saveCheckpoint s r.dbOk v.cp, .sendRunning v more)
  | .sendRunning v more =>
      let (s, cp) := sendProgress conf r.clock v.total v.cp.totalExpected "running" s v.cp
      let v := { v with cp := cp }
      some (s, if more then .checkStop v else .checkStopAtEnd v)
  | .checkStopAtEnd v =>
      some (s, if s.ozonStop then .markStopped
        else .saveDone { v with cp := { v.cp with lastStatus := "done" } })
  | .saveDone v => some (saveCheckpoint s r.dbOk v.cp, .sendDone v)
  | .sendDone v =>
      some ((sendProgress conf r.clock v.total v.cp.totalExpected "done" s v.cp).1,
        .readDoneJob v.total)
  | .readDoneJob total =>
      some (s, if s.ozonJobId = "" then .releaseRunning else .finishJob total s.ozonJobId)
  | .finishJob total jobId =>
      some (updateRuns s r.dbOk (finishDone 1 "ozon" jobId { accepted := total }), .releaseRunning)
  | .markStopped =>
      some ({ s with ozonProgress := { s.ozonProgress with status := "stopped" } }, .notifyStopped)
  | .notifyStopped =>
      some ({ s with notified := s.notified ++ [{ s.ozonProgress with status := "stopped" }] },
        .readJobToFail "stopped by user")
  | .readJobToFail error =>
      some (s, if s.ozonJobId = "" then .releaseRunning else .failJob error s.ozonJobId)
  | .failJob error jobId =>
      some (updateRuns s r.dbOk (finishFailed 1 "ozon" jobId error "error"), .releaseRunning)
  | .releaseRunning => some ({ s with ozonRunning := false }, .finished)
  | _ => none

def controlStep (s : Shared) (pc : Pc) (r : Reply) : Option (Shared × Pc) :=
  match pc with
  | .stopStatus => some (updateCheckpointStatus s r.dbOk "stopping", .stopProgress)
  | .stopProgress =>
      some ({ s with ozonProgress := { s.ozonProgress with status := "stopping" } }, .stopNotify)
  | .stopNotify =>
      some ({ s with notified := s.notified ++ [{ s.ozonProgress with status := "stopping" }] },
        .stopFlag)
  | .stopFlag => some ({ s with ozonStop := true }, .finished)
  | .requestShutdown =>
      if s.shuttingDown then some (s, .finished)
      else some ({ s with shuttingDown := true }, .requestFlag)
  | .requestFlag => some ({ s with ozonStop := true }, .finished)
  -- an exception of one of the three statements ends the request
  | .resetPullRuns =>
      some (updateRuns s r.dbOk (abandonRunning 1 "inventory_pull" "reset by user"),
        if r.dbOk then .resetOzonRuns else .finished)
  | .resetOzonRuns =>
      some (updateRuns s r.dbOk (abandonRunning 1 "ozon" "reset by user"),
        if r.dbOk then .resetCheckpoints else .finished)
  | .resetCheckpoints => some (s, if r.dbOk then .resetProgress else .finished)
  | .resetProgress => some ({ s with ozonProgress := {} }, .resetRunning)
  | .resetRunning => some ({ s with ozonRunning := false }, .resetStop)
  | .resetStop => some ({ s with ozonStop := false }, .resetJob)
  | .resetJob => some ({ s with ozonJobId := "" }, .finished)
  | _ => none

def isCall : Pc → Bool
  | .fullCheckShutdown | .checkShutdown | .stopStatus | .requestShutdown | .resetPullRuns => true
  | _ => false

/-- The service: calls from any threads, and the pool that takes its tasks in their order. -/
def service (conf : Conf) : Machine Shared Pc Reply where
  entry := isCall
  step i s pc r :=
    (triggerStep i s pc r).or ((runStep conf i s pc r).or (controlStep s pc r))

theorem service_step {conf : Conf} {i : Nat} {s : Shared} {pc : Pc} {r : Reply}
    {next : Shared × Pc} (stepped : (service conf).step i s pc r = some next) :
    triggerStep i s pc r = some next ∨ runStep conf i s pc r = some next ∨
      controlStep s pc r = some next := by
  simp only [service, Option.or_eq_some_iff] at stepped
  rcases stepped with trigger | ⟨-, run | ⟨-, control⟩⟩
  · exact Or.inl trigger
  · exact Or.inr (Or.inl run)
  · exact Or.inr (Or.inr control)

end Scand.Ozon.Service
