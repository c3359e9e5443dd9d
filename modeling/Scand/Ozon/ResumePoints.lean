/- path: Scand/Ozon/ResumePoints
   layer: results
   digest: Both copies of the checkpoint stay at points of the catalogue from which the rest of its pages
   leads to the same products, whatever step comes next. -/

import Scand.Ozon.Pages
import Scand.Ozon.StopFlag

set_option autoImplicit false
set_option relaxedAutoImplicit false

namespace Scand.Ozon.ResumePoints

open Scand.Foundation.Overlay
open Scand.Ozon.AutoResume (rowAfter step_moves)
open Scand.Ozon.Client
open Scand.Ozon.Exclusion (executing)
open Scand.Ozon.Mirror (step_keeps)
open Scand.Ozon.Pages
open Scand.Ozon.ProductRows (committed)
open Scand.Ozon.Service
open Scand.Ozon.StopFlag (run_places)

section Guards

variable (conf : Conf) (K : PagedCatalogue conf.pageSize)

/-- The reply to a request of a run: the listing may fail, everything else is answered as fixed. -/
def Answered : Pc → Reply → Prop
  | .fetchPage v, r => (fetchPageCursor conf.pageSize r.http).networkError = true ∨
      fetchPageCursor conf.pageSize r.http = K.page conf.pageSize v.lastId
  | .fetchInfo _ page, r => fetchInfoBatch (page.items.map OzonProduct.id) r.http = K.named page
  | .fetchPrices _ _ named, r =>
      withPrices named (fetchPricesStocksBatch (skusOf named) r.http) = K.priced named
  | _, _ => True

/-- The database answers, and no reset releases a claimed run or withdraws its stop. -/
structure ServedAt (s : Shared) (pc : Pc) (r : Reply) : Prop where
  database : r.dbOk = true
  single : pc = .resetRunning ∨ pc = .resetStop → s.ozonRunning = false
  answered : Answered conf K pc r

end Guards

/-- The variables of a run, as long as it may still save its checkpoint. -/
def vars? : Pc → Option RunVars
  | .saveRunning v | .checkStop v | .fetchPage v | .saveRetry v | .sendRetry v | .saveFailed v
  | .sendTotal v _ | .fetchInfo v _ | .fetchPrices v _ _ | .upsertPage v _ _ | .setStore v _
  | .saveCheckpoint v _ | .sendRunning v _ | .checkStopAtEnd v | .saveDone v => some v
  | _ => none

section Invariant

variable {pageSize : Int} (K : PagedCatalogue pageSize) (T₀ : Set OzonProduct)

/-- Resuming from a point leads to what all pages make of the first table. -/
def Good (T : Set OzonProduct) (p : Point) : Prop :=
  ∃ n ≤ K.pages, p = K.point n ∧ Leads OzonProduct.id K.batches T₀ T n

/-- Both copies of the checkpoint are good, and the one in memory is not behind; starting over is
good as well. -/
structure Safe (s : Shared) : Prop where
  again : Leads OzonProduct.id K.batches T₀ (stored s) 0
  row : Good K T₀ (stored s) (keptPoint s.syncState)
  memory : ∀ cp ∈ s.store, Good K T₀ (stored s) (cpPoint cp) ∧
    (keptPoint s.syncState).2.1 ≤ cp.lastPage

/-- A run works at page `n`, with its checkpoint there and none of the kept ones further on. -/
structure Working (s : Shared) (n : Nat) (v : RunVars) : Prop where
  bound : n ≤ K.pages
  vars : varsPoint v = K.point n
  cp : cpPoint v.cp = K.point n
  leads : Leads OzonProduct.id K.batches T₀ (stored s) n
  row : (keptPoint s.syncState).2.1 ≤ n

/-- What a place knows of its page and of the end of the catalogue. -/
def OnPage (s : Shared) (n : Nat) : Pc → Prop
  | .sendTotal _ page => page = K.pageAt n
  | .fetchInfo _ page => page = K.pageAt n ∧ n < K.pages
  | .fetchPrices _ page named => page = K.pageAt n ∧ n < K.pages ∧ named = K.named page
  | .upsertPage _ page details => page = K.pageAt n ∧ n < K.pages ∧ details = K.details page
  | .setStore _ more | .saveCheckpoint _ more | .sendRunning _ more => more = false → n = K.pages
  | .checkStopAtEnd _ => n = K.pages ∨ s.ozonStop = true
  | .saveDone _ => n = K.pages
  | _ => True

/-- The checkpoint in memory, if there is one, is that of the run, but for the page just written. -/
def InStep (s : Shared) (n : Nat) : Pc → Prop
  | .setStore _ _ => True
  | _ => ∀ cp ∈ s.store, cpPoint cp = K.point n

structure Stands (s : Shared) (pc : Pc) : Prop where
  load : pc = .loadCheckpoint → s.store = none
  runs : ∀ v ∈ vars? pc, ∃ n, Working K T₀ s n v ∧ InStep K s n pc ∧ OnPage K s n pc

end Invariant

section Steps

variable {conf : Conf} {K : PagedCatalogue conf.pageSize} {T₀ : Set OzonProduct} {i n : Nat}
  {s s' : Shared} {pc pc' : Pc} {r : Reply} {v : RunVars}

theorem Good.again {T : Set OzonProduct} {p : Point} (good : Good K T₀ T p) (le : p.2.1 ≤ n)
    (lt : n < K.pages) :
    Good K T₀ (overlay OzonProduct.id T (K.batch n)) p := by
  obtain ⟨m, bound, rfl, leads⟩ := good
  rw [PagedCatalogue.point_page, Int.ofNat_le] at le
  exact ⟨m, bound, rfl, leads_again leads le lt⟩

theorem stands_outside (outside : vars? pc = none) (no_load : pc ≠ .loadCheckpoint) :
    Stands K T₀ s pc := by
  refine ⟨fun load => absurd load no_load, fun v runs => ?_⟩
  rw [outside] at runs
  cases runs

theorem stands_idle (idle : executing pc = false) : Stands K T₀ s pc := by
  refine stands_outside ?_ ?_
  · cases pc <;> first | rfl | cases idle
  · rintro rfl
    cases idle

theorem stands_at (here : vars? pc = some v) (working : Working K T₀ s n v)
    (in_step : InStep K s n pc) (page : OnPage K s n pc) : Stands K T₀ s pc := by
  constructor
  · rintro rfl
    cases here
  · intro v' runs
    cases here.symm.trans runs
    exact ⟨n, working, in_step, page⟩

theorem working_enter {cp : SyncCheckpoint} (good : Good K T₀ (stored s) (cpPoint cp))
    (le : (keptPoint s.syncState).2.1 ≤ cp.lastPage) :
    ∃ n, Working K T₀ s n (enter cp) ∧ cpPoint cp = K.point n := by
  obtain ⟨n, bound, at_n, leads⟩ := good
  have page : cp.lastPage = n := congrArg (fun p : Point => p.2.1) at_n
  refine ⟨n, ⟨bound, at_n, ?_, leads, page ▸ le⟩, at_n⟩
  rw [← at_n]
  unfold enter
  dsimp only
  split <;> rfl

theorem Safe.saved (safe : Safe K T₀ s) (working : Working K T₀ s n v)
    (in_step : ∀ cp ∈ s.store, cpPoint cp = K.point n) (ok : r.dbOk = true) :
    Safe K T₀ (saveCheckpoint s r.dbOk v.cp) ∧
      Working K T₀ (saveCheckpoint s r.dbOk v.cp) n v := by
  have kept : keptPoint (saveCheckpoint s r.dbOk v.cp).syncState = K.point n := by
    rw [ok]
    exact working.cp
  have good : Good K T₀ (stored s) (K.point n) := ⟨n, working.bound, rfl, working.leads⟩
  refine ⟨⟨safe.again, ?_, fun cp mem => ⟨(safe.memory cp mem).1, ?_⟩⟩, ?_⟩
  · rw [kept]
    exact good
  · have page : cp.lastPage = n := congrArg (fun p : Point => p.2.1) (in_step cp mem)
    rw [kept, page, PagedCatalogue.point_page]
  · refine ⟨working.bound, working.vars, working.cp, working.leads, ?_⟩
    rw [kept, PagedCatalogue.point_page]

theorem Safe.wrote (safe : Safe K T₀ s) (working : Working K T₀ s n v)
    (in_step : ∀ cp ∈ s.store, cpPoint cp = K.point n) (lt : n < K.pages)
    (ok : committed (K.detailsAt n) r = true) :
    Safe K T₀ (upsertProducts s r.dbOk (K.detailsAt n)) ∧
      Working K T₀ (upsertProducts s r.dbOk (K.detailsAt n)) (n + 1)
        (advance v (K.pageAt n) (K.detailsAt n)) := by
  have table : stored (upsertProducts s r.dbOk (K.detailsAt n)) =
      overlay OzonProduct.id (stored s) (K.batch n) := stored_upsertProducts ok
  have next : (K.pageAt n).lastId = K.cursor (n + 1) := K.follows n lt
  have total : v.total = K.synced n := congrArg (fun p : Point => p.2.2) working.vars
  have page : v.page = n := congrArg (fun p : Point => p.2.1) working.vars
  have point : ((K.pageAt n).lastId, v.page + 1, v.total + (K.detailsAt n).length) =
      K.point (n + 1) := by
    rw [PagedCatalogue.point, K.synced_succ, next, total, page, Int.natCast_succ]
  refine ⟨⟨?_, ?_, fun cp mem => ⟨?_, (safe.memory cp mem).2⟩⟩, lt, point, point, ?_, ?_⟩
  · rw [table]
    exact leads_again safe.again (Nat.zero_le n) lt
  · rw [table]
    exact safe.row.again working.row lt
  · have at_n : cp.lastPage = n := congrArg (fun p : Point => p.2.1) (in_step cp mem)
    rw [table]
    exact (safe.memory cp mem).1.again at_n.le lt
  · rw [table]
    exact leads_next working.leads lt
  · exact working.row.trans (Int.ofNat_le.mpr (Nat.le_succ n))

theorem Safe.remembered (safe : Safe K T₀ s) (working : Working K T₀ s n v) :
    Safe K T₀ { s with store := some v.cp } := by
  refine ⟨safe.again, safe.row, fun cp mem => ?_⟩
  obtain rfl := Option.some.inj mem
  have at_n : v.cp.lastPage = n := congrArg (fun p : Point => p.2.1) working.cp
  exact ⟨⟨n, working.bound, working.cp, working.leads⟩, at_n ▸ working.row⟩

private theorem stands_afterListing (working : Working K T₀ s n v)
    (in_step : ∀ cp ∈ s.store, cpPoint cp = K.point n) :
    Stands K T₀ s (afterListing v (K.pageAt n)) := by
  unfold afterListing
  split
  · rename_i empty
    exact stands_at rfl working in_step (Or.inl ((empty_iff working.bound).mp empty))
  · rename_i full
    rw [empty_iff working.bound] at full
    exact stands_at rfl working in_step ⟨rfl, lt_of_le_of_ne working.bound full⟩

theorem cpPoint_sendProgress (s : Shared) (clock : Clock) (processed total : Int) (status : String)
    (cp : SyncCheckpoint) :
    cpPoint (sendProgress conf clock processed total status s cp).2 = cpPoint cp := by
  unfold sendProgress percentPasses
  dsimp only
  repeat' split
  all_goals rfl

theorem cpPoint_loadCheckpoint (ok : r.dbOk = true) :
    cpPoint (loadCheckpoint s r.dbOk) = keptPoint s.syncState := by
  rw [ok]
  cases row : s.syncState <;> simp only [loadCheckpoint, row] <;> rfl

theorem Working.sent (working : Working K T₀ s n v) (clock : Clock) (processed total : Int) (status : String) :
    Working K T₀ (sendProgress conf clock processed total status s v.cp).1 n
      { v with cp := (sendProgress conf clock processed total status s v.cp).2 } :=
  ⟨working.bound, working.vars,
    (cpPoint_sendProgress s clock processed total status v.cp).trans working.cp, working.leads,
    working.row⟩

private theorem safe_sent (safe : Safe K T₀ s) (clock : Clock) (processed total : Int) (status : String)
    (cp : SyncCheckpoint) : Safe K T₀ (sendProgress conf clock processed total status s cp).1 :=
  ⟨safe.again, safe.row, safe.memory⟩

private theorem stands_read (safe : Safe K T₀ s) (stands : Stands K T₀ s pc) (ok : r.dbOk = true)
    (reads : pc = .readStore ∨ pc = .loadCheckpoint)
    (stepped : runStep conf i s pc r = some (s', pc')) : Safe K T₀ s' ∧ Stands K T₀ s' pc' := by
  rcases reads with rfl | rfl
  · obtain ⟨rfl, rfl⟩ := Prod.mk.inj (Option.some.inj stepped)
    refine ⟨safe, ?_⟩
    cases stored : s.store with
    | none => exact ⟨fun _ => stored, fun _ runs => nomatch runs⟩
    | some cp =>
        obtain ⟨good, le⟩ := safe.memory cp stored
        obtain ⟨n, working, at_n⟩ := working_enter good le
        refine stands_at rfl working (fun other mem => ?_) trivial
        cases stored.symm.trans mem
        exact at_n
  · obtain ⟨rfl, rfl⟩ := Prod.mk.inj (Option.some.inj stepped)
    have empty := stands.load rfl
    have same : cpPoint (loadCheckpoint s r.dbOk) = keptPoint s.syncState :=
      cpPoint_loadCheckpoint ok
    have page : (loadCheckpoint s r.dbOk).lastPage = (keptPoint s.syncState).2.1 :=
      congrArg (fun p : Point => p.2.1) same
    obtain ⟨n, working, -⟩ := working_enter (same ▸ safe.row) page.ge
    refine ⟨safe, stands_at rfl working (fun cp mem => ?_) trivial⟩
    rw [empty] at mem
    cases mem

theorem run_stands (stepped : runStep conf i s pc r = some (s', pc'))
    (served : ServedAt conf K s pc r) (safe : Safe K T₀ s) (stands : Stands K T₀ s pc) :
    Safe K T₀ s' ∧ Stands K T₀ s' pc' := by
  cases pc
  case readStore => exact stands_read safe stands served.database (Or.inl rfl) stepped
  case loadCheckpoint => exact stands_read safe stands served.database (Or.inr rfl) stepped
  all_goals
    simp only [runStep, Option.some.injEq, Prod.mk.injEq, reduceCtorEq] at stepped
  case queued =>
    split at stepped
    · split at stepped <;> cases stepped
      exact ⟨⟨safe.again, safe.row, safe.memory⟩, stands_outside rfl (by simp)⟩
    · cases stepped
  case saveRunning v | saveRetry v =>
    obtain ⟨rfl, rfl⟩ := stepped
    obtain ⟨n, working, in_step, -⟩ := stands.runs v rfl
    obtain ⟨safe', working'⟩ := safe.saved working in_step served.database
    exact ⟨safe', stands_at rfl working' in_step trivial⟩
  case saveCheckpoint v more =>
    obtain ⟨rfl, rfl⟩ := stepped
    obtain ⟨n, working, in_step, page⟩ := stands.runs v rfl
    obtain ⟨safe', working'⟩ := safe.saved working in_step served.database
    exact ⟨safe', stands_at rfl working' in_step page⟩
  case saveFailed v | saveDone v =>
    obtain ⟨rfl, rfl⟩ := stepped
    obtain ⟨n, working, in_step, -⟩ := stands.runs v rfl
    exact ⟨(safe.saved working in_step served.database).1, stands_outside rfl (by simp)⟩
  case checkStop v =>
    obtain ⟨rfl, rfl⟩ := stepped
    obtain ⟨n, working, in_step, -⟩ := stands.runs v rfl
    refine ⟨safe, ?_⟩
    split
    · rename_i stopped
      exact stands_at rfl working in_step (Or.inr stopped)
    · exact stands_at rfl working in_step trivial
  case fetchPage v =>
    obtain ⟨n, working, in_step, -⟩ := stands.runs v rfl
    have cursor : v.lastId = K.cursor n := congrArg Prod.fst working.vars
    split at stepped
    · obtain ⟨rfl, rfl⟩ := Prod.mk.inj (Option.some.inj stepped)
      have retries : Working K T₀ s n { v with
          consecutiveFailures := v.consecutiveFailures + 1
          cp := { v.cp with lastStatus := "retry" } } :=
        ⟨working.bound, working.vars, working.cp, working.leads, working.row⟩
      exact ⟨safe, stands_at rfl retries in_step trivial⟩
    · rename_i answered
      have page : fetchPageCursor conf.pageSize r.http = K.pageAt n :=
        (served.answered.resolve_left answered).trans (congrArg _ cursor)
      rw [page] at stepped
      have answered' : Working K T₀ s n { v with consecutiveFailures := 0 } :=
        ⟨working.bound, working.vars, working.cp, working.leads, working.row⟩
      split at stepped
      · obtain ⟨rfl, rfl⟩ := Prod.mk.inj (Option.some.inj stepped)
        refine ⟨safe, stands_at rfl ?_ in_step rfl⟩
        exact ⟨working.bound, working.vars, working.cp, working.leads, working.row⟩
      · obtain ⟨rfl, rfl⟩ := Prod.mk.inj (Option.some.inj stepped)
        exact ⟨safe, stands_afterListing answered' in_step⟩
  case sendRetry v =>
    obtain ⟨rfl, rfl⟩ := stepped
    obtain ⟨n, working, in_step, -⟩ := stands.runs v rfl
    have sent := working.sent r.clock v.total v.cp.totalExpected "retry"
    refine ⟨safe_sent safe .., ?_⟩
    split
    · refine stands_at rfl ?_ in_step trivial
      exact ⟨sent.bound, sent.vars, sent.cp, sent.leads, sent.row⟩
    · exact stands_at rfl sent in_step trivial
  case sendTotal v page =>
    obtain ⟨rfl, rfl⟩ := stepped
    obtain ⟨n, working, in_step, rfl⟩ := stands.runs v rfl
    have sent := working.sent r.clock v.total v.cp.totalExpected "running"
    exact ⟨safe_sent safe .., stands_afterListing sent in_step⟩
  case fetchInfo v page =>
    obtain ⟨rfl, rfl⟩ := stepped
    obtain ⟨n, working, in_step, at_n, lt⟩ := stands.runs v rfl
    exact ⟨safe, stands_at rfl working in_step ⟨at_n, lt, served.answered⟩⟩
  case fetchPrices v page named =>
    obtain ⟨rfl, rfl⟩ := stepped
    obtain ⟨n, working, in_step, at_n, lt, rfl⟩ := stands.runs v rfl
    exact ⟨safe, stands_at rfl working in_step ⟨at_n, lt, served.answered⟩⟩
  case upsertPage v page details =>
    obtain ⟨rfl, rfl⟩ := stepped
    obtain ⟨n, working, in_step, rfl, lt, rfl⟩ := stands.runs v rfl
    obtain ⟨safe', working'⟩ := safe.wrote working in_step lt (K.writes lt served.database)
    exact ⟨safe', stands_at rfl working' trivial (last_of_hasMore lt)⟩
  case setStore v more =>
    obtain ⟨rfl, rfl⟩ := stepped
    obtain ⟨n, working, -, page⟩ := stands.runs v rfl
    refine ⟨safe.remembered working, stands_at rfl ?_ (fun cp mem => ?_) page⟩
    · exact ⟨working.bound, working.vars, working.cp, working.leads, working.row⟩
    · cases mem
      exact working.cp
  case sendRunning v more =>
    obtain ⟨rfl, rfl⟩ := stepped
    obtain ⟨n, working, in_step, page⟩ := stands.runs v rfl
    have sent := working.sent r.clock v.total v.cp.totalExpected "running"
    refine ⟨safe_sent safe .., ?_⟩
    cases more
    · exact stands_at rfl sent in_step (Or.inl (page rfl))
    · exact stands_at rfl sent in_step trivial
  case checkStopAtEnd v =>
    obtain ⟨rfl, rfl⟩ := stepped
    obtain ⟨n, working, in_step, page⟩ := stands.runs v rfl
    refine ⟨safe, ?_⟩
    split
    · exact stands_outside rfl (by simp)
    · rename_i not_stopped
      refine stands_at rfl ?_ in_step (page.resolve_right not_stopped)
      exact ⟨working.bound, working.vars, working.cp, working.leads, working.row⟩
  case readDoneJob | readJobToFail =>
    obtain ⟨rfl, rfl⟩ := stepped
    refine ⟨safe, ?_⟩
    split <;> exact stands_outside rfl (by simp)
  all_goals
    obtain ⟨rfl, rfl⟩ := stepped
    exact ⟨⟨safe.again, safe.row, safe.memory⟩, stands_outside rfl (by simp)⟩

structure Beside (s s' : Shared) (pc' : Pc) : Prop where
  products : s'.products = s.products
  row : keptPoint s'.syncState = keptPoint s.syncState ∨ keptPoint s'.syncState = ("", 0, 0)
  store : s'.store = s.store ∨ s'.store = none
  place : vars? pc' = none ∧ pc' ≠ .loadCheckpoint

private theorem trigger_store (stepped : triggerStep i s pc r = some (s', pc')) :
    (s'.store = s.store ∨ s'.store = none) ∧ vars? pc' = none ∧ pc' ≠ .loadCheckpoint := by
  cases pc <;> simp only [triggerStep, Option.some.injEq, Prod.mk.injEq, reduceCtorEq] at stepped
  case claimRunning | submit => split at stepped <;> cases stepped <;> simp [vars?]
  all_goals
    obtain ⟨rfl, rfl⟩ := stepped
    try split
    all_goals simp [vars?, resetCheckpoint, updateRuns]

private theorem control_store (stepped : controlStep s pc r = some (s', pc')) :
    (s'.store = s.store ∨ s'.store = none) ∧ vars? pc' = none ∧ pc' ≠ .loadCheckpoint := by
  cases pc <;> simp only [controlStep, Option.some.injEq, Prod.mk.injEq, reduceCtorEq] at stepped
  case requestShutdown => split at stepped <;> cases stepped <;> simp [vars?]
  all_goals
    obtain ⟨rfl, rfl⟩ := stepped
    try split
    all_goals simp [vars?, updateCheckpointStatus, updateRuns]

private theorem keptPoint_rowAfter (idle : executing pc = false) (dbOk : Bool)
    (row : Option SyncStateRow) :
    keptPoint (rowAfter pc dbOk row) = keptPoint row ∨
      keptPoint (rowAfter pc dbOk row) = ("", 0, 0) := by
  cases dbOk with
  | false => exact Or.inl rfl
  | true =>
      cases pc <;> try (cases idle; done)
      case fullResetCheckpoint => cases row <;> exact Or.inr rfl
      case stopStatus => cases row <;> exact Or.inl rfl
      all_goals exact Or.inl rfl

theorem step_beside (idle : executing pc = false)
    (stepped : (service conf).step i s pc r = some (s', pc')) : Beside s s' pc' := by
  have products := (step_keeps stepped).1 fun v page details here => by
    rw [here] at idle
    cases idle
  have row : keptPoint s'.syncState = keptPoint s.syncState ∨
      keptPoint s'.syncState = ("", 0, 0) := by
    rw [(step_moves stepped).row]
    exact keptPoint_rowAfter idle r.dbOk s.syncState
  rcases service_step stepped with trigger | run | control
  · obtain ⟨store, place⟩ := trigger_store trigger
    exact ⟨products, row, store, place⟩
  · rw [(run_places run).1] at idle
    cases idle
  · obtain ⟨store, place⟩ := control_store control
    exact ⟨products, row, store, place⟩

theorem Beside.row_le (beside : Beside s s' pc') {m : Int} (le : (keptPoint s.syncState).2.1 ≤ m)
    (nonneg : 0 ≤ m) : (keptPoint s'.syncState).2.1 ≤ m := by
  rcases beside.row with same | start
  · rw [same]
    exact le
  · rw [start]
    exact nonneg

theorem Beside.stored_eq (beside : Beside s s' pc') : stored s' = stored s := by
  unfold stored
  rw [beside.products]

theorem Beside.mem_store (beside : Beside s s' pc') {cp : SyncCheckpoint} (mem : cp ∈ s'.store) :
    cp ∈ s.store := by
  rcases beside.store with same | removed
  · exact same ▸ mem
  · rw [removed] at mem
    cases mem

theorem Safe.beside (safe : Safe K T₀ s) (beside : Beside s s' pc') : Safe K T₀ s' := by
  have start : Good K T₀ (stored s) ("", 0, 0) :=
    ⟨0, Nat.zero_le _, K.point_zero.symm, safe.again⟩
  refine ⟨?_, ?_, fun cp mem => ?_⟩
  · rw [beside.stored_eq]
    exact safe.again
  · rw [beside.stored_eq]
    rcases beside.row with same | reset
    · exact same ▸ safe.row
    · exact reset ▸ start
  · obtain ⟨good, le⟩ := safe.memory cp (beside.mem_store mem)
    rw [beside.stored_eq]
    refine ⟨good, beside.row_le le ?_⟩
    obtain ⟨n, -, at_n, -⟩ := good
    have page : cp.lastPage = n := congrArg (fun p : Point => p.2.1) at_n
    exact page ▸ Int.natCast_nonneg n

theorem Stands.beside {other : Pc} (stands : Stands K T₀ s pc) (beside : Beside s s' other)
    (stop : s.ozonStop = true → s'.ozonStop = true) : Stands K T₀ s' pc := by
  refine ⟨fun load => ?_, fun v runs => ?_⟩
  · rcases beside.store with same | removed
    · exact same.trans (stands.load load)
    · exact removed
  · obtain ⟨n, working, in_step, page⟩ := stands.runs v runs
    refine ⟨n, ⟨working.bound, working.vars, working.cp, ?_, ?_⟩, ?_, ?_⟩
    · rw [beside.stored_eq]
      exact working.leads
    · exact beside.row_le working.row (Int.natCast_nonneg n)
    · cases pc <;> first | exact in_step | exact fun cp mem => in_step cp (beside.mem_store mem)
    · cases pc
      case checkStopAtEnd => exact page.imp_right stop
      all_goals exact page

end Steps

end Scand.Ozon.ResumePoints
