/- path: Scand/InventoryPull/StatusEndpoint
   layer: results
   digest: GET /api/1c/inventory-pulls/status and GET /api/sync/last-run: what they answer after a restart,
   when no snapshot is in memory and the run history is all they have. -/

import Scand.InventoryPull.Events
import Scand.Store.RunHistory

set_option autoImplicit false
set_option relaxedAutoImplicit false

namespace Scand.InventoryPull.StatusEndpoint

open Scand.Foundation.JsonValue
open Scand.InventoryPull.Events
open Scand.Store.SyncRuns (RunStatus RunCounts)
open Scand.Store.RunHistory

def putCount (key : String) (n : Int) (obj : Fields) : Fields :=
  if n = 0 then obj else setField obj key (.int64 n)

def putText (key s : String) (obj : Fields) : Fields :=
  if s = "" then obj else setField obj key (.string s)

def putCounts (counts : RunCounts) (obj : Fields) : Fields :=
  putCount "costs_accepted" counts.costsAccepted <|
  putCount "stocks_accepted" counts.stocksAccepted <|
  putCount "costs" counts.costs <|
  putCount "stocks" counts.stocks <|
  putCount "warehouses" counts.warehouses <|
  putCount "conflicts" counts.conflicts <|
  putCount "migrated" counts.migrated <|
  putCount "accepted" counts.accepted obj

def InventorySnapshot.counts (s : InventorySnapshot) : RunCounts where
  accepted := s.accepted
  migrated := s.migrated
  conflicts := s.conflicts
  warehouses := s.warehouses
  stocks := s.stocks
  costs := s.costs
  stocksAccepted := s.stocksAccepted
  costsAccepted := s.costsAccepted

/-- The body for the snapshot of a pull of this process. -/
def snapshotBody (s : InventorySnapshot) : Fields :=
  let obj : Fields := [("job_id", .string s.jobId), ("stage", .string s.stage),
    ("status", .string s.status), ("percent", .int64 s.percent)]
  let obj := putCounts (InventorySnapshot.counts s) <|
    putCount "total" s.total <| putCount "current" s.current obj
  let obj := putText "measured_at" s.measuredAt <| putText "error" s.error obj
  setField obj "stages" (.object (s.stages.map fun (stage, state) => (stage, .string state)))

def statusText : RunStatus → String
  | .running => "running"
  | .done => "done"
  | .failed => "failed"
  | .interrupted => "interrupted"

/-- The state that the body of a record gives to all four stages. -/
def stageState : RunStatus → String
  | .done => "done"
  | .failed => "failed"
  | _ => "pending"

def defaultStage : RunStatus → String
  | .done => "done"
  | .failed => "error"
  | _ => "start"

def recordBody (r : SyncRunRecord) : Fields :=
  let obj : Fields := [("job_id", .string r.jobId),
    ("stage", .string (if r.stage = "" then defaultStage r.status else r.stage)),
    ("status", .string (statusText r.status)),
    ("percent", .int64 (if r.status = .done then 100 else 0))]
  let obj := putText "error" r.error (putCounts r.counts obj)
  setField obj "stages" (.object (stageOrder.map fun stage => (stage, .string (stageState r.status))))

def noStage : Fields := [("stage", .null)]

/-- `GET /api/1c/inventory-pulls/status`: a query that throws is treated as one without a row. -/
def pullStatus (snapshot : Option InventorySnapshot)
    (lastRun : Except ConversionError (Option SyncRunRecord)) : Fields :=
  match snapshot with
  | some s => snapshotBody s
  | none =>
      match lastRun with
      | .ok (some r) => recordBody r
      | _ => noStage

/-- `GET /api/sync/last-run`: the status and the body of the response. -/
def lastRunResponse (what : ConversionError → String) :
    Except ConversionError (Option SyncRunRecord) → Nat × Fields
  | .error e => (500, [("error", .string (what e))])
  | .ok none => (200, [("found", .bool false)])
  | .ok (some r) => (200, [
      ("found", .bool true), ("id", .int64 r.id), ("source", .string r.source),
      ("job_id", .string r.jobId), ("status", .string (statusText r.status)),
      ("stage", .string r.stage), ("started_at", .string r.startedAt),
      ("finished_at", .string r.finishedAt), ("duration_ms", .int64 r.durationMs), ("accepted", .int64 r.counts.accepted),
      ("stocks_accepted", .int64 r.counts.stocksAccepted),
      ("costs_accepted", .int64 r.counts.costsAccepted), ("error", .string r.error)])

section Bodies

variable {k : String} {obj : Fields}

theorem lookup_putCount {key : String} (other : k ≠ key) (n : Int) :
    (putCount key n obj).lookup k = obj.lookup k := by
  unfold putCount
  split
  · rfl
  · rw [lookup_setField, if_neg other]

theorem lookup_putText {key : String} (other : k ≠ key) (s : String) :
    (putText key s obj).lookup k = obj.lookup k := by
  unfold putText
  split
  · rfl
  · rw [lookup_setField, if_neg other]

def countKeys : List String :=
  ["accepted", "migrated", "conflicts", "warehouses", "stocks", "costs", "stocks_accepted",
    "costs_accepted"]

theorem lookup_putCounts (other : k ∉ countKeys) (counts : RunCounts) :
    (putCounts counts obj).lookup k = obj.lookup k := by
  simp only [countKeys, List.mem_cons, List.not_mem_nil, not_or, or_false] at other
  obtain ⟨h₁, h₂, h₃, h₄, h₅, h₆, h₇, h₈⟩ := other
  unfold putCounts
  rw [lookup_putCount h₈, lookup_putCount h₇, lookup_putCount h₆, lookup_putCount h₅,
    lookup_putCount h₄, lookup_putCount h₃, lookup_putCount h₂, lookup_putCount h₁]

theorem recordBody_members (r : SyncRunRecord) :
    (recordBody r).lookup "job_id" = some (.string r.jobId) ∧
    (recordBody r).lookup "status" = some (.string (statusText r.status)) ∧
    (recordBody r).lookup "percent" = some (.int64 (if r.status = .done then 100 else 0)) ∧
    (recordBody r).lookup "stages" =
      some (.object (stageOrder.map fun stage => (stage, .string (stageState r.status)))) := by
  have kept : ∀ k, k ∉ countKeys → k ≠ "error" → k ≠ "stages" → (recordBody r).lookup k =
      List.lookup k [("job_id", Json.string r.jobId),
        ("stage", .string (if r.stage = "" then defaultStage r.status else r.stage)),
        ("status", .string (statusText r.status)),
        ("percent", .int64 (if r.status = .done then 100 else 0))] := by
    intro k uncounted no_error no_stages
    rw [recordBody, lookup_setField, if_neg no_stages, lookup_putText no_error,
      lookup_putCounts uncounted]
  refine ⟨?_, ?_, ?_, ?_⟩
  · rw [kept _ (by decide) (by decide) (by decide)]
    rfl
  · rw [kept _ (by decide) (by decide) (by decide)]
    rfl
  · rw [kept _ (by decide) (by decide) (by decide)]
    rfl
  · rw [recordBody, lookup_setField, if_pos rfl]

end Bodies

def restart (now : Nat) : Entry where
  tenantId := 1
  now := now
  call := .markInterrupted "inventory_pull" "service restarted"

abbrev pulls (history : List Entry) : List Started := runsOf 1 "inventory_pull" history

abbrev pullEnding (run : Started) : RunStatus := run.ending 1 "inventory_pull"

abbrev newestPull (stampText : Nat → String) (history : List Entry) :
    Except ConversionError (Option SyncRunRecord) :=
  lastRun stampText 1 "inventory_pull" (runs history)

section Restart

variable {now : Nat} {after : List Entry}

theorem ending_restart (run : Started)
    (foreign : ∀ e ∈ after, settles 1 "inventory_pull" run.jobId e = false) :
    pullEnding (run.extend (restart now :: after)) =
      if pullEnding run = .running then .interrupted else pullEnding run := by
  have unsettled : ∀ e ∈ restart now :: after, settles 1 "inventory_pull" run.jobId e = false := by
    intro e mem
    rcases List.mem_cons.mp mem with rfl | mem
    · rfl
    · exact foreign e mem
  have marks : (restart now :: after).find? (closes 1 "inventory_pull") = some (restart now) := rfl
  have final := (run.shows 1 "inventory_pull").final
  rw [pullEnding, Started.ending_eq, Started.decided]
  simp only [Started.extend]
  rw [decides_append run.later unsettled, marks, pullEnding, Started.ending_eq]
  change ((run.decided 1 "inventory_pull").or _ |>.map _).getD _ = _
  cases decided : run.decided 1 "inventory_pull" with
  | none => rfl
  | some e => simp [final e decided]

theorem pulls_restart (before : List Entry)
    (none_started : ∀ e ∈ after, startOf 1 "inventory_pull" e = none) :
    (pulls (before ++ restart now :: after)).getLast? =
      (pulls before).getLast?.map (·.extend (restart now :: after)) := by
  have nothing : runsOf 1 "inventory_pull" (restart now :: after) = [] := by
    refine runsOf_eq_nil ?_
    intro e mem
    rcases List.mem_cons.mp mem with rfl | mem
    · rfl
    · exact none_started e mem
  rw [pulls, runsOf_append, nothing, List.append_nil, List.getLast?_map]

end Restart

/-- What the two endpoints say of a run that is done or failed. -/
structure Told (run : Started) (status : RunStatus) (body : Fields) (response : Nat × Fields) :
    Prop where
  job : body.lookup "job_id" = some (.string run.jobId)
  state : body.lookup "status" = some (.string (statusText status))
  percent : body.lookup "percent" = some (.int64 (if status = .done then 100 else 0))
  stages : body.lookup "stages" =
    some (.object (stageOrder.map fun stage => (stage, .string (stageState status))))
  found : response.1 = 200
  jobFound : response.2.lookup "job_id" = some (.string run.jobId)
  statusFound : response.2.lookup "status" = some (.string (statusText status))

/-- From a restart to the next pull, the endpoints tell how the last pull ended, unless the restart or
an earlier one cut it off: then the status has no stage, as if there had been no pull, and the last
run is an internal error. -/
theorem status_after_restart (what : ConversionError → String) (stampText : Nat → String)
    (before after : List Entry) (now : Nat)
    (none_started : ∀ e ∈ after, startOf 1 "inventory_pull" e = none)
    (foreign : ∀ run ∈ pulls before, ∀ e ∈ after,
      settles 1 "inventory_pull" run.jobId e = false) :
    let answer := newestPull stampText (before ++ restart now :: after)
    let body := pullStatus none answer
    let response := lastRunResponse what answer
    match (pulls before).getLast? with
    | none => body = noStage ∧ response = (200, [("found", .bool false)])
    | some run =>
        if pullEnding run = .running ∨ pullEnding run = .interrupted then
          body = noStage ∧ response = (500, [("error", .string (what .unexpectedNull))])
        else Told run (pullEnding run) body response := by
  intro answer body response
  have answers := last_run_of_history stampText 1 "inventory_pull" (before ++ restart now :: after)
  rw [← pulls, pulls_restart before none_started] at answers
  cases newest : (pulls before).getLast? with
  | none =>
      rw [newest] at answers
      have same : answer = .ok none := answers
      exact ⟨by simp only [body, same]; rfl, by simp only [response, same]; rfl⟩
  | some run =>
      rw [newest] at answers
      have ends : pullEnding (run.extend (restart now :: after)) =
          if pullEnding run = .running then .interrupted else pullEnding run :=
        ending_restart run (foreign run (List.mem_of_getLast? newest))
      simp only [Option.map_some] at answers
      rcases answers with ⟨throws, unfinished⟩ | ⟨e, r, decided, finished, found, reports⟩
      · have cut : pullEnding run = .running ∨ pullEnding run = .interrupted := by
          rw [← pullEnding, ends] at unfinished
          by_cases running : pullEnding run = .running
          · exact Or.inl running
          · rw [if_neg running] at unfinished
            exact unfinished
        have same : answer = .error .unexpectedNull := throws
        dsimp only
        rw [if_pos cut]
        exact ⟨by simp only [body, same]; rfl, by simp only [response, same]; rfl⟩
      · have told : pullEnding (run.extend (restart now :: after)) = r.status := by
          rw [pullEnding, Started.ending_eq, decided, reports.status]
          rfl
        rw [← pullEnding, told] at finished
        rw [told] at ends
        have whole : ¬ (pullEnding run = .running ∨ pullEnding run = .interrupted) := by
          rintro (running | interrupted)
          · rw [if_pos running] at ends
            rw [ends] at finished
            simp at finished
          · rw [interrupted] at ends
            rw [ends] at finished
            simp at finished
        have status : r.status = pullEnding run := by
          rw [ends, if_neg fun running => whole (Or.inl running)]
        have same : answer = .ok (some r) := found
        dsimp only
        rw [if_neg whole]
        obtain ⟨job, state, percent, stages⟩ := recordBody_members r
        rw [reports.job] at job
        rw [status] at state percent stages
        have shown : body = recordBody r := by simp only [body, same, pullStatus]
        refine ⟨shown ▸ job, shown ▸ state, shown ▸ percent, shown ▸ stages, ?_, ?_, ?_⟩
        · simp only [response, same, lastRunResponse]
        · simp only [response, same, lastRunResponse, reports.job]
          rfl
        · simp only [response, same, lastRunResponse, status]
          rfl

section Sample

def cutOff : List Entry := [
  ⟨1, 0, .start "inventory_pull" "pull-1"⟩,
  ⟨1, 1500, .finishDone "inventory_pull" "pull-1" {}⟩,
  ⟨1, 2000, .start "inventory_pull" "pull-2"⟩]

def otherRuns : List Entry := [
  ⟨1, 4000, .start "ozon" "ozon-1"⟩,
  ⟨1, 5000, .finishFailed "ozon" "ozon-1" "timeout" "error"⟩]

theorem status_after_restart_cutOff :
    pullStatus none (newestPull toString (cutOff ++ restart 3000 :: otherRuns)) = noStage ∧
    (lastRunResponse (fun _ => "null")
      (newestPull toString (cutOff ++ restart 3000 :: otherRuns))).1 = 500 := by
  have told := status_after_restart (fun _ => "null") toString cutOff otherRuns 3000
    (by decide) (by decide)
  have newest : (pulls cutOff).getLast? = some ⟨2000, "pull-2", []⟩ := rfl
  have running : pullEnding ⟨2000, "pull-2", []⟩ = .running := rfl
  simp only [newest, running, true_or, if_true] at told
  exact ⟨told.1, congrArg Prod.fst told.2⟩

end Sample

end Scand.InventoryPull.StatusEndpoint
