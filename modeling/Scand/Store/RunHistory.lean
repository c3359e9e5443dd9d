/- path: Scand/Store/RunHistory
   layer: results
   digest: What last_run and last_success return after any history of sync_runs: the newest run once it
   has a stage, and the run that ended last with success. -/

import Scand.Foundation.RowLog
import Scand.Store.SyncRuns
import Mathlib.Data.List.Induction
import Mathlib.Order.WithBot

set_option autoImplicit false
set_option relaxedAutoImplicit false

namespace Scand.Store.RunHistory

open Scand.Foundation.RowLog
open Scand.Foundation.RowUpdate
open Scand.Store.SyncRuns

/-- A row with its two time stamps, in microseconds; `finished_at` is `⊥` where it is NULL. -/
structure StampedRun extends SyncRun where
  startedAt : Nat
  finishedAt : WithBot Nat := ⊥
  deriving DecidableEq

/-- The calls that write to the table, each in a transaction of its own. -/
inductive Call
  | start (source jobId : String)
  | finishDone (source jobId : String) (counts : RunCounts)
  | finishFailed (source jobId error stage : String)
  | abandonRunning (source reason : String)
  | markInterrupted (source reason : String)

structure Entry where
  tenantId : Int
  now : Nat
  call : Call

def Call.hits (tenantId : Int) (row : SyncRun) : Call → Bool
  | .start _ _ => false
  | .finishDone source jobId _ => ofJob tenantId source jobId row
  | .finishFailed source jobId _ _ => ofJob tenantId source jobId row
  | .abandonRunning source _ => runningOf tenantId source row
  | .markInterrupted source _ => runningOf tenantId source row

def Call.set (row : SyncRun) : Call → SyncRun
  | .start _ _ => row
  | .finishDone _ _ counts => { row with status := .done, stage := some "done", counts := counts }
  | .finishFailed _ _ error stage =>
      { row with status := .failed, stage := some stage, error := some error }
  | .abandonRunning _ reason =>
      { row with
        status := .failed
        stage := keepNonEmpty row.stage "error"
        error := keepNonEmpty row.error reason }
  | .markInterrupted _ reason =>
      { row with status := .interrupted, error := keepNonEmpty row.error reason }

def Entry.stamp (e : Entry) (row : StampedRun) : StampedRun :=
  { row with toSyncRun := e.call.set row.toSyncRun, finishedAt := WithBot.some e.now }

def Entry.change (e : Entry) (row : StampedRun) : StampedRun :=
  if e.call.hits e.tenantId row.toSyncRun then e.stamp row else row

def Entry.statement (e : Entry) : Statement StampedRun :=
  match e.call with
  | .start source jobId =>
      .insert { tenantId := e.tenantId, source := source, jobId := jobId, status := .running
                startedAt := e.now }
  | _ => .update e.change

def runs (history : List Entry) : List StampedRun := replay (history.map Entry.statement)

def Entry.untimed (e : Entry) (rows : List SyncRun) : List SyncRun :=
  match e.call with
  | .start source jobId => SyncRuns.start source jobId e.tenantId rows
  | .finishDone source jobId counts => finishDone e.tenantId source jobId counts rows
  | .finishFailed source jobId error stage => finishFailed e.tenantId source jobId error stage rows
  | .abandonRunning source reason => abandonRunning e.tenantId source reason rows
  | .markInterrupted source reason => markInterrupted e.tenantId source reason rows

section Untimed

private theorem change_untimed (e : Entry) (row : StampedRun) :
    (e.change row).toSyncRun =
      if e.call.hits e.tenantId row.toSyncRun then e.call.set row.toSyncRun else row.toSyncRun := by
  unfold Entry.change
  split <;> rfl

private theorem map_untimed (e : Entry) (rows : List StampedRun) :
    (rows.map e.change).map StampedRun.toSyncRun =
      updateWhere (e.call.hits e.tenantId) e.call.set (rows.map StampedRun.toSyncRun) := by
  simp only [updateWhere, List.map_map]
  refine List.map_congr_left ?_
  intro row _
  exact change_untimed e row

/-- Without its time stamps the table is the one that the repository writes. -/
theorem run_untimed (e : Entry) (rows : List StampedRun) :
    (e.statement.run rows).map StampedRun.toSyncRun =
      e.untimed (rows.map StampedRun.toSyncRun) := by
  obtain ⟨tenantId, now, call⟩ := e
  cases call with
  | start source jobId => simp [Entry.statement, Statement.run, Entry.untimed, SyncRuns.start]
  | finishDone source jobId counts => exact map_untimed _ rows
  | finishFailed source jobId error stage => exact map_untimed _ rows
  | abandonRunning source reason => exact map_untimed _ rows
  | markInterrupted source reason => exact map_untimed _ rows

end Untimed

/-- Milliseconds, as the cast of a number to BIGINT rounds them. -/
def roundedMillis (micros : Int) : Int :=
  if micros < 0 then -((-micros + 500) / 1000) else (micros + 500) / 1000

/-- `duration_ms`: every UPDATE sets it together with `finished_at`, to the time since the start. -/
def StampedRun.durationMs (row : StampedRun) : Option Int :=
  row.finishedAt.recBotCoe none fun finished =>
    some (roundedMillis ((finished : Int) - row.startedAt))

structure SyncRunRecord where
  id : Nat
  source : String
  jobId : String
  status : RunStatus
  stage : String
  startedAt : String
  finishedAt : String
  durationMs : Int
  counts : RunCounts
  error : String

/-- `as<std::string>()` of a column that is NULL. -/
inductive ConversionError
  | unexpectedNull
  deriving DecidableEq

def queryOne (stampText : Nat → String) : Option (StampedRun × Nat) →
    Except ConversionError (Option SyncRunRecord)
  | none => .ok none
  | some (row, id) =>
      match row.stage with
      | none => .error .unexpectedNull
      | some stage => .ok (some {
          id := id
          source := row.source
          jobId := row.jobId
          status := row.status
          stage := stage
          startedAt := stampText row.startedAt
          finishedAt := row.finishedAt.recBotCoe "" stampText
          durationMs := row.durationMs.getD 0
          counts := row.counts
          error := row.error.getD "" })

def ofSource (tenantId : Int) (source : String) (row : StampedRun) : Bool :=
  row.tenantId = tenantId ∧ row.source = source

/-- `last_run`: the row with the largest id. -/
def lastRun (stampText : Nat → String) (tenantId : Int) (source : String) (rows : List StampedRun) :
    Except ConversionError (Option SyncRunRecord) :=
  queryOne stampText (rows.zipIdx.filter fun entry => ofSource tenantId source entry.1).getLast?

def doneRows (tenantId : Int) (source : String) (rows : List StampedRun) : List (StampedRun × Nat) :=
  rows.zipIdx.filter fun entry => ofSource tenantId source entry.1 && entry.1.status = .done

/-- `last_success`: of the rows that ended last it may be any. -/
def LastSuccess (stampText : Nat → String) (tenantId : Int) (source : String)
    (rows : List StampedRun) (answer : Except ConversionError (Option SyncRunRecord)) : Prop :=
  (doneRows tenantId source rows = [] ∧ answer = queryOne stampText none) ∨
  ∃ first ∈ doneRows tenantId source rows,
    (∀ other ∈ doneRows tenantId source rows, other.1.finishedAt ≤ first.1.finishedAt) ∧
    answer = queryOne stampText (some first)

/-- The calls that end the run of a job with its result. -/
def settles (tenantId : Int) (source jobId : String) (e : Entry) : Bool :=
  e.tenantId = tenantId && match e.call with
  | .finishDone other job _ => other = source && job = jobId
  | .finishFailed other job _ _ => other = source && job = jobId
  | _ => false

/-- The calls that close whatever is running. -/
def closes (tenantId : Int) (source : String) (e : Entry) : Bool :=
  e.tenantId = tenantId && match e.call with
  | .abandonRunning other _ => other = source
  | .markInterrupted other _ => other = source
  | _ => false

/-- The call that a run shows, of those after its start: the last one that settled it, and the first
one that closed it where none did. -/
def decides (tenantId : Int) (source jobId : String) (later : List Entry) : Option Entry :=
  (later.filter (settles tenantId source jobId)).getLast?.or (later.find? (closes tenantId source))

def Call.status : Call → RunStatus
  | .start _ _ => .running
  | .finishDone _ _ _ => .done
  | .finishFailed _ _ _ _ => .failed
  | .abandonRunning _ _ => .failed
  | .markInterrupted _ _ => .interrupted

def Call.stage : Call → Option String
  | .start _ _ => none
  | .finishDone _ _ _ => some "done"
  | .finishFailed _ _ _ stage => some stage
  | .abandonRunning _ _ => some "error"
  | .markInterrupted _ _ => none

def Call.counts : Call → Option RunCounts
  | .finishDone _ _ counts => some counts
  | _ => none

/-- The error that a run shows with a call: a success leaves the one that is there. -/
def Call.error : Call → Option String
  | .finishFailed _ _ error _ => some error
  | .abandonRunning _ reason => some reason
  | .markInterrupted _ reason => some reason
  | _ => none

/-- The status that the calls after its start leave a run in. -/
def ending (tenantId : Int) (source jobId : String) (later : List Entry) : RunStatus :=
  ((decides tenantId source jobId later).map fun e => e.call.status).getD .running

section Advance

variable {tenantId : Int} {source jobId : String} {row : StampedRun} {later : List Entry} {e : Entry}

theorem decides_snoc (later : List Entry) (e : Entry) :
    decides tenantId source jobId (later ++ [e]) =
      if settles tenantId source jobId e then some e
      else (decides tenantId source jobId later).or (Option.guard (closes tenantId source) e) := by
  unfold decides
  by_cases settled : settles tenantId source jobId e = true
  · simp [settled, List.filter_append]
  · simp only [settled, List.filter_append, List.find?_append, Bool.false_eq_true, if_false,
      List.filter_cons, List.filter_nil, List.append_nil, Option.or_assoc]
    congr 2
    by_cases closed : closes tenantId source e = true <;> simp [closed, Option.guard]

def started (tenantId : Int) (now : Nat) (source jobId : String) : StampedRun where
  tenantId := tenantId
  source := source
  jobId := jobId
  status := .running
  startedAt := now

/-- What the row of a run shows when a call has decided on it, or none has. -/
structure Shows (tenantId : Int) (now : Nat) (source jobId : String) (row : StampedRun)
    (decided : Option Entry) : Prop where
  tenant : row.tenantId = tenantId
  ofIts : row.source = source
  job : row.jobId = jobId
  began : row.startedAt = now
  untouched : decided = none → row = started tenantId now source jobId
  final : ∀ e, decided = some e → e.call.status ≠ .running
  status : row.status = (decided.map fun e => e.call.status).getD .running
  stage : row.stage = decided.bind fun e => e.call.stage
  ended : ∀ e, decided = some e → row.finishedAt = WithBot.some e.now
  counts : ∀ done ∈ decided.bind fun e => e.call.counts, row.counts = done
  error : ∀ text ∈ decided.bind fun e => e.call.error, row.error = some text

theorem set_frame (call : Call) (row : SyncRun) :
    (call.set row).tenantId = row.tenantId ∧ (call.set row).source = row.source ∧
      (call.set row).jobId = row.jobId := by
  cases call <;> exact ⟨rfl, rfl, rfl⟩

theorem alter_own (now : Nat) (decided : Option Entry)
    (shows : Shows tenantId now source jobId row decided) :
    e.statement.alter row =
      if settles tenantId source jobId e ∨ closes tenantId source e ∧ row.status = .running
      then e.stamp row else row := by
  obtain ⟨tenant, at_, call⟩ := e
  have tenant_row := shows.tenant
  have source_row := shows.ofIts
  have job_row := shows.job
  cases call <;>
    simp only [Entry.statement, Statement.alter, Entry.change, Call.hits, settles, closes, ofJob,
      runningOf, tenant_row, source_row, job_row] <;>
    congr 1 <;> simp <;> grind

theorem closed_status (closed : closes tenantId source e = true) :
    e.call.status ≠ .running := by
  obtain ⟨tenant, at_, call⟩ := e
  cases call <;> simp [closes, Call.status] at closed ⊢

theorem settled_status (settled : settles tenantId source jobId e = true) :
    e.call.status ≠ .running := by
  obtain ⟨tenant, at_, call⟩ := e
  cases call <;> simp [settles, Call.status] at settled ⊢

theorem stamp_settled {now : Nat} {decided : Option Entry}
    (shows : Shows tenantId now source jobId row decided)
    (settled : settles tenantId source jobId e = true) :
    Shows tenantId now source jobId (e.stamp row) (some e) := by
  obtain ⟨tenant, of_its, job⟩ := set_frame e.call row.toSyncRun
  refine ⟨tenant.trans shows.tenant, of_its.trans shows.ofIts, job.trans shows.job, shows.began,
    by simp, ?_, ?_, ?_, ?_, ?_, ?_⟩
  · intro d same
    cases same
    exact settled_status settled
  all_goals
    obtain ⟨other, at_, call⟩ := e
    cases call <;> simp [settles] at settled <;>
      simp [Entry.stamp, Call.set, Call.status, Call.stage, Call.counts, Call.error]

theorem stamp_closed {now : Nat} (closed : closes tenantId source e = true) :
    Shows tenantId now source jobId (e.stamp (started tenantId now source jobId)) (some e) := by
  obtain ⟨tenant, of_its, job⟩ := set_frame e.call (started tenantId now source jobId).toSyncRun
  refine ⟨tenant, of_its, job, rfl, by simp, ?_, ?_, ?_, ?_, ?_, ?_⟩
  · intro d same
    cases same
    exact closed_status closed
  all_goals
    obtain ⟨other, at_, call⟩ := e
    cases call <;> simp [closes] at closed <;>
      simp [Entry.stamp, Call.set, Call.status, Call.stage, Call.counts, Call.error, started,
        keepNonEmpty]

theorem Shows.next {now : Nat} {decided : Option Entry}
    (shows : Shows tenantId now source jobId row decided) :
    Shows tenantId now source jobId (e.statement.alter row)
      (if settles tenantId source jobId e then some e
        else decided.or (Option.guard (closes tenantId source) e)) := by
  rw [alter_own now decided shows]
  by_cases settled : settles tenantId source jobId e = true
  · rw [if_pos (Or.inl settled), if_pos settled]
    exact stamp_settled shows settled
  · rw [if_neg settled]
    by_cases closed : closes tenantId source e = true
    · cases decided with
      | none =>
          have fresh := shows.untouched rfl
          rw [if_pos (Or.inr ⟨closed, shows.status⟩), fresh]
          simpa [Option.guard, closed] using stamp_closed closed
      | some d =>
          have not_running : row.status ≠ .running := by
            rw [shows.status]
            exact shows.final d rfl
          rw [if_neg fun met => met.elim settled fun met => not_running met.2]
          exact shows
    · rw [if_neg fun met => met.elim settled fun met => closed met.1]
      simpa [Option.guard, closed] using shows

theorem advance_shows (now : Nat) (later : List Entry) :
    Shows tenantId now source jobId
      (advance (started tenantId now source jobId) (later.map Entry.statement))
      (decides tenantId source jobId later) := by
  induction later using List.reverseRecOn with
  | nil =>
      refine ⟨rfl, rfl, rfl, rfl, fun _ => rfl, ?_, rfl, rfl, ?_, ?_, ?_⟩ <;> intro e <;> simp [decides]
  | append_singleton later e ih =>
      rw [decides_snoc, List.map_append, List.map_singleton, advance, List.foldl_append,
        List.foldl_cons, List.foldl_nil]
      exact ih.next

end Advance

structure Started where
  now : Nat
  jobId : String
  later : List Entry

def startOf (tenantId : Int) (source : String) (e : Entry) : Option String :=
  match e.call with
  | .start other jobId => if e.tenantId = tenantId ∧ other = source then some jobId else none
  | _ => none

def runsOf (tenantId : Int) (source : String) : List Entry → List Started
  | [] => []
  | e :: later =>
      ((startOf tenantId source e).map fun jobId => ⟨e.now, jobId, later⟩).toList ++
        runsOf tenantId source later

namespace Started

variable (tenantId : Int) (source : String) (run : Started)

def row : StampedRun :=
  advance (started tenantId run.now source run.jobId) (run.later.map Entry.statement)

def decided : Option Entry := decides tenantId source run.jobId run.later

def ending : RunStatus := RunHistory.ending tenantId source run.jobId run.later

theorem ending_eq : run.ending tenantId source =
    ((run.decided tenantId source).map fun e => e.call.status).getD .running := rfl

theorem shows : Shows tenantId run.now source run.jobId (run.row tenantId source)
    (run.decided tenantId source) :=
  advance_shows run.now run.later

end Started

section Table

variable {tenantId : Int} {source : String}

theorem fixes_source (history : List Entry) :
    Fixes (ofSource tenantId source) (history.map Entry.statement) := by
  intro statement mem row
  obtain ⟨e, -, rfl⟩ := List.mem_map.mp mem
  have kept : ∀ call : Call, ofSource tenantId source ({ e with call := call }.change row) =
      ofSource tenantId source row := by
    intro call
    unfold Entry.change
    split
    · obtain ⟨tenant, of_its, -⟩ := set_frame call row.toSyncRun
      simp [ofSource, Entry.stamp, tenant, of_its]
    · rfl
  obtain ⟨tenant, at_, call⟩ := e
  cases call with
  | start other jobId => rfl
  | finishDone other jobId counts => exact kept (.finishDone other jobId counts)
  | finishFailed other jobId error stage => exact kept (.finishFailed other jobId error stage)
  | abandonRunning other reason => exact kept (.abandonRunning other reason)
  | markInterrupted other reason => exact kept (.markInterrupted other reason)

theorem starts_source (history : List Entry) :
    ((starts (history.map Entry.statement)).filter fun start => ofSource tenantId source start.1) =
      (runsOf tenantId source history).map fun run =>
        (started tenantId run.now source run.jobId, run.later.map Entry.statement) := by
  induction history with
  | nil => rfl
  | cons e later ih =>
      obtain ⟨tenant, at_, call⟩ := e
      cases call with
      | start other jobId =>
          by_cases mine : tenant = tenantId ∧ other = source
          · obtain ⟨rfl, rfl⟩ := mine
            simpa [Entry.statement, starts, ofSource, runsOf, startOf, started] using ih
          · simpa [Entry.statement, starts, ofSource, runsOf, startOf, mine] using ih
      | finishDone other jobId counts => exact ih
      | finishFailed other jobId error stage => exact ih
      | abandonRunning other reason => exact ih
      | markInterrupted other reason => exact ih

/-- The table is the log of the starts: the rows of a source are its runs, in the order of their
start. -/
theorem rows_source (history : List Entry) :
    (runs history).filter (ofSource tenantId source) =
      (runsOf tenantId source history).map (Started.row tenantId source) := by
  rw [runs, filter_replay (fixes_source history), starts_source, List.map_map]
  rfl

def Started.extend (run : Started) (rest : List Entry) : Started :=
  { run with later := run.later ++ rest }

theorem runsOf_append (history rest : List Entry) :
    runsOf tenantId source (history ++ rest) =
      (runsOf tenantId source history).map (·.extend rest) ++ runsOf tenantId source rest := by
  induction history with
  | nil => rfl
  | cons e later ih =>
      rw [List.cons_append, runsOf, runsOf, ih, List.map_append, List.append_assoc]
      cases startOf tenantId source e <;> rfl

theorem runsOf_eq_nil {rest : List Entry} (none_started : ∀ e ∈ rest, startOf tenantId source e = none) :
    runsOf tenantId source rest = [] := by
  induction rest with
  | nil => rfl
  | cons e rest ih =>
      rw [runsOf, none_started e List.mem_cons_self, ih fun e mem =>
        none_started e (List.mem_cons_of_mem _ mem)]
      rfl

theorem decides_append {jobId : String} (later : List Entry) {rest : List Entry}
    (unsettled : ∀ e ∈ rest, settles tenantId source jobId e = false) :
    decides tenantId source jobId (later ++ rest) =
      (decides tenantId source jobId later).or (rest.find? (closes tenantId source)) := by
  have nothing : rest.filter (settles tenantId source jobId) = [] := by
    rw [List.filter_eq_nil_iff]
    intro e mem
    rw [unsettled e mem]
    exact Bool.false_ne_true
  rw [decides, decides, List.filter_append, nothing, List.append_nil, List.find?_append, Option.or_assoc]

private theorem numbered_rows (p : StampedRun → Bool) (rows : List StampedRun) :
    (rows.zipIdx.filter fun entry => p entry.1).map Prod.fst = rows.filter p := by
  conv_rhs => rw [← List.zipIdx_map_fst 0 rows, List.filter_map]
  rfl

theorem stage_none_iff (call : Call) :
    call.stage = none ↔ call.status = .running ∨ call.status = .interrupted := by
  cases call <;> simp [Call.stage, Call.status]

theorem row_stage_none_iff (run : Started) :
    (run.row tenantId source).stage = none ↔
      run.ending tenantId source = .running ∨ run.ending tenantId source = .interrupted := by
  rw [(run.shows tenantId source).stage, run.ending_eq]
  cases run.decided tenantId source with
  | none => simp
  | some e => simpa using stage_none_iff e.call

end Table

/-- What a record says of the run that a call has decided on. -/
structure Reports (stampText : Nat → String) (source : String) (run : Started) (e : Entry)
    (r : SyncRunRecord) : Prop where
  ofIts : r.source = source
  job : r.jobId = run.jobId
  status : r.status = e.call.status
  stage : some r.stage = e.call.stage
  began : r.startedAt = stampText run.now
  ended : r.finishedAt = stampText e.now
  lasted : r.durationMs = roundedMillis ((e.now : Int) - run.now)
  counts : ∀ done ∈ e.call.counts, r.counts = done
  error : ∀ text ∈ e.call.error, r.error = text

section Answers

variable {stampText : Nat → String} {tenantId : Int} {source : String} {history : List Entry}

theorem queryOne_row (stampText : Nat → String) (run : Started) (id : Nat) :
    (queryOne stampText (some (run.row tenantId source, id)) = .error .unexpectedNull ∧
      (run.ending tenantId source = .running ∨ run.ending tenantId source = .interrupted)) ∨
    ∃ e r, run.decided tenantId source = some e ∧
      (run.ending tenantId source = .done ∨ run.ending tenantId source = .failed) ∧
      queryOne stampText (some (run.row tenantId source, id)) = .ok (some r) ∧
      Reports stampText source run e r := by
  have shows := run.shows tenantId source
  have unfinished : (run.row tenantId source).stage = none ↔
      run.ending tenantId source = .running ∨ run.ending tenantId source = .interrupted :=
    row_stage_none_iff run
  cases stage : (run.row tenantId source).stage with
  | none => exact Or.inl ⟨by simp [queryOne, stage], unfinished.mp stage⟩
  | some text =>
      right
      have staged := shows.stage
      rw [stage] at staged
      obtain ⟨e, decided, given⟩ := Option.bind_eq_some_iff.mp staged.symm
      have finished : run.ending tenantId source = .done ∨ run.ending tenantId source = .failed := by
        have not_open := mt unfinished.mpr (by rw [stage]; exact Option.some_ne_none text)
        cases ended : run.ending tenantId source <;> simp [ended] at not_open ⊢
      refine ⟨e, _, decided, finished, by simp only [queryOne, stage]; rfl, ?_⟩
      refine ⟨shows.ofIts, shows.job, ?_, given.symm, ?_, ?_, ?_, ?_, ?_⟩
      · rw [shows.status, decided]
        rfl
      · rw [shows.began]
      · rw [shows.ended e decided]
        rfl
      · simp only [StampedRun.durationMs, shows.ended e decided, shows.began]
        rfl
      · intro done counted
        exact shows.counts done (by rw [decided]; exact counted)
      · intro text reported
        rw [shows.error text (by rw [decided]; exact reported)]
        rfl

theorem mem_doneRows {row : StampedRun} :
    (∃ id, (row, id) ∈ doneRows tenantId source (runs history)) ↔
      ∃ run ∈ runsOf tenantId source history,
        run.ending tenantId source = .done ∧ run.row tenantId source = row := by
  have numbered : (∃ id, (row, id) ∈ doneRows tenantId source (runs history)) ↔
      row ∈ (runs history).filter fun row => ofSource tenantId source row && row.status = .done := by
    rw [← numbered_rows, List.mem_map]
    constructor
    · rintro ⟨id, mem⟩
      exact ⟨(row, id), mem, rfl⟩
    · rintro ⟨⟨_, id⟩, mem, rfl⟩
      exact ⟨id, mem⟩
  have by_source : row ∈ (runs history).filter (ofSource tenantId source) ↔
      ∃ run ∈ runsOf tenantId source history, run.row tenantId source = row := by
    rw [rows_source, List.mem_map]
  rw [numbered, List.mem_filter, Bool.and_eq_true, ← and_assoc, ← List.mem_filter, by_source,
    decide_eq_true_eq]
  constructor
  · rintro ⟨⟨run, mem, rfl⟩, done⟩
    exact ⟨run, mem, (run.shows tenantId source).status.symm.trans done, rfl⟩
  · rintro ⟨run, mem, done, rfl⟩
    exact ⟨⟨run, mem, rfl⟩, (run.shows tenantId source).status.trans done⟩

end Answers

/-- The newest run of a source is what last_run returns, and only once it is done or failed: as long
as it is running, and after an interruption, its stage is NULL and the query throws. -/
theorem last_run_of_history (stampText : Nat → String) (tenantId : Int) (source : String)
    (history : List Entry) :
    match (runsOf tenantId source history).getLast? with
    | none => lastRun stampText tenantId source (runs history) = .ok none
    | some run =>
        (lastRun stampText tenantId source (runs history) = .error .unexpectedNull ∧
          (run.ending tenantId source = .running ∨ run.ending tenantId source = .interrupted)) ∨
        ∃ e r, run.decided tenantId source = some e ∧
          (run.ending tenantId source = .done ∨ run.ending tenantId source = .failed) ∧
          lastRun stampText tenantId source (runs history) = .ok (some r) ∧
          Reports stampText source run e r := by
  have newest := congrArg List.getLast?
    ((numbered_rows (ofSource tenantId source) (runs history)).trans (rows_source history))
  rw [List.getLast?_map, List.getLast?_map] at newest
  unfold lastRun
  cases last : (runsOf tenantId source history).getLast? with
  | none =>
      rw [last, Option.map_none, Option.map_eq_none_iff] at newest
      simp only [newest]
      rfl
  | some run =>
      rw [last, Option.map_some, Option.map_eq_some_iff] at newest
      obtain ⟨⟨row, id⟩, first, same⟩ := newest
      cases same
      simp only [first]
      exact queryOne_row stampText run id

/-- What last_success returns is a run that is done, and no run that is done ended later; it throws
for no history. -/
theorem last_success_of_history (stampText : Nat → String) (tenantId : Int) (source : String)
    (history : List Entry) (answer : Except ConversionError (Option SyncRunRecord))
    (answered : LastSuccess stampText tenantId source (runs history) answer) :
    ((∀ run ∈ runsOf tenantId source history, run.ending tenantId source ≠ .done) ∧
      answer = .ok none) ∨
    ∃ run ∈ runsOf tenantId source history, ∃ e r, run.decided tenantId source = some e ∧
      run.ending tenantId source = .done ∧ answer = .ok (some r) ∧
      Reports stampText source run e r ∧
      ∀ other ∈ runsOf tenantId source history, ∀ d, other.decided tenantId source = some d →
        other.ending tenantId source = .done → d.now ≤ e.now := by
  rcases answered with ⟨nothing, same⟩ | ⟨⟨row, id⟩, first, latest, same⟩
  · refine Or.inl ⟨?_, same⟩
    intro run mem done
    obtain ⟨id, listed⟩ := mem_doneRows.mpr ⟨run, mem, done, rfl⟩
    rw [nothing] at listed
    cases listed
  · obtain ⟨run, mem, done, rfl⟩ := mem_doneRows.mp ⟨id, first⟩
    rcases queryOne_row stampText run id with
      ⟨-, running | interrupted⟩ | ⟨e, r, decided, -, found, reports⟩
    · rw [done] at running
      cases running
    · rw [done] at interrupted
      cases interrupted
    · refine Or.inr ⟨run, mem, e, r, decided, done, same.trans found, reports, ?_⟩
      intro other listed d other_decided other_done
      obtain ⟨place, mem⟩ := mem_doneRows.mpr ⟨other, listed, other_done, rfl⟩
      have before := latest _ mem
      simp only [(other.shows tenantId source).ended d other_decided,
        (run.shows tenantId source).ended e decided] at before
      exact WithBot.coe_le_coe.mp before

section Sample

def twoRuns : List Entry :=
  [⟨1, 1000, .start "ozon" "a"⟩, ⟨1, 2500, .finishDone "ozon" "a" { accepted := 3 }⟩,
    ⟨1, 3000, .start "ozon" "b"⟩, ⟨1, 4000, .markInterrupted "ozon" "service restarted"⟩]

def firstRun : SyncRunRecord where
  id := 0
  source := "ozon"
  jobId := "a"
  status := .done
  stage := "done"
  startedAt := "1000"
  finishedAt := "2500"
  durationMs := 2
  counts := { accepted := 3 }
  error := ""

theorem last_success_of_twoRuns :
    LastSuccess toString 1 "ozon" (runs twoRuns) (.ok (some firstRun)) ∧
    lastRun toString 1 "ozon" (runs twoRuns) = .error .unexpectedNull ∧
    ∃ run ∈ runsOf 1 "ozon" twoRuns, run.jobId = "a" ∧ run.ending 1 "ozon" = .done := by
  have only : doneRows 1 "ozon" (runs twoRuns) = [(⟨
      { tenantId := 1, source := "ozon", jobId := "a", status := .done, stage := some "done"
        counts := { accepted := 3 } }, 1000, (2500 : Nat)⟩, 0)] := by decide
  have answered : LastSuccess toString 1 "ozon" (runs twoRuns) (.ok (some firstRun)) := by
    right
    rw [only]
    refine ⟨_, List.mem_singleton_self _, ?_, rfl⟩
    intro other mem
    rw [List.mem_singleton.mp mem]
  refine ⟨answered, rfl, ?_⟩
  rcases last_success_of_history toString 1 "ozon" twoRuns _ answered with
    ⟨-, none_⟩ | ⟨run, mem, e, r, -, done, same, reports, -⟩
  · cases none_
  · cases same
    exact ⟨run, mem, reports.job.symm, done⟩

end Sample

end Scand.Store.RunHistory
