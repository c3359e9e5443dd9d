/- path: Scand/InventoryPull/Percent
   layer: results
   digest: The percents that an inventory pull reports: in order exactly if its catalogue pull does not
   return. -/

import Scand.Catalog.Truncation
import Scand.InventoryPull.Silence

set_option autoImplicit false
set_option relaxedAutoImplicit false

namespace Scand.InventoryPull.Percent

open Scand.Catalog.Database (CatalogDb)
open Scand.Catalog.Normalize
open Scand.Catalog.Pull
open Scand.Catalog.Replacement (Storable replace_returns_iff)
open Scand.Foundation.Interleaving
open Scand.Foundation.JsonValue
open Scand.Foundation.Transaction (Tx)
open Scand.Inventory.Database (InventoryDb)
open Scand.InventoryPull.Events
open Scand.InventoryPull.Jobs
open Scand.InventoryPull.Silence (output)

/-- What a catalogue pull of a worker meets: the settings, 1C, the tables, possibly the loss of the
connection at one of its statements, and what its commit makes of the inventory tables. -/
structure CatalogInputs where
  env : Catalog.Pull.Env
  cfg : Config
  server : Server
  db : CatalogDb
  lost : Option String := none
  what : PullError → String
  change : InventoryDb → InventoryDb

namespace CatalogInputs

/-- The pull with the callback of the worker, which passes on the stage and the text; both reports
before the last one precede the first statement. -/
def pull (x : CatalogInputs) : CatalogPull :=
  let done := pullOnecProductCatalog x.env x.cfg x.server 1 (Tx.opened x.db)
  let reports := done.events.map fun p => (p.stage, p.extraJson)
  match done.outcome, x.lost with
  | .error (.thrown text), _ => { progress := reports, outcome := .error text }
  | .error (.sql e), none => { progress := reports, outcome := .error (x.what (.sql e)) }
  | _, some what => { progress := reports.take 2, outcome := .error what }
  | .ok result, none => {
      progress := reports
      outcome := .ok ({
        accepted := result.accepted
        migrated := result.migrated
        conflicts := result.conflicts
        measuredAt := result.measuredAt }, x.change) }

/-- The pull can be carried out to its end: the settings are complete, the catalogue is read, and the
tables take its records. -/
def Completes (x : CatalogInputs) : Prop :=
  x.cfg.complete = true ∧ x.lost = none ∧ ∃ rawRows, readAllRows x.env x.cfg x.server = .ok rawRows ∧
    (∃ rows, Storable 1 x.env.instant (normalizeOnecProductCatalog rawRows x.env.measuredAt) rows) ∧
      x.db.has .inventory1cStocks = true ∧ x.db.has .pricingCostBatch = true

def reading (raw normalized : Nat) : List (String × String) :=
  [("normalize", normalizeJson raw normalized), ("save", "")]

theorem pull_completes {x : CatalogInputs} (completes : x.Completes) :
    ∃ raw normalized result, x.pull =
      { progress := reading raw normalized ++ [("migrate", "")], outcome := .ok (result, x.change) } := by
  obtain ⟨complete, kept, rawRows, read, storable, stocks, costBatch⟩ := completes
  obtain ⟨n, tx, done⟩ := replace_returns_iff.mpr ⟨storable, stocks, costBatch⟩
  refine ⟨rawRows.length, (normalizeOnecProductCatalog rawRows x.env.measuredAt).length, ?_⟩
  simp [pull, pullOnecProductCatalog, complete, kept, read, done, reading]

theorem pull_stops {x : CatalogInputs} (stops : ¬ x.Completes) :
    ∃ text, x.pull = { progress := [], outcome := .error text } ∨
      ∃ raw normalized, x.pull = { progress := reading raw normalized, outcome := .error text } := by
  cases complete : x.cfg.complete with
  | false => exact ⟨incompleteConfig, Or.inl (by simp [pull, pullOnecProductCatalog, complete])⟩
  | true =>
      cases read : readAllRows x.env x.cfg x.server with
      | error text => exact ⟨text, Or.inl (by simp [pull, pullOnecProductCatalog, complete, read])⟩
      | ok rawRows =>
          cases done : replaceProducts x.env 1 (normalizeOnecProductCatalog rawRows x.env.measuredAt)
              (Tx.opened x.db) with
          | mk outcome tx =>
              cases kept : x.lost with
              | some what =>
                  refine ⟨what, Or.inr ⟨rawRows.length,
                    (normalizeOnecProductCatalog rawRows x.env.measuredAt).length, ?_⟩⟩
                  cases outcome <;>
                    simp [pull, pullOnecProductCatalog, complete, kept, read, done, reading]
              | none =>
                  cases outcome with
                  | error e =>
                      refine ⟨x.what (.sql e), Or.inr ⟨rawRows.length,
                        (normalizeOnecProductCatalog rawRows x.env.measuredAt).length, ?_⟩⟩
                      simp [pull, pullOnecProductCatalog, complete, kept, read, done, reading]
                  | ok n =>
                      exact absurd ⟨complete, kept, rawRows, read,
                        replace_returns_iff.mp ⟨n, tx, done⟩⟩ stops

end CatalogInputs

/-- The threads, with what a catalogue pull meets as part of the reply to its step. -/
def pulling (env : Jobs.Env) : Machine Shared Pc (Reply × CatalogInputs) where
  entry := isCall
  step i s pc r := (jobs env).step i s pc { r.1 with catalog := r.2.pull }

abbrev Proc := Pc × List (Pc × (Reply × CatalogInputs))

section Percents

variable (parse : String → Option Json)

def percent (job : Job) (e : Emission) : Int := countField (e.object parse job.jobId) "percent"

def nonFailure (job : Job) (e : Emission) : List Int :=
  if e.status = "failed" then [] else [percent parse job e]

def reportedAt : Pc → List Int
  | .updateState job e _ => nonFailure parse job e
  | _ => []

def reported (history : List (Pc × (Reply × CatalogInputs))) : List Int :=
  history.flatMap fun e => reportedAt parse e.1

/-- The percents of the events that a place leads to before its next decision. -/
def due : Pc → List Int
  | .emit job e next | .updateState job e next => nonFailure parse job e ++ due next
  | .broadcastEvent _ _ next | .updateCheckpoint _ _ next => due next
  | _ => []

def Emission.early (e : Emission) : Bool := e.status = "running" && e.stage ≠ "done"

/-- The percents still ahead of a place if the catalogue pull does not complete; none for the places
behind a completed one. -/
def ahead : Pc → Option (List Int)
  | .takeGeneration _ | .readAllowed _ | .abandonRuns _ | .abandonCheckpoints _ | .startNew _
  | .startRun _ | .startCheckpoint _ => some [12, 12, 62]
  | .emit job e next | .updateState job e next =>
      if Emission.early e then (ahead next).map (percent parse job e :: ·) else none
  | .broadcastEvent _ e next => if Emission.early e then ahead next else none
  | .pullCatalog _ => some [12, 62]
  | .commitCatalog _ _ | .updateCheckpoint _ _ _ | .selectSkus _ | .choosePeriod _ | .pullKa2 _
  | .importRequest _ _ => none
  | .checkGeneration _ _ | .finishRun _ _ | .finishCheckpoint _ _ | .failState _ _
  | .failBroadcast _ _ | .finished | .resetPullRuns | .resetOzonRuns | .resetCheckpoints
  | .resetState | .resetOzon | .bumpGeneration => some []

end Percents

section Values

variable {parse : String → Option Json} {job : Job} {e : Emission}

theorem lookup_mergeObject {key : String} {src : Fields} (dst : Fields)
    (absent : src.lookup key = none) : (mergeObject dst src).lookup key = dst.lookup key := by
  induction src generalizing dst with
  | nil => rfl
  | cons field src ih =>
      obtain ⟨name, value⟩ := field
      rw [lookup_cons_if] at absent
      split at absent
      · cases absent
      · rename_i other
        have step := ih (setField dst name value) absent
        rw [lookup_setField, if_neg other] at step
        exact step

def counted (parse : String → Option Json) (job : Job) (e : Emission) : Fields :=
  let obj : Fields := [("job_id", .string job.jobId), ("stage", .string e.stage),
    ("status", .string e.status)]
  ((safeParseObject parse e.extraJson).map (mergeObject obj)).getD obj

theorem percent_eq : percent parse job e = computePercent e.stage e.status
    (countField (counted parse job e) "current") (countField (counted parse job e) "total") := by
  cases parsed : safeParseObject parse e.extraJson <;>
    simp [percent, Emission.object, counted, parsed, countField, lookup_setField]

theorem percent_early (early : Emission.early e = true) : percent parse job e < 100 := by
  simp only [Emission.early, Bool.and_eq_true, decide_eq_true_eq] at early
  obtain ⟨running, apart⟩ := early
  rw [percent_eq, running]
  unfold computePercent
  rw [if_neg (by simp [apart])]
  split
  · decide
  · exact lt_of_le_of_lt (min_le_right _ _) (by decide)

theorem percent_uncounted
    (absent : ∀ obj, safeParseObject parse e.extraJson = some obj → obj.lookup "total" = none) :
    percent parse job e = computePercent e.stage e.status 0 0 := by
  have total : countField (counted parse job e) "total" = 0 := by
    unfold counted countField
    cases parsed : safeParseObject parse e.extraJson with
    | none => rfl
    | some obj =>
        simp only [Option.map_some, Option.getD_some, lookup_mergeObject _ (absent obj parsed)]
        rfl
  rw [percent_eq, total]
  simp [computePercent]

theorem percent_empty (empty : e.extraJson = "") :
    percent parse job e = computePercent e.stage e.status 0 0 := by
  refine percent_uncounted fun obj parsed => ?_
  rw [empty] at parsed
  cases parsed

def Uncounted (parse : String → Option Json) : Prop :=
  ∀ raw normalized obj, parse (normalizeJson raw normalized) = some (.object obj) →
    obj.lookup "total" = none

theorem percent_normalize (uncounted : Uncounted parse) (raw normalized : Nat) :
    percent parse job ⟨"normalize", "running", normalizeJson raw normalized⟩ = 12 := by
  have early : computePercent "normalize" "running" 0 0 = 12 := by decide
  refine (percent_uncounted fun obj parsed => ?_).trans early
  exact uncounted raw normalized obj (parse_of_safeParseObject parsed)

theorem percent_stage (stage : String) : percent parse job { stage := stage, status := "running" } =
    computePercent stage "running" 0 0 := percent_empty rfl

end Values

section Places

variable {parse : String → Option Json} {env : Jobs.Env} {s s' : Shared} {pc pc' : Pc} {r : Reply}

theorem due_reportProgress (job : Job) (progress : List (String × String)) (next : Pc) :
    due parse (reportProgress job progress next) =
      progress.map (fun report => percent parse job ⟨report.1, "running", report.2⟩) ++
        due parse next := by
  induction progress with
  | nil => rfl
  | cons report progress ih =>
      rw [List.map_cons, List.cons_append, ← ih]
      rfl

theorem ahead_reading (uncounted : Uncounted parse) (job : Job) (raw normalized : Nat) (text : String) :
    ahead parse (reportProgress job (CatalogInputs.reading raw normalized) (caught job text)) =
      some [12, 62] := by
  have normalize : percent parse job ⟨"normalize", "running", normalizeJson raw normalized⟩ = 12 :=
    percent_normalize uncounted raw normalized
  have save : percent parse job ⟨"save", "running", ""⟩ = 62 :=
    (percent_stage "save").trans (by decide)
  simp [CatalogInputs.reading, reportProgress, caught, ahead, Emission.early, normalize, save]

def Follows (parse : String → Option Json) (pc pc' : Pc) : Prop :=
  ∀ l, ahead parse pc = some l →
    ∃ l', ahead parse pc' = some l' ∧ (reportedAt parse pc ++ l').Sublist l

theorem Follows.ended (silent : reportedAt parse pc = []) (none_left : ahead parse pc' = some []) :
    Follows parse pc pc' := by
  intro l _
  refine ⟨[], none_left, ?_⟩
  rw [silent]
  exact List.nil_sublist l

theorem request_follows (stepped : requestStep s pc r = some (s', pc')) :
    Follows env.parse pc pc' := by
  cases pc <;> simp only [requestStep, Option.some.injEq, Prod.mk.injEq, reduceCtorEq] at stepped
  case startCheckpoint job =>
    obtain ⟨-, rfl⟩ := stepped
    intro l now
    have catalog : percent env.parse job ⟨"catalog", "running", ""⟩ = 12 :=
      (percent_stage "catalog").trans (by decide)
    exact ⟨[12, 12, 62], by simp [ahead, Emission.early, catalog], Option.some.inj now ▸ .refl _⟩
  all_goals
    obtain ⟨-, rfl⟩ := stepped
    intro l now
    exact ⟨l, now, .refl _⟩

theorem ahead_emission {job : Job} {e : Emission} {next : Pc} {l : List Int}
    (now : ahead parse (.emit job e next) = some l) :
    Emission.early e = true ∧ ∃ rest, ahead parse next = some rest ∧ l = percent parse job e :: rest := by
  unfold ahead at now
  split at now
  · rename_i early
    obtain ⟨rest, left, same⟩ := Option.map_eq_some_iff.mp now
    exact ⟨early, rest, left, same.symm⟩
  · cases now

theorem emit_follows (stepped : emitStep env s pc = some (s', pc')) : Follows env.parse pc pc' := by
  cases pc <;> simp only [emitStep, Option.some.injEq, Prod.mk.injEq, reduceCtorEq] at stepped
  all_goals
    obtain ⟨-, rfl⟩ := stepped
    intro l now
  case emit job e next =>
    split
    · exact ⟨l, now, .refl _⟩
    · obtain ⟨-, rest, left, rfl⟩ := ahead_emission now
      exact ⟨rest, left, List.sublist_cons_self _ _⟩
  case updateState job e next =>
    obtain ⟨early, rest, left, rfl⟩ := ahead_emission now
    have running : e.status = "running" := by
      simp only [Emission.early, Bool.and_eq_true, decide_eq_true_eq] at early
      exact early.1
    refine ⟨rest, by simp [ahead, early, left], ?_⟩
    simp [reportedAt, nonFailure, running]
  case broadcastEvent job e next =>
    unfold ahead at now
    split at now
    · exact ⟨l, now, .refl _⟩
    · cases now

theorem worker_follows (uncounted : Uncounted env.parse) {x : CatalogInputs}
    (stops : ∀ job, pc = .pullCatalog job → r.dbOk = true → ¬ x.Completes)
    (stepped : workerStep env s pc { r with catalog := x.pull } = some (s', pc')) :
    Follows env.parse pc pc' := by
  cases pc
  case pullCatalog job =>
    simp only [workerStep, Option.some.injEq, Prod.mk.injEq] at stepped
    obtain ⟨-, rfl⟩ := stepped
    intro l now
    obtain rfl : [12, 62] = l := Option.some.inj now
    split
    · rename_i alive
      obtain ⟨text, nothing | ⟨raw, normalized, read⟩⟩ :=
        CatalogInputs.pull_stops (stops job rfl alive)
      · rw [nothing]
        exact ⟨[], rfl, List.nil_sublist _⟩
      · rw [read]
        exact ⟨[12, 62], ahead_reading uncounted job raw normalized text, .refl _⟩
    · exact ⟨[], rfl, List.nil_sublist _⟩
  case checkGeneration job ending =>
    cases stepped
    refine Follows.ended rfl ?_
    split <;> rfl
  case finishRun job ending =>
    cases stepped
    exact Follows.ended rfl rfl
  case finishCheckpoint job ending =>
    cases stepped
    refine Follows.ended rfl ?_
    cases ending <;> rfl
  case failState job error =>
    cases stepped
    exact Follows.ended rfl rfl
  case failBroadcast job error =>
    cases stepped
    exact Follows.ended rfl rfl
  all_goals
    -- the other places are behind a completed pull, or not of the worker
    intro l now
    first
      | (cases now; done)
      | cases stepped

theorem reset_follows (stepped : resetStep s pc r = some (s', pc')) : Follows env.parse pc pc' := by
  cases pc <;> simp only [resetStep, Option.some.injEq, Prod.mk.injEq, reduceCtorEq] at stepped
  all_goals
    obtain ⟨-, rfl⟩ := stepped
    refine Follows.ended rfl ?_
    first
      | rfl
      | (split <;> rfl)

def emitting : Pc → Option Job
  | .emit job _ _ => some job
  | _ => none

variable {i : Nat} {x : Reply × CatalogInputs}

theorem pulling_follows (uncounted : Uncounted env.parse)
    (stops : ∀ job, pc = .pullCatalog job → x.1.dbOk = true → ¬ x.2.Completes)
    (stepped : (pulling env).step i s pc x = some (s', pc')) : Follows env.parse pc pc' := by
  rcases jobs_step (i := i) stepped with request | emitted | worked | reset
  · exact request_follows request
  · exact emit_follows emitted
  · exact worker_follows uncounted stops worked
  · exact reset_follows reset

theorem due_follows (current : ∀ job ∈ emitting pc, s.generation = job.generation)
    (stepped : (pulling env).step i s pc x = some (s', pc')) :
    (due env.parse pc).Sublist (reportedAt env.parse pc ++ due env.parse pc') := by
  cases pc
  case emit job e next =>
    have moved : some (s, if s.generation = job.generation then Pc.updateState job e next else next) =
        some (s', pc') := stepped
    rw [if_pos (current job rfl)] at moved
    cases moved
    exact .refl _
  case updateState job e next =>
    cases stepped
    exact .refl _
  case broadcastEvent job e next =>
    cases stepped
    exact .refl _
  case updateCheckpoint job u next =>
    cases stepped
    exact .refl _
  all_goals exact List.nil_sublist _

theorem due_completed {job : Job} (alive : x.1.dbOk = true) (completes : x.2.Completes)
    (stepped : (pulling env).step i s (.pullCatalog job) x = some (s', pc')) :
    List.Sublist [62, 12] (due env.parse pc') := by
  obtain ⟨raw, normalized, result, same⟩ := CatalogInputs.pull_completes completes
  have moved : workerStep env s (.pullCatalog job) { x.1 with catalog := x.2.pull } =
      some (s', pc') := stepped
  unfold workerStep at moved
  dsimp only at moved
  rw [if_pos alive, same] at moved
  cases moved
  rw [due_reportProgress]
  have save : percent env.parse job ⟨"save", "running", ""⟩ = 62 :=
    (percent_stage "save").trans (by decide)
  have migrate : percent env.parse job ⟨"migrate", "running", ""⟩ = 12 :=
    (percent_stage "migrate").trans (by decide)
  simp [CatalogInputs.reading, save, migrate, due]

end Places

section Runs

variable {env : Jobs.Env} {i : Nat} {c d : Config Shared Proc} {p q : Proc}

/-- The events of process `i` are emitted under the current generation. -/
def Current (i : Nat) (c : Config Shared Proc) : Label Proc (Reply × CatalogInputs) → Prop
  | .spawn _ => True
  | .act j _ => j = i → ∀ p ∈ c.procs[j]?, ∀ job ∈ emitting p.1,
      c.shared.generation = job.generation

/-- The catalogue pull of the process was carried out to its end. -/
def PullCompleted (history : List (Pc × (Reply × CatalogInputs))) : Prop :=
  ∃ e ∈ history, ∃ job, e.1 = .pullCatalog job ∧ e.2.1.dbOk = true ∧ e.2.2.Completes

def complete (snap : InventorySnapshot) : Prop :=
  snap.percent = 100 ∧ ∀ stage ∈ snap.stages, stage.2 = "done"

instance (snap : InventorySnapshot) : Decidable (complete snap) :=
  inferInstanceAs (Decidable (_ ∧ _))

def final (e : Emission) : Prop := e.stage = "done" ∧ e.status = "imported"

/-- The percents never decrease, and only the last event shows 100. -/
structure Kept (env : Jobs.Env) (history : List (Pc × (Reply × CatalogInputs))) : Prop where
  ordered : (reported env.parse history).Pairwise (· ≤ ·)
  stored : ∀ e ∈ history, ∀ job snap, output env e.1 = some (job, some snap) → complete snap →
    ∃ event next, e.1 = .updateState job event next ∧ final event
  broadcast : ∀ e ∈ history, ∀ job event next, e.1 = .broadcastEvent job event next →
    countField (event.object env.parse job.jobId) "percent" = 100 → final event

/-- What is known of a process whose catalogue pull did not complete. -/
structure Before (env : Jobs.Env) (p : Proc) : Prop where
  stops : ¬ PullCompleted p.2
  places : ∀ e ∈ p.2, ∃ l, ahead env.parse e.1 = some l
  rest : ∃ l, ahead env.parse p.1 = some l ∧
    (reported env.parse p.2 ++ l).Sublist [12, 12, 62]

/-- What is known of a process whose catalogue pull did complete: it reports 12 after 62. -/
structure After (env : Jobs.Env) (p : Proc) : Prop where
  completed : PullCompleted p.2
  drop : List.Sublist [62, 12] (reported env.parse p.2 ++ due env.parse p.1)

theorem reported_snoc (parse : String → Option Json) (history : List (Pc × (Reply × CatalogInputs)))
    (pc : Pc) (x : Reply × CatalogInputs) :
    reported parse (history ++ [(pc, x)]) = reported parse history ++ reportedAt parse pc := by
  simp [reported]

theorem pullCompleted_snoc {history : List (Pc × (Reply × CatalogInputs))} {pc : Pc}
    {x : Reply × CatalogInputs} : PullCompleted (history ++ [(pc, x)]) ↔
      PullCompleted history ∨ ∃ job, pc = .pullCatalog job ∧ x.1.dbOk = true ∧ x.2.Completes := by
  simp [PullCompleted, or_and_right, exists_or]

theorem entry_before {p : Proc} (entry : (pulling env).recording.entry p = true) : Before env p := by
  obtain ⟨call, fresh⟩ := recording_entry entry
  obtain ⟨pc, history⟩ := p
  obtain rfl : history = [] := fresh
  have called : isCall pc = true := call
  refine ⟨by simp [PullCompleted], by simp, ?_⟩
  cases pc <;> cases called
  · exact ⟨_, rfl, .refl _⟩
  · exact ⟨_, rfl, List.nil_sublist _⟩

theorem process_step (uncounted : Uncounted env.parse) {s : Shared} {x : Reply × CatalogInputs}
    (known : Before env p ∨ After env p) (at_i : c.procs[i]? = some p)
    (guard : Current i c (.act i x))
    (stepped : (pulling env).recording.step i c.shared p x = some (s, q)) :
    Before env q ∨ After env q := by
  obtain ⟨inner, past⟩ := recording_step stepped
  obtain ⟨pc, history⟩ := p
  obtain ⟨pc', history'⟩ := q
  obtain rfl : history' = history ++ [(pc, x)] := past
  by_cases now : ∃ job, pc = .pullCatalog job ∧ x.1.dbOk = true ∧ x.2.Completes
  · refine Or.inr ⟨pullCompleted_snoc.mpr (Or.inr now), ?_⟩
    obtain ⟨job, rfl, alive, completes⟩ := now
    exact (due_completed alive completes inner).trans (List.sublist_append_right _ _)
  · rcases known with before | after
    · obtain ⟨l, here, sub⟩ := before.rest
      have follows := pulling_follows uncounted (fun job same alive completes =>
        now ⟨job, same, alive, completes⟩) inner
      obtain ⟨l', next, moved⟩ := follows l here
      refine Or.inl ⟨fun completed => ?_, ?_, l', next, ?_⟩
      · exact (pullCompleted_snoc.mp completed).elim before.stops now
      · intro e mem
        rcases List.mem_append.mp mem with old | new
        · exact before.places e old
        · obtain rfl := List.mem_singleton.mp new
          exact ⟨l, here⟩
      · rw [reported_snoc, List.append_assoc]
        exact (List.Sublist.append_left moved _).trans sub
    · refine Or.inr ⟨pullCompleted_snoc.mpr (Or.inl after.completed), ?_⟩
      have kept := due_follows (guard rfl _ at_i) inner
      rw [reported_snoc, List.append_assoc]
      exact after.drop.trans (List.Sublist.append_left kept _)

theorem early_of_ahead {parse : String → Option Json} {job : Job} {e : Emission} {next : Pc}
    {l : List Int} (here : ahead parse (.broadcastEvent job e next) = some l) :
    Emission.early e = true := by
  unfold ahead at here
  split at here
  · assumption
  · cases here

theorem Before.kept (before : Before env p) : Kept env p.2 := by
  obtain ⟨l, -, sub⟩ := before.rest
  refine ⟨?_, ?_, ?_⟩
  · have all : List.Pairwise (· ≤ ·) ([12, 12, 62] : List Int) := by decide
    exact all.sublist ((List.sublist_append_left _ _).trans sub)
  · intro e mem job snap shown full
    exfalso
    obtain ⟨l, here⟩ := before.places e mem
    obtain ⟨pc, x⟩ := e
    cases pc <;> cases shown
    case updateState.refl event next =>
      have below : percent env.parse job event < 100 := percent_early (ahead_emission here).1
      have hundred : percent env.parse job event = 100 := full.1
      omega
    case startNew.refl => exact absurd (show (0 : Int) = 100 from full.1) (by decide)
    case failState.refl error => exact absurd (show (0 : Int) = 100 from full.1) (by decide)
  · intro e mem job event next here hundred
    exfalso
    obtain ⟨l, left⟩ := before.places e mem
    rw [here] at left
    have below : percent env.parse job event < 100 := percent_early (early_of_ahead left)
    have same : percent env.parse job event = 100 := hundred
    omega

end Runs

/-- In every run that emits under the current generation: the percents of an inventory pull are in
order, and only its last event shows 100, as long as its catalogue pull does not complete; once it has
completed, the finished job has reported a smaller percent after a larger one. -/
theorem percents_kept_iff (env : Jobs.Env) (s₀ : Shared) (c : Config Shared Proc) (i : Nat) (p : Proc)
    (uncounted : Uncounted env.parse)
    (reach : Reach (pulling env).recording (Current i) ⟨s₀, []⟩ c) (at_i : c.procs[i]? = some p) :
    (¬ PullCompleted p.2 → Kept env p.2) ∧
      (p.1 = .finished → (Kept env p.2 ↔ ¬ PullCompleted p.2)) := by
  have known : Before env p ∨ After env p := reach.process (fun _ entry => Or.inl (entry_before entry))
    (fun _ _ _ _ _ known at_i guard stepped => process_step uncounted known at_i guard stepped) p at_i
  rcases known with before | after
  · exact ⟨fun _ => before.kept, fun _ => ⟨fun _ => before.stops, fun _ => before.kept⟩⟩
  · refine ⟨fun stops => absurd after.completed stops, fun equal => ⟨fun kept => ?_,
      fun stops => absurd after.completed stops⟩⟩
    have drop := after.drop
    have nothing_due : due env.parse p.1 = [] := by
      rw [equal]
      rfl
    rw [nothing_due, List.append_nil] at drop
    have ordered := kept.ordered.sublist drop
    exact absurd ordered (by decide)

section Sample

open Scand.Catalog.LinkTables (sampleConfig sample_address oldDb)
open Scand.Catalog.Paging (serving readAllRows_serving)
open Scand.Catalog.Truncation (linkedDb normalize_nil)

instance : ∀ i c l, Decidable (Current i c l)
  | _, _, .spawn _ => .isTrue trivial
  | i, c, .act j _ => inferInstanceAs (Decidable (j = i → ∀ p ∈ c.procs[j]?, ∀ job ∈ emitting p.1,
      c.shared.generation = job.generation))

def sampleTexts : List (String × Fields) :=
  [(normalizeJson 0 0, [("raw", .int64 0), ("normalized", .int64 0)]),
    (numbersJson (catalogNumbers { jobId := "", generation := 0, query := {} }),
      [("accepted", .int64 0), ("migrated", .int64 0), ("conflicts", .int64 0)])]

def sampleEnv : Jobs.Env :=
  { SingleJob.sampleEnv with parse := fun text => (sampleTexts.lookup text).map .object }

def sampleInputs (db : CatalogDb) : CatalogInputs where
  env := Catalog.LinkTables.sampleEnv
  cfg := sampleConfig
  server := serving []
  db := db
  what := fun _ => "relation does not exist"
  change := id

theorem sample_read :
    readAllRows Catalog.LinkTables.sampleEnv sampleConfig (serving []) = .ok [] := by
  rw [readAllRows_serving _ _ _ sample_address]
  rfl

theorem linked_pull : (sampleInputs linkedDb).pull = {
    progress := CatalogInputs.reading 0 0 ++ [("migrate", "")]
    outcome := .ok ({ measuredAt := "2026-09-23T15:08:23Z" }, id) } := by
  simp only [CatalogInputs.pull, sampleInputs, pullOnecProductCatalog, sample_read, normalize_nil]
  rfl

theorem old_pull : (sampleInputs oldDb).pull = {
    progress := CatalogInputs.reading 0 0
    outcome := .error "relation does not exist" } := by
  simp only [CatalogInputs.pull, sampleInputs, pullOnecProductCatalog, sample_read, normalize_nil]
  rfl

def answering (pull : CatalogPull) : Machine Shared Pc (Reply × CatalogInputs) where
  entry := isCall
  step i s pc r := (jobs sampleEnv).step i s pc { r.1 with catalog := pull }

def pullSteps (x : CatalogInputs) (n : Nat) : List (Label Proc (Reply × CatalogInputs)) :=
  .spawn (.takeGeneration {}, []) :: List.replicate n (.act 0 ({}, x))

theorem run_answering {x : CatalogInputs} {pull : CatalogPull} (same : x.pull = pull) (n : Nat)
    (g : Config Shared Proc → Label Proc (Reply × CatalogInputs) → Bool) :
    (pulling sampleEnv).recording.run g ⟨{}, []⟩ (pullSteps x n) =
      (answering pull).recording.run g ⟨{}, []⟩ (pullSteps x n) := by
  refine run_congr (fun l mem c => ?_) _
  rcases List.mem_cons.mp mem with rfl | step
  · rfl
  · obtain rfl := List.eq_of_mem_replicate step
    simp only [Machine.next, Machine.recording, pulling, answering, same]

theorem reach_answering {x : CatalogInputs} {pull : CatalogPull} (same : x.pull = pull)
    (n : Nat) (test : Config Shared Proc → Bool)
    (ran : (((answering pull).recording.run (fun c l => decide (Current 0 c l)) ⟨{}, []⟩
      (pullSteps x n)).map test) = some true) :
    ∃ c, Reach (pulling sampleEnv).recording (Current 0) ⟨{}, []⟩ c ∧ test c = true := by
  rw [← run_answering same] at ran
  exact reach_of_run_test _ _ (fun _ _ => of_decide_eq_true) ran

/-- A catalogue that is stored: the percents fall from 62 to 12, and 100 is stored for the catalogue. -/
theorem catalogue_shows_hundred :
    ∃ c p, Reach (pulling sampleEnv).recording (Current 0) ⟨{}, []⟩ c ∧ c.procs[0]? = some p ∧
      reported sampleEnv.parse p.2 = [12, 12, 62, 12, 100] ∧
      ¬ (reported sampleEnv.parse p.2).Pairwise (· ≤ ·) ∧
      ∃ snap, c.shared.state = some snap ∧ complete snap ∧ snap.stage = "catalog" := by
  obtain ⟨c, reach, test⟩ := reach_answering linked_pull 23
    (fun c => (c.procs[0]?.any fun p => reported sampleEnv.parse p.2 = [12, 12, 62, 12, 100]) &&
      c.shared.state.any fun snap => decide (complete snap ∧ snap.stage = "catalog")) (by decide)
  simp only [Bool.and_eq_true, Option.any_eq_true, decide_eq_true_eq] at test
  obtain ⟨⟨p, at_0, percents⟩, snap, stored, full, stage⟩ := test
  refine ⟨c, p, reach, at_0, percents, ?_, snap, stored, full, stage⟩
  rw [percents]
  decide

theorem sample_normalized {raw normalized : Nat} {obj : Fields}
    (read : sampleEnv.parse (normalizeJson raw normalized) = some (.object obj)) :
    obj = [("raw", .int64 0), ("normalized", .int64 0)] := by
  obtain ⟨fields, found, same⟩ := Option.map_eq_some_iff.mp read
  obtain rfl : fields = obj := by simpa using same
  simp only [sampleTexts, lookup_cons_if, List.lookup_nil] at found
  split at found
  · exact (Option.some.inj found).symm
  · split at found
    · rename_i other
      have third := congrArg (fun text : String => text.toList[2]?) other
      simp [normalizeJson, numbersJson, numberMembers, catalogNumbers] at third
    · cases found

theorem sample_uncounted : Uncounted sampleEnv.parse := by
  intro raw normalized obj read
  rw [sample_normalized read]
  rfl

theorem percents_kept_iff_refused :
    ∃ p : Proc, p.1 = .finished ∧ reported sampleEnv.parse p.2 = [12, 12, 62] ∧
      Kept sampleEnv p.2 := by
  obtain ⟨c, reach, test⟩ := reach_answering old_pull 22
    (fun c => c.procs[0]?.any fun p => SingleJob.isFinished p.1 &&
      decide (reported sampleEnv.parse p.2 = [12, 12, 62]) &&
      p.2.all fun e => !e.2.2.db.has .inventory1cStocks) (by decide)
  simp only [Bool.and_eq_true, Option.any_eq_true, decide_eq_true_eq] at test
  obtain ⟨p, at_0, ⟨stands, percents⟩, lacking⟩ := test
  have stops : ¬ PullCompleted p.2 := by
    rintro ⟨e, mem, job, -, -, completes⟩
    obtain ⟨-, -, rawRows, -, -, present, -⟩ := completes
    have absent := List.all_eq_true.mp lacking e mem
    rw [present] at absent
    cases absent
  have finished : p.1 = .finished := by
    cases place : p.1 <;> rw [place] at stands <;> first | rfl | cases stands
  exact ⟨p, finished, percents,
    (percents_kept_iff sampleEnv {} c 0 p sample_uncounted reach at_0).1 stops⟩

end Sample

end Scand.InventoryPull.Percent
