/- path: Scand/InventoryPull/StoredSnapshots
   layer: results
   digest: The snapshots that a worker stores for its events, against the snapshot that its events build up
   from the one of start_new: alike exactly until the event that reports the migrated rows. -/

import Scand.InventoryPull.Percent
import Mathlib.Data.List.Infix

set_option autoImplicit false
set_option relaxedAutoImplicit false

namespace Scand.InventoryPull.StoredSnapshots

open Scand.Catalog.Pull (normalizeJson)
open Scand.Foundation.Interleaving
open Scand.Foundation.JsonValue
open Scand.Inventory.ImportSnapshot (ImportResult)
open Scand.Inventory.Snapshot (SnapshotRequest)
open Scand.InventoryPull.Events
open Scand.InventoryPull.Jobs
open Scand.InventoryPull.Percent (CatalogInputs Proc PullCompleted emitting lookup_mergeObject
  pullCompleted_snoc pulling)
open Scand.InventoryPull.Silence (jobOf jobs_shows stateAfter)

section Folding

variable (parse : String → Option Json) (jobId : String)

/-- The snapshot after one more event, with its percent as `compute_percent` has it. -/
def applied (snap : InventorySnapshot) (e : Emission) : InventorySnapshot :=
  let obj := e.object parse jobId
  { fillInventorySnapshot jobId e.stage e.status obj snap with percent := countField obj "percent" }

def folded (events : List Emission) : InventorySnapshot :=
  events.foldl (applied parse jobId) (startNew jobId)

end Folding

section Histories

def emittedAt : Pc → List Emission
  | .updateState _ e _ => [e]
  | _ => []

def emitted (history : List (Pc × (Reply × CatalogInputs))) : List Emission :=
  history.flatMap fun e => emittedAt e.1

/-- Whatever stood in the state before, every event stores the snapshot that the events of its job up
to it build up. -/
def Incremental (env : Env) (history : List (Pc × (Reply × CatalogInputs))) : Prop :=
  ∀ past job e next x rest, history = past ++ (.updateState job e next, x) :: rest → ∀ state,
    stateAfter env (.updateState job e next) state =
      some (folded env.parse job.jobId (emitted past ++ [e]))

def reports (raw normalized : Nat) : List Emission :=
  [{ stage := "catalog", status := "running" },
    { stage := "normalize", status := "running", extraJson := normalizeJson raw normalized },
    { stage := "save", status := "running" }]

def migrating : Emission := { stage := "migrate", status := "running" }

/-- The event that follows the storing of the catalogue passed the check of the generation. -/
def Migrated (history : List (Pc × (Reply × CatalogInputs))) : Prop := migrating ∈ emitted history

theorem emitted_snoc (history : List (Pc × (Reply × CatalogInputs))) (pc : Pc)
    (x : Reply × CatalogInputs) : emitted (history ++ [(pc, x)]) = emitted history ++ emittedAt pc := by
  simp [emitted]

theorem emitted_split {history : List (Pc × (Reply × CatalogInputs))} {before after : List Emission}
    {e : Emission} (same : emitted history = before ++ e :: after) :
    ∃ past job next x rest, history = past ++ (.updateState job e next, x) :: rest ∧
      emitted past = before := by
  induction history generalizing before with
  | nil => simp [emitted] at same
  | cons entry history ih =>
      obtain ⟨pc, x⟩ := entry
      have cut : emitted ((pc, x) :: history) = emittedAt pc ++ emitted history := rfl
      rw [cut] at same
      rcases List.append_eq_append_iff.mp same with ⟨mid, front, back⟩ | ⟨mid, front, back⟩
      · obtain ⟨past, job, next, y, rest, split, earlier⟩ := ih back
        refine ⟨(pc, x) :: past, job, next, y, rest, by rw [split, List.cons_append], ?_⟩
        rw [front, ← earlier]
        rfl
      · cases mid with
        | nil =>
            obtain ⟨past, job, next, y, rest, split, earlier⟩ := @ih [] back.symm
            refine ⟨(pc, x) :: past, job, next, y, rest, by rw [split, List.cons_append], ?_⟩
            rw [List.append_nil] at front
            rw [← front, ← List.append_nil (emittedAt pc), ← earlier]
            rfl
        | cons d mid =>
            obtain ⟨rfl, -⟩ := List.cons.inj back
            cases pc <;> simp only [emittedAt, List.nil_eq_append_iff, reduceCtorEq, and_false] at front
            case updateState job d next =>
              rcases List.singleton_eq_append_iff.mp front with ⟨rfl, here⟩ | ⟨-, here⟩
              · obtain ⟨rfl, -⟩ := List.cons.inj here
                exact ⟨[], job, next, x, history, rfl, rfl⟩
              · cases here

end Histories

section Snapshots

variable {parse : String → Option Json} {jobId : String} {a b snap : InventorySnapshot} {e : Emission}

def counterKeys : List String :=
  ["current", "total", "accepted", "migrated", "conflicts", "warehouses", "stocks", "costs",
    "stocks_accepted", "costs_accepted"]

/-- What a snapshot carries over from the one before it, apart from the percent and the stages. -/
def counters (snap : InventorySnapshot) : List Int :=
  [snap.current, snap.total, snap.accepted, snap.migrated, snap.conflicts, snap.warehouses,
    snap.stocks, snap.costs, snap.stocksAccepted, snap.costsAccepted]

/-- What a parser reads from the numbers of a normalized catalogue has no counter of a snapshot. -/
def Counterless (parse : String → Option Json) : Prop :=
  ∀ raw normalized obj, parse (normalizeJson raw normalized) = some (.object obj) →
    ∀ key ∈ counterKeys, obj.lookup key = none

def Uncounting (parse : String → Option Json) (jobId : String) (e : Emission) : Prop :=
  ∀ key ∈ counterKeys, (e.object parse jobId).lookup key = none

structure Running (e : Emission) : Prop where
  status : e.status = "running"
  failed : e.stage ≠ "error"
  ended : e.stage ≠ "done"

def progressed (stages : Stages) (stage : String) : Stages :=
  runStages (stageKey stage) stageOrder false (addMissing stages)

theorem applied_eq : applied parse jobId snap e =
    let obj := e.object parse jobId
    { jobId := jobId
      stage := e.stage
      status := e.status
      current := getI64 obj "current" snap.current
      total := getI64 obj "total" snap.total
      percent := countField obj "percent"
      accepted := getI64 obj "accepted" snap.accepted
      migrated := getI64 obj "migrated" snap.migrated
      conflicts := getI64 obj "conflicts" snap.conflicts
      warehouses := getI64 obj "warehouses" snap.warehouses
      stocks := getI64 obj "stocks" snap.stocks
      costs := getI64 obj "costs" snap.costs
      stocksAccepted := getI64 obj "stocks_accepted" snap.stocksAccepted
      costsAccepted := getI64 obj "costs_accepted" snap.costsAccepted
      error := getStr obj "error"
      measuredAt := getStr obj "measured_at"
      stages := (applied parse jobId snap e).stages } := by
  unfold applied fillInventorySnapshot
  dsimp only
  split
  · rfl
  · split <;> rfl

theorem counters_applied (uncounting : Uncounting parse jobId e) :
    counters (applied parse jobId snap e) = counters snap := by
  have kept : ∀ key ∈ counterKeys, ∀ fallback,
      getI64 (e.object parse jobId) key fallback = fallback := by
    intro key mem fallback
    rw [getI64, uncounting key mem]
  simp only [counterKeys, List.forall_mem_cons, List.not_mem_nil, false_implies, implies_true,
    and_true] at kept
  rw [applied_eq]
  simp only [counters, kept]

theorem applied_ext (same : counters a = counters b)
    (stages : (applied parse jobId a e).stages = (applied parse jobId b e).stages) :
    applied parse jobId a e = applied parse jobId b e := by
  simp only [counters, List.cons.injEq, and_true] at same
  obtain ⟨current, total, accepted, migrated, conflicts, warehouses, stocks, costs, stocksAccepted,
    costsAccepted⟩ := same
  rw [@applied_eq parse jobId a e, @applied_eq parse jobId b e, stages, current, total, accepted, migrated,
    conflicts, warehouses, stocks, costs, stocksAccepted, costsAccepted]

theorem stages_applied (running : Running e) :
    (applied parse jobId snap e).stages = progressed snap.stages e.stage := by
  unfold applied fillInventorySnapshot
  dsimp only
  rw [running.status, if_neg (by simp [running.failed]), if_neg (by simp [running.ended])]
  rfl

theorem uncounting_of (absent : ∀ obj, safeParseObject parse e.extraJson = some obj →
    ∀ key ∈ counterKeys, obj.lookup key = none) : Uncounting parse jobId e := by
  intro key mem
  have others : ∀ key ∈ counterKeys,
      key ≠ "job_id" ∧ key ≠ "stage" ∧ key ≠ "status" ∧ key ≠ "percent" := by decide
  obtain ⟨job, stage, status, percent⟩ := others key mem
  cases parsed : safeParseObject parse e.extraJson with
  | none => simp [Emission.object, parsed, lookup_setField, lookup_cons_if, job, stage, status, percent]
  | some obj =>
      simp [Emission.object, parsed, lookup_setField, lookup_mergeObject _ (absent obj parsed key mem),
        lookup_cons_if, job, stage, status, percent]

theorem uncounting_empty (empty : e.extraJson = "") : Uncounting parse jobId e := by
  refine uncounting_of fun obj parsed => ?_
  rw [empty] at parsed
  cases parsed

theorem uncounting_reports (counterless : Counterless parse) {raw normalized : Nat} :
    ∀ e ∈ reports raw normalized, Uncounting parse jobId e := by
  simp only [reports, List.forall_mem_cons, List.not_mem_nil, false_implies, implies_true, and_true]
  refine ⟨uncounting_empty rfl, uncounting_of fun obj parsed => ?_, uncounting_empty rfl⟩
  exact counterless raw normalized obj (parse_of_safeParseObject parsed)

theorem running_reports {raw normalized : Nat} :
    ∀ e ∈ reports raw normalized ++ [migrating], Running e := by
  simp only [reports, migrating, List.cons_append, List.nil_append, List.forall_mem_cons,
    List.not_mem_nil, false_implies, implies_true, and_true]
  refine ⟨⟨rfl, ?_, ?_⟩, ⟨rfl, ?_, ?_⟩, ⟨rfl, ?_, ?_⟩, ⟨rfl, ?_, ?_⟩⟩ <;> simp

end Snapshots

section Folds

variable {parse : String → Option Json} {jobId : String} {events : List Emission} {e : Emission}
  {raw normalized : Nat}

theorem folded_snoc : folded parse jobId (events ++ [e]) =
    applied parse jobId (folded parse jobId events) e := by
  simp [folded]

theorem counters_folded (uncounting : ∀ e ∈ events, Uncounting parse jobId e) :
    counters (folded parse jobId events) = counters {} := by
  induction events using List.reverseRecOn with
  | nil => rfl
  | append_singleton events e ih =>
      rw [folded_snoc, counters_applied (uncounting e (by simp))]
      exact ih fun e mem => uncounting e (List.mem_append_left _ mem)

theorem stages_folded (running : ∀ e ∈ events, Running e) :
    (folded parse jobId events).stages =
      (events.map Emission.stage).foldl progressed (startNew jobId).stages := by
  induction events using List.reverseRecOn with
  | nil => rfl
  | append_singleton events e ih =>
      have before := ih fun e mem => running e (List.mem_append_left _ mem)
      rw [folded_snoc, stages_applied (running e (by simp)), before]
      simp

theorem stages_reports {names : List String} {name : String}
    (reported : names ++ [name] <+: ["catalog", "normalize", "save"]) :
    (names ++ [name]).foldl progressed (startNew jobId).stages = progressed [] name := by
  have all : ∀ l ∈ ["catalog", "normalize", "save"].inits, l ≠ [] →
      l.foldl progressed (startNew "").stages = progressed [] (l.getLastD "") := by decide
  have mine := all _ ((List.mem_inits _ _).mpr reported) (by simp)
  rw [List.getLastD_concat] at mine
  exact mine

theorem snapshot_reports (counterless : Counterless parse)
    (reported : events ++ [e] <+: reports raw normalized) :
    e.snapshot jobId (e.object parse jobId) = folded parse jobId (events ++ [e]) := by
  have mem : ∀ d ∈ events ++ [e], d ∈ reports raw normalized := fun d here => reported.subset here
  have running : ∀ d ∈ events ++ [e], Running d :=
    fun d here => running_reports d (List.mem_append_left _ (mem d here))
  have uncounting : ∀ d ∈ events, Uncounting parse jobId d :=
    fun d here => uncounting_reports counterless d (mem d (List.mem_append_left _ here))
  have names : events.map Emission.stage ++ [e.stage] <+: ["catalog", "normalize", "save"] := by
    simpa [reports] using reported.map Emission.stage
  have own : (applied parse jobId {} e).stages = (folded parse jobId (events ++ [e])).stages := by
    rw [stages_applied (running e (by simp)), stages_folded running, List.map_append,
      List.map_singleton, stages_reports names]
  rw [folded_snoc] at own ⊢
  exact applied_ext (counters_folded uncounting).symm own

/-- The event of the migrated rows starts from pending stages, where the events before it had ended
the stage of the pull. -/
theorem snapshot_migrating : migrating.snapshot jobId (migrating.object parse jobId) ≠
    folded parse jobId (reports raw normalized ++ [migrating]) := by
  intro same
  have running : Running migrating := @running_reports 0 0 _ (by simp)
  have stages := congrArg InventorySnapshot.stages same
  have mine : (migrating.snapshot jobId (migrating.object parse jobId)).stages =
      progressed [] "migrate" := stages_applied running
  rw [mine, stages_folded running_reports] at stages
  have differ : progressed [] "migrate" ≠ ["catalog", "normalize", "save", "migrate"].foldl progressed
      (startNew "").stages := by decide
  exact differ stages

end Folds

section Shapes

variable {completed : Prop} {events other : List Emission}

/-- The events of a worker whose catalogue was stored. -/
def Passed (events : List Emission) : Prop :=
  ∃ raw normalized, reports raw normalized ++ [migrating] <+: events

def Shape (completed : Prop) (events : List Emission) : Prop :=
  (∃ raw normalized, events <+: reports raw normalized) ∨ (completed ∧ Passed events)

theorem Passed.append (passed : Passed events) : Passed (events ++ other) := by
  obtain ⟨raw, normalized, front⟩ := passed
  exact ⟨raw, normalized, front.trans (List.prefix_append _ _)⟩

theorem Shape.of_front (shape : Shape completed other) (front : events <+: other) :
    Shape completed events := by
  rcases shape with ⟨raw, normalized, early⟩ | ⟨done, raw, normalized, late⟩
  · exact Or.inl ⟨raw, normalized, front.trans early⟩
  · rcases List.prefix_or_prefix_of_prefix front late with short | long
    · rcases List.prefix_concat_iff.mp short with whole | early
      · exact Or.inr ⟨done, raw, normalized, whole ▸ List.prefix_rfl⟩
      · exact Or.inl ⟨raw, normalized, early⟩
    · exact Or.inr ⟨done, raw, normalized, long⟩

end Shapes

section Places

def quiet : Pc → Bool
  | .takeGeneration _ | .updateState _ _ _ => false
  | _ => true

/-- The place belongs to a job of generation `g`, as do those that its events lead to. -/
def Owned (g : Nat) : Pc → Prop
  | .emit job _ next | .updateState job _ next | .broadcastEvent job _ next
  | .updateCheckpoint job _ next => job.generation = g ∧ quiet next = true ∧ Owned g next
  | pc => ∀ job ∈ jobOf pc, job.generation = g

/-- The events that a process at a place may have stored, if none was dropped. -/
def Fits (completed : Prop) : Pc → List Emission → Prop
  | .emit _ e next, events | .updateState _ e next, events => Fits completed next (events ++ [e])
  | .broadcastEvent _ _ next, events | .updateCheckpoint _ _ next, events =>
      Fits completed next events
  | .takeGeneration _, events | .readAllowed _, events | .abandonRuns _, events
  | .abandonCheckpoints _, events | .startNew _, events | .startRun _, events
  | .startCheckpoint _, events => events = []
  | .pullCatalog _, events => events = [{ stage := "catalog", status := "running" }]
  | .commitCatalog _ _, events | .selectSkus _, events | .choosePeriod _, events
  | .pullKa2 _, events | .importRequest _ _, events => completed ∧ Passed events
  | .checkGeneration _ _, events | .finishRun _ _, events | .finishCheckpoint _ _, events
  | .failState _ _, events | .failBroadcast _ _, events | .finished, events
  | .resetPullRuns, events | .resetOzonRuns, events | .resetCheckpoints, events
  | .resetState, events | .resetOzon, events | .bumpGeneration, events => Shape completed events

def behind : Pc → Bool
  | .emit _ _ next | .updateState _ _ next | .broadcastEvent _ _ next
  | .updateCheckpoint _ _ next => behind next
  | .takeGeneration _ | .readAllowed _ | .abandonRuns _ | .abandonCheckpoints _ | .startNew _
  | .startRun _ | .startCheckpoint _ | .pullCatalog _ => false
  | _ => true

variable {completed : Prop} {events : List Emission} {pc : Pc}

theorem Passed.fits (passed : Passed events) (done : completed) (later : behind pc = true) :
    Fits completed pc events := by
  induction pc generalizing events with
  | emit job e next ih => exact ih passed.append later
  | updateState job e next ih => exact ih passed.append later
  | broadcastEvent job e next ih => exact ih passed later
  | updateCheckpoint job u next ih => exact ih passed later
  | commitCatalog | selectSkus | choosePeriod | pullKa2 | importRequest => exact ⟨done, passed⟩
  | takeGeneration | readAllowed | abandonRuns | abandonCheckpoints | startNew | startRun
  | startCheckpoint | pullCatalog => cases later
  | checkGeneration | finishRun | finishCheckpoint | failState | failBroadcast | finished
  | resetPullRuns | resetOzonRuns | resetCheckpoints | resetState | resetOzon | bumpGeneration =>
      exact Or.inr ⟨done, passed⟩

theorem Fits.shape (fits : Fits completed pc events) : Shape completed events := by
  have none_yet : Shape completed [] := Or.inl ⟨0, 0, List.nil_prefix⟩
  induction pc generalizing events with
  | emit job e next ih => exact (ih fits).of_front (List.prefix_append _ _)
  | updateState job e next ih => exact (ih fits).of_front (List.prefix_append _ _)
  | broadcastEvent job e next ih => exact ih fits
  | updateCheckpoint job u next ih => exact ih fits
  | commitCatalog | selectSkus | choosePeriod | pullKa2 | importRequest => exact Or.inr fits
  | takeGeneration | readAllowed | abandonRuns | abandonCheckpoints | startNew | startRun
  | startCheckpoint =>
      obtain rfl : events = [] := fits
      exact none_yet
  | pullCatalog =>
      obtain rfl : events = [{ stage := "catalog", status := "running" }] := fits
      exact Or.inl ⟨0, 0, by simp [reports]⟩
  | checkGeneration | finishRun | finishCheckpoint | failState | failBroadcast | finished
  | resetPullRuns | resetOzonRuns | resetCheckpoints | resetState | resetOzon | bumpGeneration =>
      exact fits

theorem Fits.mono {completed' : Prop} (weaker : completed → completed')
    (fits : Fits completed pc events) : Fits completed' pc events := by
  induction pc generalizing events with
  | emit job e next ih => exact ih fits
  | updateState job e next ih => exact ih fits
  | broadcastEvent job e next ih => exact ih fits
  | updateCheckpoint job u next ih => exact ih fits
  | commitCatalog | selectSkus | choosePeriod | pullKa2 | importRequest =>
      exact ⟨weaker fits.1, fits.2⟩
  | takeGeneration | readAllowed | abandonRuns | abandonCheckpoints | startNew | startRun
  | startCheckpoint | pullCatalog => exact fits
  | checkGeneration | finishRun | finishCheckpoint | failState | failBroadcast | finished
  | resetPullRuns | resetOzonRuns | resetCheckpoints | resetState | resetOzon | bumpGeneration =>
      exact Or.imp id (And.imp weaker id) fits

theorem Fits.silent {pc' : Pc} (silent : emittedAt pc = []) (fits : Fits completed pc' events) :
    Fits completed pc' (events ++ emittedAt pc) := by
  rw [silent, List.append_nil]
  exact fits

theorem fits_reportProgress (job : Job) (progress : List (String × String)) (next : Pc) :
    Fits completed (reportProgress job progress next) events ↔
      Fits completed next (events ++ progress.map fun report => ⟨report.1, "running", report.2⟩) := by
  induction progress generalizing events with
  | nil => simp [reportProgress]
  | cons report progress ih =>
      have rest := @ih (events ++ [⟨report.1, "running", report.2⟩])
      rw [List.map_cons, List.append_cons, ← rest]
      rfl

theorem quiet_reportProgress (job : Job) (progress : List (String × String)) (next : Pc)
    (calm : quiet next = true) : quiet (reportProgress job progress next) = true := by
  cases progress with
  | nil => exact calm
  | cons report progress => rfl

theorem owned_reportProgress {job : Job} {next : Pc} {g : Nat} (own : job.generation = g)
    (calm : quiet next = true) (owned : Owned g next) (progress : List (String × String)) :
    Owned g (reportProgress job progress next) := by
  induction progress with
  | nil => exact owned
  | cons report progress ih => exact ⟨own, quiet_reportProgress job progress next calm, ih⟩

end Places

section Steps

variable {env : Env} {i : Nat} {s s' : Shared} {pc pc' : Pc} {r : Reply} {x : CatalogInputs}
  {completed : Prop}

/-- What a step does to the job of a place and to the events on its way. -/
structure Moves (completed : Prop) (s : Shared) (pc pc' : Pc) : Prop where
  owned : (∀ query, pc ≠ .takeGeneration query) → ∀ g, Owned g pc → Owned g pc'
  quiet : (∀ job ∈ emitting pc, s.generation ≠ job.generation) → (∃ g, Owned g pc) →
    quiet pc' = true
  fits : (∀ job ∈ emitting pc, s.generation = job.generation) → ∀ events,
    Fits completed pc events → Fits completed pc' (events ++ emittedAt pc)

theorem request_moves (stepped : requestStep s pc r = some (s', pc')) : Moves completed s pc pc' := by
  cases pc <;> simp only [requestStep, Option.some.injEq, Prod.mk.injEq, reduceCtorEq] at stepped
  all_goals obtain ⟨-, rfl⟩ := stepped
  case takeGeneration query =>
    exact ⟨fun other => absurd rfl (other query), fun _ _ => rfl,
      fun _ events none_yet => Fits.silent rfl none_yet⟩
  case startCheckpoint job =>
    refine ⟨fun _ g owned => ?_, fun _ _ => rfl, fun _ events none_yet => ?_⟩
    · have own := owned job rfl
      refine ⟨own, rfl, ?_⟩
      rintro _ ⟨⟩
      exact own
    · obtain rfl : events = [] := none_yet
      rfl
  all_goals
    refine ⟨fun _ g owned => ?_, fun _ _ => rfl, fun _ events none_yet => Fits.silent rfl none_yet⟩
    have own := owned _ rfl
    rintro _ ⟨⟩
    exact own

theorem emit_moves (stepped : emitStep env s pc = some (s', pc')) : Moves completed s pc pc' := by
  cases pc <;> simp only [emitStep, Option.some.injEq, Prod.mk.injEq, reduceCtorEq] at stepped
  all_goals obtain ⟨-, rfl⟩ := stepped
  case emit job e next =>
    refine ⟨fun _ g owned => ?_, fun stale owned => ?_, fun current events fits => ?_⟩
    · split
      · exact owned
      · exact owned.2.2
    · obtain ⟨g, owned⟩ := owned
      rw [if_neg (stale job rfl)]
      exact owned.2.1
    · rw [if_pos (current job rfl)]
      exact Fits.silent rfl fits
  case updateState job e next =>
    exact ⟨fun _ g owned => owned, fun _ _ => rfl, fun _ events fits => fits⟩
  case broadcastEvent job e next =>
    refine ⟨fun _ g owned => owned.2.2, fun _ owned => ?_, fun _ events fits => Fits.silent rfl fits⟩
    obtain ⟨g, owned⟩ := owned
    exact owned.2.1

theorem reset_moves (stepped : resetStep s pc r = some (s', pc')) : Moves completed s pc pc' := by
  cases pc <;> simp only [resetStep, Option.some.injEq, Prod.mk.injEq, reduceCtorEq] at stepped
  all_goals
    obtain ⟨-, rfl⟩ := stepped
    refine ⟨fun _ g owned => ?_, fun _ _ => ?_, fun _ events fits => Fits.silent rfl ?_⟩
    · try split
      all_goals
        rintro _ ⟨⟩
    · first
        | rfl
        | (split <;> rfl)
    · first
        | exact fits
        | (split <;> exact fits)

structure Leads (g : Nat) (pc : Pc) : Prop where
  calm : quiet pc = true
  later : behind pc = true
  owned : Owned g pc

section Leading

variable {g : Nat} {job : Job} {next : Pc}

theorem of_same_job (own : job.generation = g) : ∀ other ∈ some job, other.generation = g := by
  rintro _ ⟨⟩
  exact own

theorem Leads.emit (own : job.generation = g) (leads : Leads g next) (e : Emission) :
    Leads g (.emit job e next) := ⟨rfl, leads.later, own, leads.calm, leads.owned⟩

theorem Leads.updateCheckpoint (own : job.generation = g) (leads : Leads g next)
    (u : Store.Checkpoints.CheckpointUpdate) : Leads g (.updateCheckpoint job u next) :=
  ⟨rfl, leads.later, own, leads.calm, leads.owned⟩

theorem leads_checkGeneration (own : job.generation = g) (ending : Ending) :
    Leads g (.checkGeneration job ending) := ⟨rfl, rfl, of_same_job own⟩

theorem leads_failWith (own : job.generation = g) (error stage : String) :
    Leads g (failWith job error stage) := (leads_checkGeneration own _).emit own _

theorem leads_afterCatalog (own : job.generation = g) : Leads g (afterCatalog job) := by
  have selecting : Leads g (.selectSkus job) := ⟨rfl, rfl, of_same_job own⟩
  exact (selecting.updateCheckpoint own _).emit own _

theorem leads_afterPull (own : job.generation = g) (env : Env) : Leads g (afterPull job env) := by
  have importing : ∀ req, Leads g (.importRequest job req) := fun _ => ⟨rfl, rfl, of_same_job own⟩
  exact (((importing _).emit own _).updateCheckpoint own _).emit own _

theorem leads_afterImport (own : job.generation = g) (req : SnapshotRequest) (saved : ImportResult) :
    Leads g (afterImport job req saved) :=
  (((leads_checkGeneration own _).emit own _).updateCheckpoint own _).emit own _

end Leading

def between : Pc → Option Job
  | .commitCatalog job _ | .selectSkus job | .choosePeriod job | .pullKa2 job
  | .importRequest job _ => some job
  | _ => none

theorem moves_between {job : Job} (here : between pc = some job) (leads : Leads job.generation pc') :
    Moves completed s pc pc' := by
  have known : emittedAt pc = [] ∧ (∀ g, Owned g pc → job.generation = g) ∧
      ∀ events, Fits completed pc events → completed ∧ Passed events := by
    cases pc <;> cases here
    all_goals exact ⟨rfl, fun g owned => owned job rfl, fun _ fits => fits⟩
  obtain ⟨silent, owner, late⟩ := known
  refine ⟨fun _ g owned => owner g owned ▸ leads.owned, fun _ _ => leads.calm,
    fun _ events fits => Fits.silent silent ?_⟩
  obtain ⟨done, passed⟩ := late events fits
  exact passed.fits done leads.later

def closing : Pc → Bool
  | .checkGeneration _ _ | .finishRun _ _ | .finishCheckpoint _ _ | .failState _ _
  | .failBroadcast _ _ | .finished => true
  | _ => false

theorem moves_closing (here : closing pc = true) (there : closing pc' = true)
    (same : jobOf pc' = jobOf pc ∨ jobOf pc' = none) : Moves completed s pc pc' := by
  have known : ∀ {place}, closing place = true → emittedAt place = [] ∧ quiet place = true ∧
      (∀ g, Owned g place ↔ ∀ job ∈ jobOf place, job.generation = g) ∧
      ∀ events, Fits completed place events ↔ Shape completed events := by
    intro place ends
    cases place <;> cases ends
    all_goals exact ⟨rfl, rfl, fun _ => Iff.rfl, fun _ => Iff.rfl⟩
  obtain ⟨silent, -, owner, shape⟩ := known here
  obtain ⟨-, calm, owner', shape'⟩ := known there
  refine ⟨fun _ g owned => (owner' g).mpr fun job mem => ?_, fun _ _ => calm,
    fun _ events fits => Fits.silent silent ((shape' events).mpr ((shape events).mp fits))⟩
  rcases same with same | none_left
  · exact (owner g).mp owned job (same ▸ mem)
  · rw [none_left] at mem
    cases mem

theorem pullCatalog_moves {job : Job} (done : r.dbOk = true → x.Completes → completed)
    (stepped : workerStep env s (.pullCatalog job) { r with catalog := x.pull } = some (s', pc')) :
    Moves completed s (.pullCatalog job) pc' := by
  have stopped : ∀ (error : String) (progress : List (String × String)) (raw normalized : Nat),
      [⟨"catalog", "running", ""⟩] ++ progress.map (fun report => ⟨report.1, "running", report.2⟩) <+:
        reports raw normalized →
      Moves completed s (.pullCatalog job) (reportProgress job progress (caught job error)) := by
    intro error progress raw normalized front
    refine ⟨fun _ g owned => ?_, fun _ _ => ?_, fun _ events here => Fits.silent rfl ?_⟩
    · have own : job.generation = g := owned job rfl
      refine owned_reportProgress own rfl ?_ progress
      exact of_same_job own
    · exact quiet_reportProgress job progress _ rfl
    · obtain rfl : events = [⟨"catalog", "running", ""⟩] := here
      exact (fits_reportProgress job progress _).mpr (Or.inl ⟨raw, normalized, front⟩)
  simp only [workerStep, Option.some.injEq, Prod.mk.injEq] at stepped
  obtain ⟨-, rfl⟩ := stepped
  split
  · rename_i alive
    by_cases completes : x.Completes
    · obtain ⟨raw, normalized, result, same⟩ := CatalogInputs.pull_completes completes
      rw [same]
      dsimp only
      refine ⟨fun _ g owned => ?_, fun _ _ => ?_, fun _ events here => Fits.silent rfl ?_⟩
      · have own : job.generation = g := owned job rfl
        refine owned_reportProgress own rfl ?_ _
        exact of_same_job own
      · exact quiet_reportProgress _ _ _ rfl
      · obtain rfl : events = [⟨"catalog", "running", ""⟩] := here
        rw [fits_reportProgress]
        exact ⟨done alive completes, raw, normalized, List.prefix_rfl⟩
    · obtain ⟨text, same | ⟨raw, normalized, same⟩⟩ := CatalogInputs.pull_stops completes
      · rw [same]
        exact stopped text [] 0 0 (by simp [reports])
      · rw [same]
        exact stopped text _ raw normalized List.prefix_rfl
  · exact stopped r.what [] 0 0 (by simp [reports])

theorem worker_moves (done : ∀ job, pc = .pullCatalog job → r.dbOk = true → x.Completes → completed)
    (stepped : workerStep env s pc { r with catalog := x.pull } = some (s', pc')) :
    Moves completed s pc pc' := by
  cases pc
  case pullCatalog job => exact pullCatalog_moves (done job rfl) stepped
  case commitCatalog job change =>
    refine moves_between rfl ?_
    simp only [workerStep] at stepped
    split at stepped
    all_goals cases stepped
    · exact leads_afterCatalog rfl
    · exact leads_checkGeneration rfl _
  case updateCheckpoint job u next =>
    cases stepped
    refine ⟨fun _ g owned => owned.2.2, fun _ owned => ?_, fun _ events fits => Fits.silent rfl fits⟩
    obtain ⟨g, owned⟩ := owned
    exact owned.2.1
  case selectSkus job =>
    refine moves_between rfl ?_
    cases stepped
    split
    · split
      · exact leads_checkGeneration rfl _
      · exact leads_failWith rfl _ _
      · exact ⟨rfl, rfl, of_same_job rfl⟩
    · exact leads_checkGeneration rfl _
  case choosePeriod job =>
    refine moves_between rfl ?_
    cases stepped
    apply Leads.emit
    · rfl
    · exact ⟨rfl, rfl, of_same_job rfl⟩
  case pullKa2 job =>
    refine moves_between rfl ?_
    cases stepped
    split
    · exact leads_checkGeneration rfl _
    · apply leads_afterPull
      rfl
  case importRequest job req =>
    refine moves_between rfl ?_
    simp only [workerStep] at stepped
    split at stepped
    all_goals cases stepped
    · split
      · exact leads_afterImport rfl req _
      · exact leads_failWith rfl _ _
    · exact leads_failWith rfl _ _
  case checkGeneration job ending =>
    cases stepped
    split
    · exact moves_closing rfl rfl (Or.inl rfl)
    · exact moves_closing rfl rfl (Or.inr rfl)
  case finishRun job ending =>
    cases stepped
    exact moves_closing rfl rfl (Or.inl rfl)
  case finishCheckpoint job ending =>
    cases stepped
    cases ending
    case thrown error => exact moves_closing rfl rfl (Or.inl rfl)
    all_goals exact moves_closing rfl rfl (Or.inr rfl)
  case failState job error =>
    cases stepped
    exact moves_closing rfl rfl (Or.inl rfl)
  case failBroadcast job error =>
    cases stepped
    exact moves_closing rfl rfl (Or.inr rfl)
  all_goals cases stepped

end Steps

section Runs

variable {env : Env} {i : Nat} {s s' : Shared} {pc pc' : Pc} {p q : Proc} {x : Reply × CatalogInputs}
  {completed : Prop} {generation : Nat}

theorem pulling_moves
    (done : ∀ job, pc = .pullCatalog job → x.1.dbOk = true → x.2.Completes → completed)
    (stepped : (pulling env).step i s pc x = some (s', pc')) : Moves completed s pc pc' := by
  rcases jobs_step (i := i) stepped with request | emit | worked | reset
  · exact request_moves request
  · exact emit_moves emit
  · exact worker_moves done worked
  · exact reset_moves reset

theorem generation_of_emitting {g : Nat} (owned : Owned g pc) :
    ∀ job ∈ emitting pc, job.generation = g := by
  intro job mem
  cases pc <;> cases mem
  exact owned.1

theorem emittedAt_of_quiet (calm : quiet pc = true) : emittedAt pc = [] := by
  cases pc <;> first | rfl | cases calm

/-- What is known of a process: its events are those of its place, or it was superseded. -/
def Known (generation : Nat) (p : Proc) : Prop :=
  ∃ g, g ≤ generation ∧ Owned g p.1 ∧
    (Fits (PullCompleted p.2) p.1 (emitted p.2) ∨
      (g < generation ∧ quiet p.1 = true ∧ Shape (PullCompleted p.2) (emitted p.2)))

theorem Known.mono (known : Known generation p) {later : Nat} (grows : generation ≤ later) :
    Known later p := by
  obtain ⟨g, before, owned, fits | ⟨older, calm, shape⟩⟩ := known
  · exact ⟨g, before.trans grows, owned, Or.inl fits⟩
  · exact ⟨g, before.trans grows, owned, Or.inr ⟨older.trans_le grows, calm, shape⟩⟩

theorem known_entry (entry : (pulling env).recording.entry p = true) : Known generation p := by
  obtain ⟨call, fresh⟩ := recording_entry entry
  obtain ⟨pc, history⟩ := p
  obtain rfl : history = [] := fresh
  have called : isCall pc = true := call
  refine ⟨0, Nat.zero_le _, ?_, Or.inl ?_⟩
  · cases pc <;> cases called
    all_goals
      rintro _ ⟨⟩
  · cases pc <;> cases called
    · rfl
    · exact Or.inl ⟨0, 0, List.nil_prefix⟩

theorem Known.step (known : Known s.generation p)
    (stepped : (pulling env).recording.step i s p x = some (s', q)) : Known s'.generation q := by
  obtain ⟨inner, past⟩ := recording_step stepped
  obtain ⟨pc, history⟩ := p
  obtain ⟨pc', history'⟩ := q
  obtain rfl : history' = history ++ [(pc, x)] := past
  have grows : s.generation ≤ s'.generation := (jobs_shows (i := i) inner).generation
  have weaker : PullCompleted history → PullCompleted (history ++ [(pc, x)]) :=
    fun completed => pullCompleted_snoc.mpr (Or.inl completed)
  have moves : Moves (PullCompleted (history ++ [(pc, x)])) s pc pc' :=
    pulling_moves (fun job here alive completes =>
      pullCompleted_snoc.mpr (Or.inr ⟨job, here, alive, completes⟩)) inner
  obtain ⟨g, before, owned, state⟩ := known
  unfold Known
  rw [emitted_snoc]
  by_cases taking : ∃ query, pc = .takeGeneration query
  · obtain ⟨query, rfl⟩ := taking
    rcases state with fits | ⟨-, calm, -⟩
    · have here := moves.fits (by rintro _ ⟨⟩) _ (fits.mono weaker)
      cases inner
      exact ⟨s.generation + 1, le_refl _, of_same_job rfl, Or.inl here⟩
    · cases calm
  · have owned' := moves.owned (not_exists.mp taking) g owned
    refine ⟨g, before.trans grows, owned', ?_⟩
    rcases state with fits | ⟨older, calm, shape⟩
    · by_cases current : ∀ job ∈ emitting pc, s.generation = job.generation
      · exact Or.inl (moves.fits current _ (fits.mono weaker))
      · -- the event is dropped: the generation has left that of the job behind
        obtain ⟨job, mem, changed⟩ : ∃ job ∈ emitting pc, s.generation ≠ job.generation := by
          simpa using current
        have own := generation_of_emitting owned job mem
        have all : ∀ other ∈ emitting pc, s.generation ≠ other.generation := by
          intro other same
          obtain rfl : job = other := Option.some.inj (mem.symm.trans same)
          exact changed
        have silent : emittedAt pc = [] := by
          cases pc <;> cases mem
          rfl
        rw [silent, List.append_nil]
        exact Or.inr ⟨by omega, moves.quiet all ⟨g, owned⟩,
          fits.shape.imp_right (And.imp weaker id)⟩
    · have stale : ∀ job ∈ emitting pc, s.generation ≠ job.generation := by
        intro job mem
        have own := generation_of_emitting owned job mem
        omega
      rw [emittedAt_of_quiet calm, List.append_nil]
      exact Or.inr ⟨older.trans_le grows, moves.quiet stale ⟨g, owned⟩, shape.imp_right (And.imp weaker id)⟩

theorem known_of_reach {s₀ : Shared} {c : Config Shared Proc}
    (reach : Reach (pulling env).recording anyLabel ⟨s₀, []⟩ c) :
    ∀ p ∈ c.procs, Known c.shared.generation p := by
  refine reach.invariant (I := fun c => ∀ p ∈ c.procs, Known c.shared.generation p)
    (fun _ mem => nomatch mem) fun c d l before _ next => ?_
  rcases next_cases next with ⟨p, rfl, entry, rfl⟩ | ⟨i, x, p, s, q, rfl, at_i, stepped, rfl⟩
  · exact forall_mem_snoc before (known_entry entry)
  · have grows : c.shared.generation ≤ s.generation :=
      (jobs_shows (i := i) (recording_step stepped).1).generation
    exact forall_mem_set (fun other mem => (before other mem).mono grows)
      ((before p (List.mem_of_getElem? at_i)).step stepped)

theorem incremental_of_reports {raw normalized : Nat} {history : List (Pc × (Reply × CatalogInputs))}
    (counterless : Counterless env.parse) (front : emitted history <+: reports raw normalized) :
    Incremental env history := by
  intro past job e next x rest same state
  have split : emitted history = (emitted past ++ [e]) ++ emitted rest := by
    rw [same, emitted, List.flatMap_append, List.flatMap_cons, List.append_assoc]
    rfl
  have until_e : emitted past ++ [e] <+: reports raw normalized :=
    (split ▸ List.prefix_append _ _).trans front
  exact congrArg some (snapshot_reports counterless until_e)

theorem not_incremental_of_passed {history : List (Pc × (Reply × CatalogInputs))}
    (passed : Passed (emitted history)) : ¬ Incremental env history := by
  intro incremental
  obtain ⟨raw, normalized, tail, same⟩ := passed
  rw [List.append_assoc] at same
  obtain ⟨past, job, next, x, rest, split, earlier⟩ := emitted_split same.symm
  have stored := incremental past job migrating next x rest split none
  rw [earlier] at stored
  exact snapshot_migrating (Option.some.inj stored)

end Runs

/-- In every run: the state after each step of a process is the one of the place it leaves; its events
stored the snapshots that the events of their job build up from the one of `start_new` exactly if no event
of migrated rows is among them; and there is none unless the catalogue pull was carried out to its end. -/
theorem stored_snapshots_incremental_iff (env : Env) (s₀ : Shared) (c : Config Shared Proc) (i : Nat)
    (p : Proc) (counterless : Counterless env.parse)
    (reach : Reach (pulling env).recording anyLabel ⟨s₀, []⟩ c) (at_i : c.procs[i]? = some p) :
    (∀ x d, (pulling env).recording.next c (.act i x) = some d →
      d.shared.state = stateAfter env p.1 c.shared.state) ∧
    (Incremental env p.2 ↔ ¬ Migrated p.2) ∧ (Migrated p.2 → PullCompleted p.2) := by
  have shape : Shape (PullCompleted p.2) (emitted p.2) := by
    obtain ⟨g, -, -, fits | ⟨-, -, shape⟩⟩ := known_of_reach reach p (List.mem_of_getElem? at_i)
    · exact fits.shape
    · exact shape
  refine ⟨fun x d next => ?_, ?_⟩
  · obtain ⟨p', s, q, at_i', stepped, rfl⟩ := next_act next
    obtain rfl : p = p' := Option.some.inj (at_i.symm.trans at_i')
    exact (jobs_shows (i := i) (recording_step stepped).1).state
  · rcases shape with ⟨raw, normalized, front⟩ | ⟨completed, passed⟩
    · have none_migrated : ¬ Migrated p.2 := by
        intro migrated
        have mem := front.subset migrated
        simp [reports, migrating] at mem
      exact ⟨⟨fun _ => none_migrated, fun _ => incremental_of_reports counterless front⟩,
        fun migrated => absurd migrated none_migrated⟩
    · have migrated : Migrated p.2 := by
        obtain ⟨raw, normalized, front⟩ := passed
        exact front.subset (by simp)
      exact ⟨⟨fun incremental => absurd incremental (not_incremental_of_passed passed),
        fun none_migrated => absurd migrated none_migrated⟩, fun _ => completed⟩

section Sample

open Scand.Catalog.LinkTables (oldDb)
open Scand.Catalog.Truncation (linkedDb)
open Scand.InventoryPull.Percent (answering linked_pull old_pull pullSteps run_answering sampleEnv
  sampleInputs sample_normalized)

deriving instance DecidableEq for Emission

private theorem next_answering {x : CatalogInputs} {pull : CatalogPull} (same : x.pull = pull)
    (c : Config Shared Proc) : (pulling sampleEnv).recording.next c (.act 0 ({}, x)) =
      (answering pull).recording.next c (.act 0 ({}, x)) := by
  simp only [Machine.next, Machine.recording, pulling, answering, same]

/-- A catalogue that is stored: the event of its migrated rows shows the pull of the stocks as pending,
where the events before it had it done. -/
theorem migrate_forgets_stages :
    ∃ c d p job next snap, Reach (pulling sampleEnv).recording anyLabel ⟨{}, []⟩ c ∧
      c.procs[0]? = some p ∧ p.1 = .updateState job migrating next ∧
      (pulling sampleEnv).recording.next c (.act 0 ({}, sampleInputs linkedDb)) = some d ∧
      d.shared.state = some snap ∧ snap.stages.lookup "ka2_pull" = some "pending" ∧
      (folded sampleEnv.parse job.jobId (emitted p.2 ++ [migrating])).stages.lookup "ka2_pull" =
        some "done" ∧
      d.shared.state ≠ some (folded sampleEnv.parse job.jobId (emitted p.2 ++ [migrating])) := by
  let x := sampleInputs linkedDb
  let test (c d : Config Shared Proc) : Bool :=
    (c.procs[0]?.any fun p => decide (emittedAt p.1 = [migrating]) && (jobOf p.1).any fun job =>
      (folded sampleEnv.parse job.jobId (emitted p.2 ++ [migrating])).stages.lookup "ka2_pull" =
        some "done") &&
    d.shared.state.any fun snap => snap.stages.lookup "ka2_pull" = some "pending"
  have ran : (((pulling sampleEnv).recording.run (fun _ _ => true) ⟨{}, []⟩ (pullSteps x 18)).bind
      fun c => ((pulling sampleEnv).recording.next c (.act 0 ({}, x))).map (test c)) = some true := by
    simp only [run_answering linked_pull, next_answering linked_pull, x]
    decide
  obtain ⟨c, d, reach, next, passed⟩ := reach_next_of_run_test (G := anyLabel) _ _ test
    (fun _ _ _ => trivial) ran
  simp only [test, Bool.and_eq_true, Option.any_eq_true, decide_eq_true_eq] at passed
  obtain ⟨⟨p, at_0, place, job, owner, folds⟩, snap, stored, pending⟩ := passed
  obtain ⟨after, here⟩ : ∃ after, p.1 = .updateState job migrating after := by
    cases here : p.1 <;> rw [here] at place owner <;> simp [emittedAt, jobOf] at place owner
    exact ⟨_, by rw [place, owner]⟩
  refine ⟨c, d, p, job, after, snap, reach, at_0, here, next, stored, pending, folds, fun same => ?_⟩
  rw [Option.some.inj (stored.symm.trans same), folds] at pending
  exact absurd pending (by decide)

theorem sample_counterless : Counterless sampleEnv.parse := by
  intro raw normalized obj read
  rw [sample_normalized read]
  decide

theorem stored_snapshots_incremental_iff_refused :
    ∃ p : Proc, p.1 = .finished ∧ emitted p.2 = reports 0 0 ∧ Incremental sampleEnv p.2 := by
  have ran : ((pulling sampleEnv).recording.run (fun _ _ => true) ⟨{}, []⟩
      (pullSteps (sampleInputs oldDb) 22)).map (fun c => c.procs[0]?.any fun p =>
        SingleJob.isFinished p.1 && decide (emitted p.2 = reports 0 0)) = some true := by
    rw [run_answering old_pull]
    decide
  obtain ⟨c, reach, test⟩ := reach_of_run_test (G := anyLabel) _ _ (fun _ _ _ => trivial) ran
  simp only [Bool.and_eq_true, Option.any_eq_true, decide_eq_true_eq] at test
  obtain ⟨p, at_0, stands, events⟩ := test
  have finished : p.1 = .finished := by
    cases place : p.1 <;> rw [place] at stands <;> first | rfl | cases stands
  have none_migrated : ¬ Migrated p.2 := by
    unfold Migrated
    rw [events]
    decide
  exact ⟨p, finished, events,
    (stored_snapshots_incremental_iff sampleEnv {} c 0 p sample_counterless reach at_0).2.1.mpr
      none_migrated⟩

end Sample

end Scand.InventoryPull.StoredSnapshots
