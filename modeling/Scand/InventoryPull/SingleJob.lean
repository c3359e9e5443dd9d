/- path: Scand/InventoryPull/SingleJob
   layer: results
   digest: At most one inventory pull has running rows, and none is left when everything has ended, as
   long as a request opens its rows with the last generation. -/

import Scand.Foundation.Tickets
import Scand.InventoryPull.Jobs

set_option autoImplicit false
set_option relaxedAutoImplicit false

namespace Scand.InventoryPull.SingleJob

open Scand.Foundation.Interleaving
open Scand.Foundation.Tickets
open Scand.InventoryPull.Events (Emission)
open Scand.InventoryPull.Jobs
open Scand.Store
open Scand.Store.Checkpoints (InventoryCheckpoint)
open Scand.Store.SyncRuns (SyncRun)

def openRuns (s : Shared) : List SyncRun :=
  s.syncRuns.filter (SyncRuns.runningOf 1 "inventory_pull")

def openCheckpoints (s : Shared) : List InventoryCheckpoint :=
  s.checkpoints.rows.filter (Checkpoints.runningOf 1)

/-- Where a request, a worker or a reset stands with respect to the rows of `sync_runs`. -/
def runPhase : Pc → Phase String
  | .readAllowed job | .abandonRuns job => .ticketed job.generation
  | .abandonCheckpoints job | .startNew job | .startRun job => .cleared job.generation
  | .startCheckpoint job | .pullCatalog job | .commitCatalog job _ | .selectSkus job
  | .choosePeriod job | .pullKa2 job | .importRequest job _ | .checkGeneration job _ =>
      .holding job.generation job.jobId
  | .emit _ _ next | .updateState _ _ next | .broadcastEvent _ _ next
  | .updateCheckpoint _ _ next => runPhase next
  | .finishRun job _ => .closing job.jobId
  | .resetOzonRuns | .resetCheckpoints | .resetState | .resetOzon | .bumpGeneration => .bumping
  | .takeGeneration _ | .finishCheckpoint _ _ | .failState _ _ | .failBroadcast _ _ | .finished
  | .resetPullRuns => .outside

def checkpointPhase : Pc → Phase String
  | .readAllowed job | .abandonRuns job | .abandonCheckpoints job => .ticketed job.generation
  | .startNew job | .startRun job | .startCheckpoint job => .cleared job.generation
  | .pullCatalog job | .commitCatalog job _ | .selectSkus job | .choosePeriod job | .pullKa2 job
  | .importRequest job _ | .checkGeneration job _ => .holding job.generation job.jobId
  | .emit _ _ next | .updateState _ _ next | .broadcastEvent _ _ next
  | .updateCheckpoint _ _ next => checkpointPhase next
  | .finishRun job _ | .finishCheckpoint job _ => .closing job.jobId
  | .resetState | .resetOzon | .bumpGeneration => .bumping
  | .takeGeneration _ | .failState _ _ | .failBroadcast _ _ | .finished | .resetPullRuns
  | .resetOzonRuns | .resetCheckpoints => .outside

/-- A request opens a row while its generation is the last one, and not between the statement of a
reset that closes the running rows and its increment of the generation. -/
def StartsTimely (c : Config Shared Pc) : Pc → Prop
  | .startRun job => job.generation = c.shared.generation ∧ ∀ pc ∈ c.procs, runPhase pc ≠ .bumping
  | .startCheckpoint job => job.generation = c.shared.generation ∧
      ∀ pc ∈ c.procs, checkpointPhase pc ≠ .bumping
  | _ => True

/-- Every database call succeeds, and rows are opened in time. -/
def Timely (c : Config Shared Pc) : Label Pc Reply → Prop
  | .spawn _ => True
  | .act i r => r.dbOk = true ∧ ∀ pc ∈ c.procs[i]?, StartsTimely c pc

def CallsSucceed (_ : Config Shared Pc) : Label Pc Reply → Prop
  | .spawn _ => True
  | .act _ r => r.dbOk = true

def runJobs (s : Shared) : List String := SyncRuns.runningJobs 1 "inventory_pull" s.syncRuns

def checkpointJobs (s : Shared) : List String := Checkpoints.runningJobs 1 s.checkpoints

theorem runJobs_eq (s : Shared) : runJobs s = (openRuns s).map SyncRun.jobId := rfl

theorem checkpointJobs_eq (s : Shared) :
    checkpointJobs s = (openCheckpoints s).map InventoryCheckpoint.jobId := rfl

section Chains

variable (job : Job)

@[simp] theorem runPhase_reportProgress (progress : List (String × String)) (next : Pc) :
    runPhase (reportProgress job progress next) = runPhase next := by
  induction progress with
  | nil => rfl
  | cons report progress ih => exact ih

@[simp] theorem checkpointPhase_reportProgress (progress : List (String × String)) (next : Pc) :
    checkpointPhase (reportProgress job progress next) = checkpointPhase next := by
  induction progress with
  | nil => rfl
  | cons report progress ih => exact ih

end Chains

section Steps

variable {env : Env} {i : Nat} {s s' : Shared} {pc pc' : Pc} {r : Reply}

structure Slots (s : Shared) (pc : Pc) (s' : Shared) (pc' : Pc) : Prop where
  run : SlotStep s.generation (runJobs s) (runPhase pc) s'.generation (runJobs s') (runPhase pc')
  checkpoint : SlotStep s.generation (checkpointJobs s) (checkpointPhase pc) s'.generation
    (checkpointJobs s') (checkpointPhase pc')

private theorem slots_stay (generation : s'.generation = s.generation)
    (runs : runJobs s' = runJobs s) (checkpoints : checkpointJobs s' = checkpointJobs s)
    (run : runPhase pc' = runPhase pc) (checkpoint : checkpointPhase pc' = checkpointPhase pc) :
    Slots s pc s' pc' := by
  refine ⟨?_, ?_⟩
  · rw [generation, runs, run]
    exact .keep (List.Sublist.refl _)
  · rw [generation, checkpoints, checkpoint]
    exact .keep (List.Sublist.refl _)

private theorem request_slots (ok : r.dbOk = true)
    (stepped : requestStep s pc r = some (s', pc')) : Slots s pc s' pc' := by
  cases pc <;> simp only [requestStep, Option.some.injEq, Prod.mk.injEq, reduceCtorEq, updateRuns,
    updateCheckpoints, ok, if_true] at stepped
  case takeGeneration query =>
    obtain ⟨rfl, rfl⟩ := stepped
    exact ⟨.take, .take⟩
  case abandonRuns job =>
    obtain ⟨rfl, rfl⟩ := stepped
    refine ⟨?_, .keep (List.Sublist.refl _)⟩
    simp only [runJobs, SyncRuns.runningJobs_abandon]
    exact .clear
  case abandonCheckpoints job =>
    obtain ⟨rfl, rfl⟩ := stepped
    refine ⟨.keep (List.Sublist.refl _), ?_⟩
    simp only [checkpointJobs, Checkpoints.runningJobs_abandon]
    exact .clear
  case startRun job =>
    obtain ⟨rfl, rfl⟩ := stepped
    exact ⟨.start (Or.inl SyncRuns.runningJobs_start), .keep (List.Sublist.refl _)⟩
  case startCheckpoint job =>
    obtain ⟨rfl, rfl⟩ := stepped
    refine ⟨.keep (List.Sublist.refl _), .start (Or.inr ?_)⟩
    obtain ⟨u, started, only⟩ := Checkpoints.start_ok s.checkpoints 1 job.jobId
    simp only [checkpointJobs, startCheckpoint, started, Except.toOption, Option.getD_some, only]
  all_goals
    obtain ⟨rfl, rfl⟩ := stepped
    exact slots_stay rfl rfl rfl rfl rfl

private theorem emit_slots (stepped : emitStep env s pc = some (s', pc')) : Slots s pc s' pc' := by
  cases pc <;> simp only [emitStep, Option.some.injEq, Prod.mk.injEq, reduceCtorEq] at stepped
  all_goals
    obtain ⟨rfl, rfl⟩ := stepped
    try split
    all_goals exact slots_stay rfl rfl rfl rfl rfl

private theorem holds_afterProgress (job : Job) (pull : CatalogPull) :
    runPhase (reportProgress job pull.progress (match pull.outcome with
      | .error e => caught job e
      | .ok (result, change) => .commitCatalog { job with catalog := result } change)) =
        .holding job.generation job.jobId ∧
      checkpointPhase (reportProgress job pull.progress (match pull.outcome with
        | .error e => caught job e
        | .ok (result, change) => .commitCatalog { job with catalog := result } change)) =
        .holding job.generation job.jobId := by
  rw [runPhase_reportProgress, checkpointPhase_reportProgress]
  split <;> exact ⟨rfl, rfl⟩

private theorem worker_slots (ok : r.dbOk = true)
    (stepped : workerStep env s pc r = some (s', pc')) : Slots s pc s' pc' := by
  cases pc <;> simp only [workerStep, Option.some.injEq, Prod.mk.injEq, reduceCtorEq, updateRuns,
    updateCheckpoints, ok, if_true] at stepped
  case pullCatalog job =>
    obtain ⟨rfl, rfl⟩ := stepped
    obtain ⟨run, checkpoint⟩ := holds_afterProgress job r.catalog
    exact slots_stay rfl rfl rfl run checkpoint
  case updateCheckpoint job u next =>
    obtain ⟨rfl, rfl⟩ := stepped
    exact slots_stay rfl rfl (Checkpoints.runningJobs_update _ _) rfl rfl
  case checkGeneration job ending =>
    obtain ⟨rfl, rfl⟩ := stepped
    split
    · rename_i current
      have decided : ∀ jobs : List String, SlotStep s.generation jobs
          (.holding job.generation job.jobId) s.generation jobs (.closing job.jobId) :=
        fun _ => current ▸ .decided
      exact ⟨decided _, decided _⟩
    · rename_i stale
      exact ⟨.drop (Ne.symm stale), .drop (Ne.symm stale)⟩
  case finishRun job ending =>
    obtain ⟨rfl, rfl⟩ := stepped
    refine ⟨?_, .keep (List.Sublist.refl _)⟩
    cases ending with
    | done counts =>
        simp only [runJobs, SyncRuns.runningJobs_finishDone]
        exact .finish
    | failed error stage =>
        simp only [runJobs, SyncRuns.runningJobs_finishFailed]
        exact .finish
    | thrown error =>
        simp only [runJobs, SyncRuns.runningJobs_finishFailed]
        exact .finish
  case finishCheckpoint job ending =>
    obtain ⟨rfl, rfl⟩ := stepped
    cases ending with
    | done counts =>
        refine ⟨.keep (List.Sublist.refl _), ?_⟩
        simp only [checkpointJobs, Checkpoints.runningJobs_finish]
        exact .finish
    | failed error stage =>
        refine ⟨.keep (List.Sublist.refl _), ?_⟩
        simp only [checkpointJobs, Checkpoints.runningJobs_finish]
        exact .finish
    | thrown error =>
        refine ⟨.keep (List.Sublist.refl _), ?_⟩
        simp only [checkpointJobs, Checkpoints.runningJobs_finish]
        exact .finish
  all_goals
    obtain ⟨rfl, rfl⟩ := stepped
    try split
    all_goals exact slots_stay rfl rfl rfl rfl rfl

private theorem reset_slots (ok : r.dbOk = true)
    (stepped : resetStep s pc r = some (s', pc')) : Slots s pc s' pc' := by
  cases pc <;> simp only [resetStep, Option.some.injEq, Prod.mk.injEq, reduceCtorEq, updateRuns,
    updateCheckpoints, ok, if_true] at stepped
  case resetPullRuns =>
    obtain ⟨rfl, rfl⟩ := stepped
    refine ⟨?_, .keep (List.Sublist.refl _)⟩
    simp only [runJobs, SyncRuns.runningJobs_abandon]
    exact .wipe
  case resetOzonRuns =>
    obtain ⟨rfl, rfl⟩ := stepped
    exact slots_stay rfl (SyncRuns.runningJobs_abandon_other (by decide) _) rfl rfl rfl
  case resetCheckpoints =>
    obtain ⟨rfl, rfl⟩ := stepped
    refine ⟨.keep (List.Sublist.refl _), ?_⟩
    simp only [checkpointJobs, Checkpoints.runningJobs_abandon]
    exact .wipe
  case bumpGeneration =>
    obtain ⟨rfl, rfl⟩ := stepped
    exact ⟨.bump, .bump⟩
  all_goals
    obtain ⟨rfl, rfl⟩ := stepped
    exact slots_stay rfl rfl rfl rfl rfl

theorem jobs_slots (ok : r.dbOk = true) (stepped : (jobs env).step i s pc r = some (s', pc')) :
    Slots s pc s' pc' := by
  rcases jobs_step stepped with request | emitted | worked | reset
  · exact request_slots ok request
  · exact emit_slots emitted
  · exact worker_slots ok worked
  · exact reset_slots ok reset

private theorem opening_place {t : Nat} {job : String}
    (stepped : (jobs env).step i s pc r = some (s', pc')) :
    (runPhase pc = .cleared t → runPhase pc' = .holding t job →
      ∃ job, pc = .startRun job ∧ job.generation = t) ∧
    (checkpointPhase pc = .cleared t → checkpointPhase pc' = .holding t job →
      ∃ job, pc = .startCheckpoint job ∧ job.generation = t) := by
  rcases jobs_step stepped with request | emitted | worked | reset
  · cases pc <;> simp only [requestStep, Option.some.injEq, Prod.mk.injEq, reduceCtorEq] at request
    all_goals
      obtain ⟨-, rfl⟩ := request
      refine ⟨fun before after => ?_, fun before after => ?_⟩
      all_goals first | cases before; done | cases after; done | (cases before; exact ⟨_, rfl, rfl⟩)
  · have same : runPhase pc' = runPhase pc ∧ checkpointPhase pc' = checkpointPhase pc := by
      cases pc <;> simp only [emitStep, Option.some.injEq, Prod.mk.injEq, reduceCtorEq] at emitted
      all_goals
        obtain ⟨-, rfl⟩ := emitted
        try split
        all_goals exact ⟨rfl, rfl⟩
    rw [same.1, same.2]
    exact ⟨fun before after => (nomatch before.symm.trans after),
      fun before after => (nomatch before.symm.trans after)⟩
  · cases pc <;> simp only [workerStep, reduceCtorEq] at worked
    case updateCheckpoint job u next =>
      cases worked
      exact ⟨fun before after => (nomatch before.symm.trans after),
        fun before after => (nomatch before.symm.trans after)⟩
    all_goals exact ⟨fun before => (nomatch before), fun before => (nomatch before)⟩
  · cases pc <;> simp only [resetStep, reduceCtorEq] at reset
    all_goals exact ⟨fun before => (nomatch before), fun before => (nomatch before)⟩

end Steps

private theorem guarded_reach {env : Env} {s₀ : Shared} {c : Config Shared Pc}
    (runs : openRuns s₀ = []) (checkpoints : openCheckpoints s₀ = [])
    (reach : Reach (jobs env) Timely ⟨s₀, []⟩ c) :
    Guarded c.shared.generation (runJobs c.shared) (c.procs.map runPhase) ∧
      Guarded c.shared.generation (checkpointJobs c.shared) (c.procs.map checkpointPhase) := by
  have timely : ∀ {c : Config Shared Pc} {i : Nat} {r : Reply} {pc : Pc},
      Timely c (.act i r) → c.procs[i]? = some pc → r.dbOk = true ∧ StartsTimely c pc :=
    fun guard at_i => ⟨guard.1, guard.2 _ at_i⟩
  constructor
  · refine guarded_of_reach reach (by rw [runJobs_eq, runs]; rfl) (fun pc entry => ?_) ?_
    · cases pc <;> first | rfl | cases entry
    · intro c i r pc s pc' guard at_i stepped
      obtain ⟨ok, starts⟩ := timely guard at_i
      refine ⟨(jobs_slots ok stepped).run, fun t job before after => ?_⟩
      obtain ⟨job, rfl, rfl⟩ := (opening_place stepped).1 before after
      exact starts
  · refine guarded_of_reach reach (by rw [checkpointJobs_eq, checkpoints]; rfl)
      (fun pc entry => ?_) ?_
    · cases pc <;> first | rfl | cases entry
    · intro c i r pc s pc' guard at_i stepped
      obtain ⟨ok, starts⟩ := timely guard at_i
      refine ⟨(jobs_slots ok stepped).checkpoint, fun t job before after => ?_⟩
      obtain ⟨job, rfl, rfl⟩ := (opening_place stepped).2 before after
      exact starts

/-- In every run in which the database works and requests open their rows in time, at most one row
of each table is running, and none is once everything has ended. -/
theorem single_running_job (env : Env) (s₀ : Shared) (runs : openRuns s₀ = [])
    (checkpoints : openCheckpoints s₀ = []) (c : Config Shared Pc)
    (reach : Reach (jobs env) Timely ⟨s₀, []⟩ c) :
    (openRuns c.shared).length ≤ 1 ∧ (openCheckpoints c.shared).length ≤ 1 ∧
      ((∀ pc ∈ c.procs, pc = .finished) →
        openRuns c.shared = [] ∧ openCheckpoints c.shared = []) := by
  obtain ⟨run, checkpoint⟩ := guarded_reach runs checkpoints reach
  have outside : ∀ phase : Pc → Phase String, phase .finished = .outside →
      (∀ pc ∈ c.procs, pc = .finished) → ∀ ph ∈ c.procs.map phase, ph = .outside := by
    intro phase ended all ph mem
    obtain ⟨pc, listed, rfl⟩ := List.mem_map.mp mem
    rw [all pc listed, ended]
  refine ⟨?_, ?_, fun all => ⟨?_, ?_⟩⟩
  · simpa [runJobs_eq] using run.single
  · simpa [checkpointJobs_eq] using checkpoint.single
  · simpa [runJobs_eq] using run.ended (outside runPhase rfl all)
  · simpa [checkpointJobs_eq] using checkpoint.ended (outside checkpointPhase rfl all)

section Sample

open Scand.Inventory.NextImport (samplePlatform)
open Scand.Inventory.PullToSnapshot (walkAsStored)

instance : ∀ c pc, Decidable (StartsTimely c pc) := by
  intro c pc
  unfold StartsTimely
  split <;> infer_instance

instance : ∀ c l, Decidable (Timely c l)
  | _, .spawn _ => .isTrue trivial
  | _, .act _ _ => inferInstanceAs (Decidable (_ ∧ _))

instance : ∀ c l, Decidable (CallsSucceed c l)
  | _, .spawn _ => .isTrue trivial
  | _, .act _ r => inferInstanceAs (Decidable (r.dbOk = true))

def sampleEnv : Env where
  parse _ := none
  platform := samplePlatform
  order := walkAsStored

def isFinished : Pc → Bool
  | .finished => true
  | _ => false

def allFinished (c : Config Shared Pc) : Bool := c.procs.all isFinished

private theorem finished_of_all {c : Config Shared Pc} (all : allFinished c = true) :
    ∀ pc ∈ c.procs, pc = .finished := by
  intro pc mem
  have ended := List.all_eq_true.mp all pc mem
  cases pc <;> first | rfl | cases ended

def steps (i n micros : Nat) : List (Label Pc Reply) :=
  List.replicate n (.act i { micros := micros })

/-- A request up to its two rows, and a second one that has overtaken it before. -/
def overtaken : List (Label Pc Reply) :=
  .spawn (.takeGeneration {}) :: steps 0 5 1 ++ .spawn (.takeGeneration {}) :: steps 1 7 2 ++
    steps 0 1 1

/-- A request that is overtaken before it opens its rows leaves two rows running, and its own ones
for ever: its worker is stale and ends without closing them. -/
theorem overtaken_rows_left_running :
    (∃ c, Reach (jobs sampleEnv) CallsSucceed ⟨{}, []⟩ c ∧
      decide ((openRuns c.shared).length = 2) = true) ∧
    ∃ c, Reach (jobs sampleEnv) CallsSucceed ⟨{}, []⟩ c ∧ (∀ pc ∈ c.procs, pc = .finished) ∧
      (openRuns c.shared).length = 1 ∧ (openCheckpoints c.shared).length = 1 := by
  constructor
  · exact reach_of_run_test (g := fun c l => decide (CallsSucceed c l)) overtaken _
      (fun _ _ => of_decide_eq_true) (by decide)
  · obtain ⟨c, reach, test⟩ := reach_of_run_test (M := jobs sampleEnv) (G := CallsSucceed)
      (g := fun c l => decide (CallsSucceed c l)) (c := ⟨{}, []⟩)
      (overtaken ++ steps 0 4 1 ++ steps 1 9 2)
      (fun c => allFinished c && decide ((openRuns c.shared).length = 1 ∧
        (openCheckpoints c.shared).length = 1)) (fun _ _ => of_decide_eq_true) (by decide)
    obtain ⟨all, rows⟩ := Bool.and_eq_true_iff.mp test
    exact ⟨c, reach, finished_of_all all, of_decide_eq_true rows⟩

theorem single_running_job_alone :
    ∃ c, Reach (jobs sampleEnv) Timely ⟨{}, []⟩ c ∧ openRuns c.shared = [] ∧
      openCheckpoints c.shared = [] := by
  obtain ⟨c, reach, all⟩ := reach_of_run_test (M := jobs sampleEnv) (G := Timely)
    (g := fun c l => decide (Timely c l)) (c := ⟨{}, []⟩)
    (.spawn (.takeGeneration {}) :: steps 0 16 1) allFinished
    (fun _ _ => of_decide_eq_true) (by decide)
  obtain ⟨-, -, ended⟩ := single_running_job sampleEnv {} rfl rfl c reach
  exact ⟨c, reach, ended (finished_of_all all)⟩

end Sample

end Scand.InventoryPull.SingleJob
