/- path: Scand/InventoryPull/Protocol
   layer: results
   digest: The order of the events that a worker of an inventory pull broadcasts, whatever other requests
   and resets come in between: one protocol, with one last event that agrees with what was written to
   the tables. -/

import Scand.InventoryPull.Silence

set_option autoImplicit false
set_option relaxedAutoImplicit false

namespace Scand.InventoryPull.Protocol

open Scand.Foundation.Interleaving
open Scand.Foundation.JsonValue (Fields)
open Scand.Inventory.ImportSnapshot (ImportResult)
open Scand.Inventory.Snapshot (SnapshotRequest)
open Scand.InventoryPull.Events
open Scand.InventoryPull.Jobs
open Scand.InventoryPull.Silence (Proc)

/-- How far the events of a pull have come; an ended one was imported or failed. -/
inductive Phase
  | waiting | catalog | cataloged | pulling | pulled | saving | saved
  | ended (imported : Bool)
  deriving DecidableEq

abbrev Sign := String × String

def failure : Sign := ("error", "failed")

/-- The protocol: the catalogue with any number of progress reports, the pull from 1C, the import. It
may fail in every stage but between two that follow each other at once. -/
def Phase.next (p : Phase) (sign : Sign) : Option Phase :=
  match p with
  | .waiting => if sign = ("catalog", "running") then some .catalog else none
  | .catalog =>
      if sign = ("catalog", "done") then some .cataloged
      else if sign = failure then some (.ended false)
      else if sign.2 = "running" then some .catalog
      else none
  | .cataloged =>
      if sign = ("ka2_pull", "running") then some .pulling
      else if sign = failure then some (.ended false)
      else none
  | .pulling =>
      if sign = ("ka2_pull", "done") then some .pulled
      else if sign = failure then some (.ended false)
      else none
  | .pulled => if sign = ("save", "running") then some .saving else none
  | .saving =>
      if sign = ("save", "done") then some .saved
      else if sign = failure then some (.ended false)
      else none
  | .saved => if sign = ("done", "imported") then some (.ended true) else none
  | .ended _ => none

def follow (signs : List Sign) : Option Phase := signs.foldlM Phase.next .waiting

def Emission.sign (e : Emission) : Sign := (e.stage, e.status)

def broadcastAt (env : Env) : Pc → List (Sign × Fields)
  | .broadcastEvent job e _ => [(Emission.sign e, e.object env.parse job.jobId)]
  | .failBroadcast job error => [(failure, failureObject job.jobId error)]
  | _ => []

def events (env : Env) (history : List (Pc × Reply)) : List (Sign × Fields) :=
  history.flatMap fun entry => broadcastAt env entry.1

def closing : Pc → Option Ending
  | .finishRun _ ending | .finishCheckpoint _ ending => some ending
  | _ => none

/-- The outcome under which an ending closes the rows of its job. -/
def imported : Ending → Bool
  | .done _ => true
  | .failed _ _ => false
  | .thrown _ => false

/-- The phase in which a worker meets its ending: an exception is still to be broadcast. -/
def Meets (p : Phase) : Ending → Prop
  | .thrown _ => p.next failure = some (.ended false)
  | ending => p = .ended (imported ending)

/-- What holds of the phase where a process of generation `g` stands. A stale worker drops the events
that it has not begun to store, so only the begun ones are still bound to the protocol. -/
def Fits (g : Nat) (stale : Bool) : Pc → Phase → Prop
  | .takeGeneration _, p => p = .waiting
  | .readAllowed job, p | .abandonRuns job, p | .abandonCheckpoints job, p | .startNew job, p
  | .startRun job, p | .startCheckpoint job, p => job.generation = g ∧ p = .waiting
  | .emit job e next, p => job.generation = g ∧ Fits g true next p ∧
      (stale = false → ∃ q, p.next (Emission.sign e) = some q ∧ Fits g false next q)
  | .updateState job e next, p | .broadcastEvent job e next, p =>
      job.generation = g ∧ ∃ q, p.next (Emission.sign e) = some q ∧ Fits g stale next q
  | .updateCheckpoint job _ next, p => job.generation = g ∧ Fits g stale next p
  | .pullCatalog job, p | .commitCatalog job _, p =>
      job.generation = g ∧ (stale = false → p = .catalog)
  | .selectSkus job, p | .choosePeriod job, p =>
      job.generation = g ∧ (stale = false → p = .cataloged)
  | .pullKa2 job, p => job.generation = g ∧ (stale = false → p = .pulling)
  | .importRequest job _, p => job.generation = g ∧ (stale = false → p = .saving)
  | .checkGeneration job ending, p => job.generation = g ∧ (stale = false → Meets p ending)
  | .finishRun job ending, p | .finishCheckpoint job ending, p => job.generation = g ∧ Meets p ending
  | .failState job _, p | .failBroadcast job _, p =>
      job.generation = g ∧ p.next failure = some (.ended false)
  | .finished, _ | .resetPullRuns, _ | .resetOzonRuns, _ | .resetCheckpoints, _
  | .resetState, _ | .resetOzon, _ | .bumpGeneration, _ => True

section Places

variable {g : Nat} {p : Phase} {pc : Pc} {stale : Bool}

theorem Fits.weaken (fits : Fits g stale pc p) : Fits g true pc p := by
  induction pc generalizing p with
  | emit job e next ih =>
      obtain ⟨own, dropped, -⟩ := fits
      exact ⟨own, dropped, by simp⟩
  | updateState job e next ih =>
      obtain ⟨own, q, goes, fits⟩ := fits
      exact ⟨own, q, goes, ih fits⟩
  | broadcastEvent job e next ih =>
      obtain ⟨own, q, goes, fits⟩ := fits
      exact ⟨own, q, goes, ih fits⟩
  | updateCheckpoint job u next ih => exact ⟨fits.1, ih fits.2⟩
  | pullCatalog job | commitCatalog job | selectSkus job | choosePeriod job | pullKa2 job
  | importRequest job | checkGeneration job => exact ⟨fits.1, by simp⟩
  | _ => exact fits

theorem fits_emit {job : Job} {e : Emission} {next : Pc} {q : Phase} (own : job.generation = g)
    (goes : stale = false → p.next (Emission.sign e) = some q) (fits : Fits g stale next q)
    (dropped : Fits g true next p) : Fits g stale (.emit job e next) p :=
  ⟨own, dropped, fun current => ⟨q, goes current, current ▸ fits⟩⟩

theorem fits_caught {job : Job} (error : String) (own : job.generation = g)
    (fails : stale = false → p.next failure = some (.ended false)) :
    Fits g stale (caught job error) p :=
  ⟨own, fails⟩

theorem fits_failWith {job : Job} (error stage : String) (own : job.generation = g)
    (fails : stale = false → p.next failure = some (.ended false)) :
    Fits g stale (failWith job error stage) p :=
  fits_emit own fails ⟨own, fun _ => rfl⟩ ⟨own, by simp⟩

theorem fits_reportProgress {job : Job} {next : Pc} (progress : List (String × String))
    (own : job.generation = g) (catalog : stale = false → p = .catalog)
    (fits : ∀ stale', (stale' = false → p = .catalog) → Fits g stale' next p) :
    Fits g stale (reportProgress job progress next) p := by
  induction progress generalizing stale with
  | nil => exact fits stale catalog
  | cons report progress ih =>
      refine fits_emit own (fun current => ?_) (ih catalog) (ih (by simp))
      rw [catalog current]
      simp [Phase.next, Emission.sign, failure]

end Places

section Steps

variable {env : Env} {i g : Nat} {s s' : Shared} {pc pc' : Pc} {r : Reply} {p : Phase}

/-- After a step from a place the phase is that of the events broadcast there, and the next place fits. -/
def Advances (env : Env) (s s' : Shared) (pc pc' : Pc) (p : Phase) : Prop :=
  s.generation ≤ s'.generation ∧ ∃ g' q, ((broadcastAt env pc).map Prod.fst).foldlM Phase.next p = some q ∧
    g' ≤ s'.generation ∧ Fits g' (decide (g' < s'.generation)) pc' q

private theorem advances_same (le : g ≤ s.generation) (same : s'.generation = s.generation)
    (silent : broadcastAt env pc = []) (fits : Fits g (decide (g < s.generation)) pc' p) :
    Advances env s s' pc pc' p := by
  refine ⟨same.ge, g, p, ?_, same ▸ le, same ▸ fits⟩
  rw [silent]
  rfl

private theorem request_advances (fits : Fits g (decide (g < s.generation)) pc p)
    (le : g ≤ s.generation) (stepped : requestStep s pc r = some (s', pc')) :
    Advances env s s' pc pc' p := by
  cases pc <;> simp only [requestStep, Option.some.injEq, Prod.mk.injEq, reduceCtorEq] at stepped
  all_goals obtain ⟨rfl, rfl⟩ := stepped
  case takeGeneration query =>
    refine ⟨Nat.le_succ _, s.generation + 1, p, rfl, le_refl _, rfl, fits⟩
  case startCheckpoint job =>
    obtain ⟨own, rfl⟩ := fits
    refine advances_same le rfl rfl (fits_emit own (fun _ => ?_) ⟨own, fun _ => rfl⟩ ⟨own, by simp⟩)
    simp [Phase.next, Emission.sign]
  all_goals exact advances_same le rfl rfl fits

private theorem emit_advances (fits : Fits g (decide (g < s.generation)) pc p)
    (le : g ≤ s.generation) (stepped : emitStep env s pc = some (s', pc')) :
    Advances env s s' pc pc' p := by
  cases pc <;> simp only [emitStep, Option.some.injEq, Prod.mk.injEq, reduceCtorEq] at stepped
  all_goals obtain ⟨rfl, rfl⟩ := stepped
  case emit job e next =>
    obtain ⟨own, dropped, sent⟩ := fits
    refine advances_same le rfl rfl ?_
    split
    · rename_i current
      have fresh : decide (g < s.generation) = false := by
        apply decide_eq_false
        omega
      obtain ⟨q, goes, after⟩ := sent fresh
      exact ⟨own, q, goes, fresh ▸ after⟩
    · rename_i other
      have stale : decide (g < s.generation) = true := by
        apply decide_eq_true
        omega
      rw [stale]
      exact dropped
  case updateState job e next => exact advances_same le rfl rfl fits
  case broadcastEvent job e next =>
    obtain ⟨own, q, goes, after⟩ := fits
    refine ⟨le_refl _, g, q, ?_, le, after⟩
    simpa [broadcastAt] using goes

private theorem fits_afterCatalog {stale : Bool} {job : Job} (own : job.generation = g)
    (catalog : stale = false → p = .catalog) : Fits g stale (afterCatalog job) p := by
  refine fits_emit (q := .cataloged) own (fun current => ?_) ⟨own, own, fun _ => rfl⟩
    ⟨own, own, by simp⟩
  rw [catalog current]
  simp [Phase.next, Emission.sign]

private theorem fits_afterPull {stale : Bool} {job : Job} (own : job.generation = g)
    (pulling : stale = false → p = .pulling) : Fits g stale (afterPull job env) p := by
  refine fits_emit (q := .pulled) own (fun current => ?_) ⟨own, ?_⟩ ⟨own, ?_⟩
  · rw [pulling current]
    simp [Phase.next, Emission.sign]
  · refine fits_emit (q := .saving) own (fun _ => ?_) ⟨own, fun _ => rfl⟩ ⟨own, by simp⟩
    simp [Phase.next, Emission.sign]
  · exact fits_emit (q := p) own (by simp) ⟨own, by simp⟩ ⟨own, by simp⟩

private theorem fits_afterImport {stale : Bool} {job : Job} {req : SnapshotRequest}
    {saved : ImportResult} (own : job.generation = g) (saving : stale = false → p = .saving) :
    Fits g stale (afterImport job req saved) p := by
  refine fits_emit (q := .saved) own (fun current => ?_) ⟨own, ?_⟩ ⟨own, ?_⟩
  · rw [saving current]
    simp [Phase.next, Emission.sign]
  · refine fits_emit (q := .ended true) own (fun _ => ?_) ⟨own, fun _ => rfl⟩ ⟨own, by simp⟩
    simp [Phase.next, Emission.sign]
  · exact fits_emit (q := p) own (by simp) ⟨own, by simp⟩ ⟨own, by simp⟩

private theorem fails_of {stale : Bool} {at_work : Phase} (stands : stale = false → p = at_work)
    (fails : at_work.next failure = some (.ended false)) :
    stale = false → p.next failure = some (.ended false) :=
  fun current => stands current ▸ fails

private theorem worker_advances (fits : Fits g (decide (g < s.generation)) pc p)
    (le : g ≤ s.generation) (stepped : workerStep env s pc r = some (s', pc')) :
    Advances env s s' pc pc' p := by
  cases pc <;> simp only [workerStep, Option.some.injEq, Prod.mk.injEq, reduceCtorEq] at stepped
  case pullCatalog job =>
    obtain ⟨rfl, rfl⟩ := stepped
    obtain ⟨own, catalog⟩ := fits
    refine advances_same le rfl rfl ?_
    split
    · refine fits_reportProgress _ own catalog fun stale' catalog' => ?_
      split
      · exact fits_caught _ own (fails_of catalog' (by decide))
      · exact ⟨own, catalog'⟩
    · exact fits_caught _ own (fails_of catalog (by decide))
  case commitCatalog job change =>
    obtain ⟨own, catalog⟩ := fits
    split at stepped
    · cases stepped
      exact advances_same le rfl rfl (fits_afterCatalog own catalog)
    · cases stepped
      exact advances_same le rfl rfl (fits_caught _ own (fails_of catalog (by decide)))
  case updateCheckpoint job u next =>
    obtain ⟨rfl, rfl⟩ := stepped
    exact advances_same le rfl rfl fits.2
  case selectSkus job =>
    obtain ⟨rfl, rfl⟩ := stepped
    obtain ⟨own, cataloged⟩ := fits
    refine advances_same le rfl rfl ?_
    split
    · split
      · exact fits_caught _ own (fails_of cataloged (by decide))
      · exact fits_failWith _ _ own (fails_of cataloged (by decide))
      · exact ⟨own, cataloged⟩
    · exact fits_caught _ own (fails_of cataloged (by decide))
  case choosePeriod job =>
    obtain ⟨rfl, rfl⟩ := stepped
    obtain ⟨own, cataloged⟩ := fits
    refine advances_same le rfl rfl (fits_emit (q := .pulling) own (fun current => ?_)
      ⟨own, fun _ => rfl⟩ ⟨own, by simp⟩)
    rw [cataloged current]
    simp [Phase.next, Emission.sign]
  case pullKa2 job =>
    obtain ⟨rfl, rfl⟩ := stepped
    obtain ⟨own, pulling⟩ := fits
    refine advances_same le rfl rfl ?_
    split
    · exact fits_caught _ own (fails_of pulling (by decide))
    · exact fits_afterPull own pulling
  case importRequest job req =>
    obtain ⟨own, saving⟩ := fits
    split at stepped
    · cases stepped
      refine advances_same le rfl rfl ?_
      split
      · exact fits_afterImport own saving
      · exact fits_failWith _ _ own (fails_of saving (by decide))
    · cases stepped
      exact advances_same le rfl rfl (fits_failWith _ _ own (fails_of saving (by decide)))
  case checkGeneration job ending =>
    obtain ⟨rfl, rfl⟩ := stepped
    obtain ⟨own, meets⟩ := fits
    refine advances_same le rfl rfl ?_
    split
    · rename_i current
      exact ⟨own, meets (decide_eq_false (by omega))⟩
    · exact trivial
  case finishRun job ending =>
    obtain ⟨rfl, rfl⟩ := stepped
    exact advances_same le rfl rfl fits
  case finishCheckpoint job ending =>
    obtain ⟨rfl, rfl⟩ := stepped
    refine advances_same le rfl rfl ?_
    cases ending with
    | thrown error => exact fits
    | done _ | failed _ _ => exact trivial
  case failState job error =>
    obtain ⟨rfl, rfl⟩ := stepped
    exact advances_same le rfl rfl fits
  case failBroadcast job error =>
    obtain ⟨rfl, rfl⟩ := stepped
    refine ⟨le_refl _, g, .ended false, ?_, le, trivial⟩
    simpa [broadcastAt] using fits.2

private theorem reset_advances (fits : Fits g (decide (g < s.generation)) pc p)
    (le : g ≤ s.generation) (stepped : resetStep s pc r = some (s', pc')) :
    Advances env s s' pc pc' p := by
  cases pc <;> simp only [resetStep, Option.some.injEq, Prod.mk.injEq, reduceCtorEq] at stepped
  all_goals obtain ⟨rfl, rfl⟩ := stepped
  case bumpGeneration => exact ⟨Nat.le_succ _, g, p, rfl, le.trans (Nat.le_succ _), trivial⟩
  all_goals
    refine advances_same le rfl rfl ?_
    repeat' split
    all_goals exact trivial

theorem jobs_advances (fits : Fits g (decide (g < s.generation)) pc p) (le : g ≤ s.generation)
    (stepped : (jobs env).step i s pc r = some (s', pc')) : Advances env s s' pc pc' p := by
  rcases jobs_step stepped with request | emitted | worked | reset
  · exact request_advances fits le request
  · exact emit_advances fits le emitted
  · exact worker_advances fits le worked
  · exact reset_advances fits le reset

private theorem request_broadcasts (stepped : requestStep s pc r = some (s', pc')) :
    s'.broadcast = s.broadcast ++ (broadcastAt env pc).map Prod.snd := by
  cases pc <;> simp only [requestStep, Option.some.injEq, Prod.mk.injEq, reduceCtorEq] at stepped
  all_goals
    obtain ⟨rfl, -⟩ := stepped
    exact (List.append_nil _).symm

private theorem emit_broadcasts (stepped : emitStep env s pc = some (s', pc')) :
    s'.broadcast = s.broadcast ++ (broadcastAt env pc).map Prod.snd := by
  cases pc <;> simp only [emitStep, Option.some.injEq, Prod.mk.injEq, reduceCtorEq] at stepped
  case broadcastEvent job e next =>
    obtain ⟨rfl, -⟩ := stepped
    rfl
  all_goals
    obtain ⟨rfl, -⟩ := stepped
    exact (List.append_nil _).symm

private theorem worker_broadcasts (stepped : workerStep env s pc r = some (s', pc')) :
    s'.broadcast = s.broadcast ++ (broadcastAt env pc).map Prod.snd := by
  cases pc <;> simp only [workerStep, Option.some.injEq, Prod.mk.injEq, reduceCtorEq] at stepped
  case commitCatalog | importRequest =>
    split at stepped
    all_goals
      cases stepped
      exact (List.append_nil _).symm
  case failBroadcast job error =>
    obtain ⟨rfl, -⟩ := stepped
    rfl
  all_goals
    obtain ⟨rfl, -⟩ := stepped
    exact (List.append_nil _).symm

private theorem reset_broadcasts (stepped : resetStep s pc r = some (s', pc')) :
    s'.broadcast = s.broadcast ++ (broadcastAt env pc).map Prod.snd := by
  cases pc <;> simp only [resetStep, Option.some.injEq, Prod.mk.injEq, reduceCtorEq] at stepped
  all_goals
    obtain ⟨rfl, -⟩ := stepped
    exact (List.append_nil _).symm

theorem jobs_broadcasts (stepped : (jobs env).step i s pc r = some (s', pc')) :
    s'.broadcast = s.broadcast ++ (broadcastAt env pc).map Prod.snd := by
  rcases jobs_step stepped with request | emitted | worked | reset
  · exact request_broadcasts request
  · exact emit_broadcasts emitted
  · exact worker_broadcasts worked
  · exact reset_broadcasts reset

/-- A worker that has closed the row of its run under an ending stays on the way to its last event. -/
def Closed (ending : Ending) : Pc → Phase → Prop
  | .finishCheckpoint _ other, _ => other = ending
  | .failState _ _, _ | .failBroadcast _ _, _ => imported ending = false
  | .finished, p => p = .ended (imported ending)
  | _, _ => False

private theorem jobs_closed {ending : Ending} {q : Phase} {stale : Bool} (fits : Fits g stale pc p)
    (closed : Closed ending pc p ∨ closing pc = some ending)
    (sent : ((broadcastAt env pc).map Prod.fst).foldlM Phase.next p = some q)
    (stepped : (jobs env).step i s pc r = some (s', pc')) : Closed ending pc' q := by
  have worked : workerStep env s pc r = some (s', pc') := by
    rcases closed with closed | closes
    · cases pc <;> first | exact closed.elim | exact stepped
    · cases pc <;> cases closes <;> exact stepped
  rcases closed with closed | closes
  · cases pc with
    | finishCheckpoint job other =>
        obtain rfl : other = ending := closed
        cases other <;> cases worked <;> cases sent
        · exact fits.2
        · exact fits.2
        · rfl
    | failState job error =>
        cases worked
        exact closed
    | failBroadcast job error =>
        cases worked
        have same : p.next failure = some q := by simpa [broadcastAt] using sent
        have last : q = .ended false := Option.some.inj (same.symm.trans fits.2)
        have failed : imported ending = false := closed
        change q = .ended (imported ending)
        rw [last, failed]
    | finished => cases worked
    | _ => exact closed.elim
  · cases pc with
    | finishRun job other =>
        cases closes
        cases worked
        rfl
    | finishCheckpoint job other =>
        cases closes
        cases ending <;> cases worked <;> cases sent
        · exact fits.2
        · exact fits.2
        · rfl
    | _ => cases closes

end Steps

section Runs

variable {env : Env} {c d : Config Shared Proc} {s s' : Shared} {q : Proc} {l : Label Proc Reply}

structure Obeys (env : Env) (s : Shared) (q : Proc) (p : Phase) (g : Nat) : Prop where
  follows : follow ((events env q.2).map Prod.fst) = some p
  started : g ≤ s.generation
  fits : Fits g (decide (g < s.generation)) q.1 p
  closed : ∀ entry ∈ q.2, ∀ ending, closing entry.1 = some ending → Closed ending q.1 p

private theorem Obeys.kept {p : Phase} {g : Nat} (before : Obeys env s q p g)
    (grown : s.generation ≤ s'.generation) : Obeys env s' q p g := by
  refine ⟨before.follows, before.started.trans grown, ?_, before.closed⟩
  by_cases current : g < s'.generation
  · rw [decide_eq_true current]
    exact before.fits.weaken
  · have earlier : ¬ g < s.generation := by omega
    rw [decide_eq_false current, ← decide_eq_false earlier]
    exact before.fits

private theorem events_snoc (history : List (Pc × Reply)) (entry : Pc × Reply) :
    events env (history ++ [entry]) = events env history ++ broadcastAt env entry.1 := by
  simp [events]

private theorem Obeys.moved {i : Nat} {r : Reply} {pc' : Pc} {p : Phase} {g : Nat}
    (before : Obeys env s q p g) (stepped : (jobs env).step i s q.1 r = some (s', pc')) :
    ∃ p' g', Obeys env s' (pc', q.2 ++ [(q.1, r)]) p' g' := by
  obtain ⟨-, g', p', sent, started, fits⟩ := jobs_advances before.fits before.started stepped
  refine ⟨p', g', ?_, started, fits, ?_⟩
  · rw [events_snoc, List.map_append, follow, List.foldlM_append]
    have so_far := before.follows
    rw [follow] at so_far
    rw [so_far]
    exact sent
  · intro entry mem ending closes
    refine jobs_closed before.fits ?_ sent stepped
    rcases List.mem_append.mp mem with old | new
    · exact Or.inl (before.closed entry old ending closes)
    · obtain rfl := List.mem_singleton.mp new
      exact Or.inr closes

def streamed (env : Env) (q : Proc) : List Fields := (events env q.2).map Prod.snd

/-- Every process obeys, and the stream is put together from the events of the processes. -/
def Orderly (env : Env) (c : Config Shared Proc) : Prop :=
  (∀ q ∈ c.procs, ∃ p g, Obeys env c.shared q p g) ∧
    Merge c.shared.broadcast (c.procs.map (streamed env))

private theorem obeys_entry {p : Proc} (entry : (jobs env).recording.entry p = true) :
    Obeys env s p .waiting 0 ∧ p.2 = [] := by
  obtain ⟨call, fresh⟩ := recording_entry entry
  obtain ⟨pc, history⟩ := p
  obtain rfl : history = [] := fresh
  refine ⟨⟨rfl, Nat.zero_le _, ?_, by simp⟩, rfl⟩
  cases pc <;> first | exact rfl | exact trivial | cases call

private theorem Orderly.next (before : Orderly env c) (next : (jobs env).recording.next c l = some d) :
    Orderly env d := by
  obtain ⟨obey, merge⟩ := before
  rcases next_cases next with ⟨p, rfl, entry, rfl⟩ | ⟨i, r, p, s', q, rfl, at_i, stepped, rfl⟩
  · obtain ⟨obeys, fresh⟩ := obeys_entry (s := c.shared) entry
    constructor
    · intro q mem
      rcases List.mem_append.mp mem with old | new
      · exact obey q old
      · obtain rfl := List.mem_singleton.mp new
        exact ⟨_, _, obeys⟩
    · have silent : streamed env p = [] := by
        rw [streamed, fresh]
        rfl
      show Merge c.shared.broadcast ((c.procs ++ [p]).map (streamed env))
      rw [List.map_append, List.map_singleton, silent]
      exact merge.snoc_nil
  · obtain ⟨inner, kept⟩ := recording_step stepped
    obtain ⟨pc', history⟩ := q
    obtain rfl : history = p.2 ++ [(p.1, r)] := kept
    constructor
    · intro other mem
      rcases mem_set_cases mem with rfl | ⟨j, -, at_j⟩
      · obtain ⟨phase, g, obeys⟩ := obey p (List.mem_of_getElem? at_i)
        exact obeys.moved inner
      · obtain ⟨phase, g, obeys⟩ := obey other (List.mem_of_getElem? at_j)
        exact ⟨phase, g, obeys.kept (Silence.jobs_shows inner).generation⟩
    · have moved : streamed env (pc', p.2 ++ [(p.1, r)]) =
          streamed env p ++ (broadcastAt env p.1).map Prod.snd := by
        rw [streamed, events_snoc, List.map_append]
        rfl
      show Merge s'.broadcast ((c.procs.set i (pc', p.2 ++ [(p.1, r)])).map (streamed env))
      rw [jobs_broadcasts inner]
      exact merge.moved at_i moved

/-- In every run, the event stream is put together from the events of the workers, each worker's in their
order; they follow the protocol, so that at most one of them ends the job and none comes after it; and a
worker that has closed the rows of its job finishes after the last event that agrees with them. -/
theorem worker_protocol (env : Env) (c : Config Shared Proc)
    (reach : Reach (jobs env).recording anyLabel ⟨{}, []⟩ c) :
    Merge c.shared.broadcast (c.procs.map (streamed env)) ∧
      ∀ q ∈ c.procs, ∃ p, follow ((events env q.2).map Prod.fst) = some p ∧
        ∀ entry ∈ q.2, ∀ ending, closing entry.1 = some ending → q.1 = .finished →
          p = .ended (imported ending) := by
  have orderly : Orderly env c := by
    refine reach.invariant ⟨?_, .start ?_⟩ fun c d l before _ next => before.next next
    · intro q none_yet
      cases none_yet
    · intro part none_yet
      cases none_yet
  refine ⟨orderly.2, fun q mem => ?_⟩
  obtain ⟨p, g, obeys⟩ := orderly.1 q mem
  refine ⟨p, obeys.follows, fun entry left ending closes finished => ?_⟩
  have closed := obeys.closed entry left ending closes
  rw [finished] at closed
  exact closed

end Runs

section Sample

open Scand.InventoryPull.SingleJob (sampleEnv)
open Scand.InventoryPull.Silence (recorded)

def hasThrown (q : Proc) : Bool :=
  (match q.1 with | .finished => true | _ => false) &&
    q.2.any fun entry => match closing entry.1 with | some (.thrown _) => true | _ => false

def jobOf (event : Fields) : Option String :=
  match event.lookup "job_id" with
  | some (.string id) => some id
  | _ => none

/-- A worker is about to close its rows when a second request comes. -/
def twoWorkers : List (Label Proc Reply) :=
  .spawn (.takeGeneration {}, []) :: recorded 0 12 1 ++
    .spawn (.takeGeneration {}, []) :: recorded 1 10 2 ++ recorded 0 4 3 ++ recorded 1 6 4

theorem worker_protocol_thrown :
    ∃ c : Config Shared Proc, c.procs.length = 2 ∧
      c.shared.broadcast.map jobOf = [some "1", some "2", some "1", some "2"] ∧
      Merge c.shared.broadcast (c.procs.map (streamed sampleEnv)) ∧
      ∀ q ∈ c.procs, follow ((events sampleEnv q.2).map Prod.fst) = some (.ended false) := by
  obtain ⟨c, reach, test⟩ := reach_of_run_test (M := (jobs sampleEnv).recording) (G := anyLabel)
    (g := fun _ _ => true) (c := ⟨{}, []⟩) twoWorkers
    (fun c => c.procs.all hasThrown && decide (c.procs.length = 2 ∧
      c.shared.broadcast.map jobOf = [some "1", some "2", some "1", some "2"]))
    (fun _ _ _ => trivial) (by decide)
  obtain ⟨all_thrown, shape⟩ := Bool.and_eq_true_iff.mp test
  obtain ⟨two, alternate⟩ := of_decide_eq_true shape
  obtain ⟨merge, obey⟩ := worker_protocol sampleEnv c reach
  refine ⟨c, two, alternate, merge, fun q mem => ?_⟩
  obtain ⟨p, follows, last⟩ := obey q mem
  have thrown := List.all_eq_true.mp all_thrown q mem
  simp only [hasThrown, Bool.and_eq_true, List.any_eq_true] at thrown
  obtain ⟨finished, entry, left, closes⟩ := thrown
  have at_end : q.1 = .finished := by
    split at finished
    · assumption
    · cases finished
  split at closes
  · rename_i error ending
    rw [follows, last entry left _ ending at_end]
    rfl
  · cases closes

end Sample

end Scand.InventoryPull.Protocol
