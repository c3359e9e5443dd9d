/- path: Scand/Ozon/StopFlag
   layer: results
   digest: A returned stop keeps the stop flag set for the run of a call, as long as the call has
   cleared the flag before and neither its end was settled nor a reset met a claimed run. -/

import Scand.Ozon.Mirror

set_option autoImplicit false
set_option relaxedAutoImplicit false

namespace Scand.Ozon.StopFlag

open Scand.Foundation.Interleaving
open Scand.Ozon.Client
open Scand.Ozon.Exclusion (claims executing claims_reach ResetWhenIdle)
open Scand.Ozon.Mirror (step_keeps)
open Scand.Ozon.Service

abbrev Past := List (Pc × Reply)

abbrev Proc := Pc × Past

def yetToClear : Pc → Bool
  | .fullCheckShutdown | .fullResetCheckpoint | .fullRemoveStored | .checkShutdown | .claimRunning
  | .clearStop => true
  | _ => false

def passedCheck : Pc → Bool
  | .claimRunning | .clearStop => true
  | _ => false

def inRun (pc : Pc) : Bool := claims pc && decide (pc ≠ .clearStop)

def underway (pc : Pc) : Bool := yetToClear pc || inRun pc

inductive Verdict
  | done | stopped | failed
  deriving DecidableEq

def stoppedByUser : String := "stopped by user"

/-- What a place records of the end of its run: in the checkpoint, to the listeners, or in the row
of the job. -/
def verdict : Pc → Option Verdict
  | .saveDone _ | .sendDone _ | .finishJob _ _ => some .done
  | .markStopped | .notifyStopped => some .stopped
  | .saveFailed _ | .sendFailed _ => some .failed
  | .failJob error _ => some (if error = stoppedByUser then .stopped else .failed)
  | _ => none

def verdicts (past : Past) : List Verdict := past.filterMap fun e => verdict e.1

/-- Every record of its end says that the run was stopped. -/
structure RecordedStopped (past : Past) : Prop where
  some : verdicts past ≠ []
  all : ∀ x ∈ verdicts past, x = .stopped

def otherEnd : Pc → Bool
  | .saveRetry v | .sendRetry v => decide (maxConsecutiveFailures ≤ v.consecutiveFailures)
  | .saveFailed _ | .sendFailed _ | .saveDone _ | .sendDone _ | .readDoneJob _
  | .finishJob _ _ => true
  | .readJobToFail error | .failJob error _ => decide (error ≠ stoppedByUser)
  | _ => false

def behindMark : Pc → Bool
  | .notifyStopped | .readJobToFail _ | .failJob _ _ | .releaseRunning | .finished => true
  | _ => false

/-- The end of the run is still open, or it was stopped already. -/
structure Stoppable (p : Proc) : Prop where
  place : otherEnd p.1 = false
  all : ∀ x ∈ verdicts p.2, x = .stopped
  marked : behindMark p.1 = true → verdicts p.2 ≠ []

def fetched (p : Proc) : Nat :=
  p.2.countP (fun e => isFetch e.1) + (isFetch p.1).toNat
where
  isFetch : Pc → Bool
    | .fetchPage _ => true
    | _ => false

def tenthAnswered (conf : Conf) (r : Reply) : Pc → Bool
  | .fetchPage v => decide (v.consecutiveFailures + 1 < maxConsecutiveFailures) ||
      !(fetchPageCursor conf.pageSize r.http).networkError
  | _ => true

/-- The next step of this place returns from `stop_ozon` or `request_stop`. -/
def stopReturns (s : Shared) : Pc → Bool
  | .stopFlag | .requestFlag => true
  | .requestShutdown => s.shuttingDown
  | _ => false

/-- What a step of a place must meet, for the run of call `i`. -/
structure InTimeAt (i : Nat) (c : Config Shared Proc) (pc : Pc) : Prop where
  reset : pc = .resetRunning ∨ pc = .resetStop → c.shared.ozonRunning = false
  cleared : pc = .stopFlag → ∀ p ∈ c.procs[i]?, yetToClear p.1 = false
  checked : pc = .requestFlag → ∀ p ∈ c.procs[i]?, passedCheck p.1 = false
  flagged : stopReturns c.shared pc = true → pc = .requestShutdown →
    ∀ p ∈ c.procs, p.1 ≠ .requestFlag
  open_ : stopReturns c.shared pc = true → ∀ p ∈ c.procs[i]?, underway p.1 = true → Stoppable p

/-- Resets meet no claimed run; a stop of call `i` returns after the call has cleared the flag, with
the flag set and the end of its run open; and a stopped run does not fail in its tenth attempt. -/
def InTime (conf : Conf) (i : Nat) (c : Config Shared Proc) : Label Proc Reply → Prop
  | .spawn _ => True
  | .act k r => ∀ p ∈ c.procs[k]?, InTimeAt i c p.1 ∧
      (k = i → c.shared.ozonStop = true → tenthAnswered conf r p.1 = true)

section Steps

variable {conf : Conf} {i : Nat} {s s' : Shared} {pc pc' : Pc} {r : Reply}

theorem inRun_claims (runs : inRun pc = true) : claims pc = true := by
  simp only [inRun, Bool.and_eq_true] at runs
  exact runs.1

private theorem afterListing_executing (v : RunVars) (page : OzonPage) :
    executing (afterListing v page) = true := by
  unfold afterListing
  split <;> rfl

structure Enters (s : Shared) (pc : Pc) (s' : Shared) (pc' : Pc) : Prop where
  down : s.shuttingDown = true → s'.shuttingDown = true
  begins : s'.shuttingDown = true → s.shuttingDown = true ∨ pc' = .requestFlag
  flag : pc' = .requestFlag → s'.shuttingDown = true
  passes : passedCheck pc' = true → passedCheck pc = true ∨ s.shuttingDown = false
  runs : inRun pc' = true → inRun pc = true ∨ pc = .clearStop

private theorem trigger_enters (stepped : triggerStep i s pc r = some (s', pc')) :
    Enters s pc s' pc' := by
  cases pc <;> simp only [triggerStep, Option.some.injEq, Prod.mk.injEq, reduceCtorEq] at stepped
  case claimRunning | submit =>
    split at stepped <;> cases stepped <;> constructor <;>
      simp [passedCheck, inRun, claims, executing]
  all_goals
    obtain ⟨rfl, rfl⟩ := stepped
    try split
    all_goals
      constructor <;>
        simp_all [passedCheck, inRun, claims, executing, resetCheckpoint, updateRuns]

theorem run_places (stepped : runStep conf i s pc r = some (s', pc')) :
    executing pc = true ∧ (executing pc' = true ∨ pc' = .finished) ∧
      s'.shuttingDown = s.shuttingDown := by
  cases pc <;> simp only [runStep, Option.some.injEq, Prod.mk.injEq, reduceCtorEq] at stepped
  case queued =>
    split at stepped
    · split at stepped <;> cases stepped
      exact ⟨rfl, Or.inl rfl, rfl⟩
    · cases stepped
  case fetchPage v =>
    split at stepped
    · cases stepped
      exact ⟨rfl, Or.inl rfl, rfl⟩
    · split at stepped <;> cases stepped
      · exact ⟨rfl, Or.inl rfl, rfl⟩
      · exact ⟨rfl, Or.inl (afterListing_executing _ _), rfl⟩
  case sendTotal v page =>
    obtain ⟨rfl, rfl⟩ := stepped
    exact ⟨rfl, Or.inl (afterListing_executing _ page), rfl⟩
  case releaseRunning =>
    obtain ⟨rfl, rfl⟩ := stepped
    exact ⟨rfl, Or.inr rfl, rfl⟩
  all_goals
    obtain ⟨rfl, rfl⟩ := stepped
    refine ⟨rfl, Or.inl ?_, rfl⟩
    first
      | rfl
      | (split <;> rfl)

theorem executing_inRun (runs : executing pc = true) : inRun pc = true := by
  cases pc <;> first | rfl | cases runs

private theorem run_enters (stepped : runStep conf i s pc r = some (s', pc')) :
    Enters s pc s' pc' := by
  obtain ⟨runs, stays, down⟩ := run_places stepped
  have place : passedCheck pc' = false ∧ pc' ≠ .requestFlag := by
    rcases stays with runs' | rfl
    · cases pc' <;> first | (cases runs'; done) | exact ⟨rfl, by simp⟩
    · exact ⟨rfl, by simp⟩
  refine ⟨fun was => down.trans was, fun now => Or.inl (down.symm.trans now),
    fun flag => absurd flag place.2, fun passed => ?_, fun _ => Or.inl (executing_inRun runs)⟩
  rw [place.1] at passed
  cases passed

private theorem control_enters (stepped : controlStep s pc r = some (s', pc')) :
    Enters s pc s' pc' := by
  cases pc <;> simp only [controlStep, Option.some.injEq, Prod.mk.injEq, reduceCtorEq] at stepped
  case requestShutdown =>
    split at stepped <;> cases stepped <;> constructor <;>
      simp_all [passedCheck, inRun, claims, executing]
  all_goals
    obtain ⟨rfl, rfl⟩ := stepped
    try split
    all_goals
      constructor <;>
        simp_all [passedCheck, inRun, claims, executing, updateCheckpointStatus, updateRuns]

theorem step_enters (stepped : (service conf).step i s pc r = some (s', pc')) :
    Enters s pc s' pc' := by
  rcases service_step stepped with trigger | run | control
  · exact trigger_enters trigger
  · exact run_enters run
  · exact control_enters control

def ended : Pc → Bool
  | .readRefusedJob | .failRefusedJob _ | .returned _ | .finished => true
  | _ => false

/-- The call is on its way under a stop that has returned: it will be refused as the service shuts
down, or its run goes on with the flag set, or it is over. -/
inductive Halting (s : Shared) (pc : Pc) : Prop
  | waits (down : s.shuttingDown = true) (place : yetToClear pc = true)
      (unchecked : passedCheck pc = false)
  | runs (set : s.ozonStop = true) (place : inRun pc = true)
  | ended (place : ended pc = true)

theorem Halting.flag (halting : Halting s pc) (runs : inRun pc = true) : s.ozonStop = true := by
  rcases halting with ⟨-, place, -⟩ | ⟨set, -⟩ | ⟨place⟩
  · cases pc <;> first | (cases place; done) | cases runs
  · exact set
  · cases pc <;> first | (cases place; done) | cases runs

theorem Halting.not_control (halting : Halting s pc) : controlStep s pc r = none := by
  rcases halting with ⟨-, place, -⟩ | ⟨-, place⟩ | ⟨place⟩ <;>
    cases pc <;> first | rfl | cases place

structure Halts (s : Shared) (pc : Pc) (s' : Shared) (pc' : Pc) : Prop where
  halting : Halting s' pc'
  place : otherEnd pc' = false
  fetches : fetched.isFetch pc' = false
  marked : behindMark pc' = true → behindMark pc = true ∨ verdict pc = some .stopped

private theorem trigger_halts (halting : Halting s pc)
    (stepped : triggerStep i s pc r = some (s', pc')) : Halts s pc s' pc' := by
  cases pc <;> simp only [triggerStep, Option.some.injEq, Prod.mk.injEq, reduceCtorEq] at stepped
  case claimRunning | clearStop =>
    rcases halting with ⟨-, -, unchecked⟩ | ⟨-, place⟩ | ⟨place⟩
    · cases unchecked
    · cases place
    · cases place
  case fullCheckShutdown | checkShutdown =>
    obtain ⟨rfl, rfl⟩ := stepped
    rcases halting with ⟨down, -, -⟩ | ⟨-, place⟩ | ⟨place⟩
    · rw [if_pos down]
      exact ⟨.ended rfl, rfl, rfl, fun marked => by cases marked⟩
    · cases place
    · cases place
  case fullResetCheckpoint | fullRemoveStored =>
    obtain ⟨rfl, rfl⟩ := stepped
    rcases halting with ⟨down, -, -⟩ | ⟨-, place⟩ | ⟨place⟩
    · exact ⟨.waits down rfl rfl, rfl, rfl, fun marked => by cases marked⟩
    · cases place
    · cases place
  case submit =>
    have set := halting.flag rfl
    split at stepped <;> cases stepped
    · exact ⟨.runs set rfl, rfl, rfl, fun marked => by cases marked⟩
    · exact ⟨.runs set rfl, rfl, rfl, fun marked => by cases marked⟩
  case releaseRefused =>
    obtain ⟨rfl, rfl⟩ := stepped
    exact ⟨.ended rfl, rfl, rfl, fun marked => by cases marked⟩
  case readRefusedJob =>
    obtain ⟨rfl, rfl⟩ := stepped
    split <;> exact ⟨.ended rfl, rfl, rfl, fun marked => by cases marked⟩
  case failRefusedJob jobId =>
    obtain ⟨rfl, rfl⟩ := stepped
    exact ⟨.ended rfl, rfl, rfl, fun marked => by cases marked⟩
  case abandonOld jobId =>
    have set := halting.flag rfl
    obtain ⟨rfl, rfl⟩ := stepped
    split <;> exact ⟨.runs set rfl, rfl, rfl, fun marked => by cases marked⟩
  all_goals
    have set := halting.flag rfl
    obtain ⟨rfl, rfl⟩ := stepped
    exact ⟨.runs set rfl, rfl, rfl, fun marked => by cases marked⟩

private theorem run_halts (halting : Halting s pc) (stoppable : otherEnd pc = false)
    (tenth : s.ozonStop = true → tenthAnswered conf r pc = true)
    (stepped : runStep conf i s pc r = some (s', pc')) : Halts s pc s' pc' := by
  have set := halting.flag (executing_inRun (run_places stepped).1)
  cases pc <;> simp only [runStep, Option.some.injEq, Prod.mk.injEq, reduceCtorEq] at stepped
  case queued =>
    split at stepped
    · split at stepped <;> cases stepped
      exact ⟨.runs set rfl, rfl, rfl, fun marked => by cases marked⟩
    · cases stepped
  case checkStop v =>
    obtain ⟨rfl, rfl⟩ := stepped
    rw [if_pos set]
    exact ⟨.runs set rfl, rfl, rfl, fun marked => by cases marked⟩
  case checkStopAtEnd v =>
    obtain ⟨rfl, rfl⟩ := stepped
    rw [if_pos set]
    exact ⟨.runs set rfl, rfl, rfl, fun marked => by cases marked⟩
  case fetchPage v =>
    split at stepped
    · rename_i failed
      cases stepped
      have below : v.consecutiveFailures + 1 < maxConsecutiveFailures := by
        simpa [tenthAnswered, failed] using tenth set
      refine ⟨.runs set rfl, ?_, rfl, fun marked => by cases marked⟩
      simpa [otherEnd] using below
    · split at stepped <;> cases stepped
      · exact ⟨.runs set rfl, rfl, rfl, fun marked => by cases marked⟩
      · unfold afterListing
        split <;> exact ⟨.runs set rfl, rfl, rfl, fun marked => by cases marked⟩
  case sendTotal v page =>
    obtain ⟨rfl, rfl⟩ := stepped
    unfold afterListing
    split <;> exact ⟨.runs set rfl, rfl, rfl, fun marked => by cases marked⟩
  case saveRetry v =>
    obtain ⟨rfl, rfl⟩ := stepped
    exact ⟨.runs set rfl, stoppable, rfl, fun marked => by cases marked⟩
  case sendRetry v =>
    obtain ⟨rfl, rfl⟩ := stepped
    have below : ¬ v.consecutiveFailures ≥ maxConsecutiveFailures := by
      simpa [otherEnd] using stoppable
    rw [if_neg below]
    exact ⟨.runs set rfl, rfl, rfl, fun marked => by cases marked⟩
  case readStore =>
    obtain ⟨rfl, rfl⟩ := stepped
    split <;> exact ⟨.runs set rfl, rfl, rfl, fun marked => by cases marked⟩
  case sendRunning v more =>
    obtain ⟨rfl, rfl⟩ := stepped
    split <;> exact ⟨.runs set rfl, rfl, rfl, fun marked => by cases marked⟩
  case markStopped =>
    obtain ⟨rfl, rfl⟩ := stepped
    exact ⟨.runs set rfl, rfl, rfl, fun _ => Or.inr rfl⟩
  case notifyStopped =>
    obtain ⟨rfl, rfl⟩ := stepped
    exact ⟨.runs set rfl, rfl, rfl, fun _ => Or.inl rfl⟩
  case readJobToFail error =>
    obtain ⟨rfl, rfl⟩ := stepped
    split
    · exact ⟨.runs set rfl, rfl, rfl, fun _ => Or.inl rfl⟩
    · exact ⟨.runs set rfl, stoppable, rfl, fun _ => Or.inl rfl⟩
  case failJob error jobId =>
    obtain ⟨rfl, rfl⟩ := stepped
    exact ⟨.runs set rfl, rfl, rfl, fun _ => Or.inl rfl⟩
  case releaseRunning =>
    obtain ⟨rfl, rfl⟩ := stepped
    exact ⟨.ended rfl, rfl, rfl, fun _ => Or.inl rfl⟩
  case saveFailed | sendFailed | saveDone | sendDone | readDoneJob | finishJob => cases stoppable
  all_goals
    obtain ⟨rfl, rfl⟩ := stepped
    exact ⟨.runs set rfl, rfl, rfl, fun marked => by cases marked⟩

theorem verdicts_snoc (past : Past) (pc : Pc) (r : Reply) :
    verdicts (past ++ [(pc, r)]) = verdicts past ++ (verdict pc).toList := by
  cases here : verdict pc <;> simp [verdicts, here]

theorem verdict_stopped {x : Verdict} (place : otherEnd pc = false) (here : verdict pc = some x) :
    x = .stopped := by
  cases pc <;> try (cases here; done)
  case markStopped | notifyStopped =>
    cases here
    rfl
  case failJob error jobId =>
    have text : error = stoppedByUser := by simpa [otherEnd] using place
    rw [verdict, if_pos text] at here
    exact (Option.some.inj here).symm
  all_goals cases place

theorem halting_step {p q : Proc} (halting : Halting s p.1) (stoppable : Stoppable p)
    (tenth : s.ozonStop = true → tenthAnswered conf r p.1 = true)
    (stepped : (service conf).step i s p.1 r = some (s', q.1)) (past : q.2 = p.2 ++ [(p.1, r)]) :
    Halting s' q.1 ∧ Stoppable q ∧ fetched q ≤ fetched p := by
  have halts : Halts s p.1 s' q.1 := by
    rcases service_step stepped with trigger | run | control
    · exact trigger_halts halting trigger
    · exact run_halts halting stoppable.place tenth run
    · rw [halting.not_control] at control
      cases control
  refine ⟨halts.halting, ⟨halts.place, ?_, ?_⟩, ?_⟩
  · rw [past, verdicts_snoc]
    intro x mem
    rcases List.mem_append.mp mem with old | new
    · exact stoppable.all x old
    · exact verdict_stopped stoppable.place (Option.mem_toList.mp new)
  · intro behind
    rw [past, verdicts_snoc]
    rcases halts.marked behind with marked | now
    · have some_old := stoppable.marked marked
      simp [some_old]
    · simp [now]
  · unfold fetched
    rw [past, halts.fetches, List.countP_append]
    cases here : fetched.isFetch p.1 <;> simp [here]

end Steps

section Runs

variable {conf : Conf} {i : Nat} {c d : Config Shared Proc} {l : Label Proc Reply} {p w : Proc}

theorem plain_at {j : Nat} (at_j : c.procs[j]? = some p) : c.plain.procs[j]? = some p.1 := by
  simp [Config.plain, at_j]

theorem inTime_reset (guard : InTime conf i c l) : ResetWhenIdle c.plain l.plain := by
  intro j r label at_reset
  cases l with
  | spawn _ => cases label
  | act k r' =>
      cases label
      obtain ⟨w, at_j, place⟩ : ∃ w, c.procs[j]? = some w ∧ w.1 = .resetRunning := by
        simpa [Config.plain] using at_reset
      exact (guard w at_j).1.reset (Or.inl place)

theorem flag_beside {j : Nat} {r : Reply} {s' : Shared} {pc' : Pc}
    (count : TokenCount Shared.ozonRunning claims c.plain) (apart : i ≠ j)
    (at_i : c.procs[i]? = some p) (at_j : c.procs[j]? = some w)
    (guard : InTimeAt i c w.1) (stepped : (service conf).step j c.shared w.1 r = some (s', pc'))
    (runs : inRun p.1 = true) (set : c.shared.ozonStop = true) : s'.ozonStop = true := by
  have claimed := inRun_claims runs
  have running : c.shared.ozonRunning = true := count.held (plain_at at_i) claimed
  refine (step_keeps stepped).2 (fun clears => ?_) (fun resets => ?_) set
  · have single : c.plain.procs.countP claims ≤ 1 := count.le.trans (Bool.toNat_le _)
    exact apart (eq_of_countP_le_one single (plain_at at_i) (plain_at at_j) claimed
      (by rw [clears]; rfl))
  · rw [guard.reset (Or.inr resets)] at running
    cases running

theorem Halting.beside {j : Nat} {r : Reply} {s' : Shared} {pc' : Pc}
    (halting : Halting c.shared p.1) (count : TokenCount Shared.ozonRunning claims c.plain)
    (apart : i ≠ j) (at_i : c.procs[i]? = some p) (at_j : c.procs[j]? = some w)
    (guard : InTimeAt i c w.1) (stepped : (service conf).step j c.shared w.1 r = some (s', pc')) :
    Halting s' p.1 := by
  rcases halting with ⟨down, place, unchecked⟩ | ⟨set, place⟩ | ⟨place⟩
  · exact .waits ((step_enters stepped).down down) place unchecked
  · exact .runs (flag_beside count apart at_i at_j guard stepped place set) place
  · exact .ended place

/-- After `request_stop`: call `i` comes no more behind the check, and its run has the flag set. -/
structure Shut (i : Nat) (c : Config Shared Proc) : Prop where
  down : c.shared.shuttingDown = true
  unchecked : ∀ p ∈ c.procs[i]?, passedCheck p.1 = false
  set : ∀ p ∈ c.procs[i]?, inRun p.1 = true → c.shared.ozonStop = true

theorem entry_place (entry : (service conf).recording.entry p = true) :
    passedCheck p.1 = false ∧ inRun p.1 = false ∧ p.1 ≠ .requestFlag := by
  have call : isCall p.1 = true := (recording_entry entry).1
  cases place : p.1 <;> rw [place] at call <;> first | (cases call; done) | exact ⟨rfl, rfl, by simp⟩

theorem Shut.next (shut : Shut i c) (count : TokenCount Shared.ozonRunning claims c.plain)
    (guard : InTime conf i c l) (next : (service conf).recording.next c l = some d) : Shut i d := by
  rcases next_cases next with ⟨q, rfl, entry, rfl⟩ | ⟨j, r, w, s', q, rfl, at_j, stepped, rfl⟩
  · obtain ⟨unchecked, outside, -⟩ := entry_place entry
    refine ⟨shut.down, fun p at_i => ?_, fun p at_i runs => ?_⟩
    · rcases getElem?_snoc_cases at_i with old | rfl
      · exact shut.unchecked p old
      · exact unchecked
    · rcases getElem?_snoc_cases at_i with old | rfl
      · exact shut.set p old runs
      · rw [outside] at runs
        cases runs
  · obtain ⟨inner, -⟩ := recording_step stepped
    have enters := step_enters inner
    obtain ⟨at_guard, -⟩ := guard w at_j
    refine ⟨enters.down shut.down, fun p at_i => ?_, fun p at_i runs => ?_⟩
    · rcases getElem?_set_cases at_i with ⟨rfl, rfl⟩ | ⟨-, at_i⟩
      · cases passed : passedCheck p.1 with
        | false => rfl
        | true =>
            rcases enters.passes passed with before | up
            · rw [shut.unchecked w at_j] at before
              cases before
            · rw [shut.down] at up
              cases up
      · exact shut.unchecked p at_i
    · rcases getElem?_set_cases at_i with ⟨rfl, rfl⟩ | ⟨apart, at_i⟩
      · rcases enters.runs runs with before | clears
        · refine (step_keeps inner).2 ?_ ?_ (shut.set w at_j before)
          · intro clears
            rw [clears] at before
            cases before
          · intro resets
            rw [resets] at before
            cases before
        · have behind := shut.unchecked w at_j
          rw [clears] at behind
          cases behind
      · have set := shut.set p at_i runs
        exact flag_beside count (Ne.symm apart) at_i at_j at_guard inner runs set

theorem shut_of_requestFlag {k : Nat} {r : Reply} (at_k : c.procs[k]? = some w)
    (place : w.1 = .requestFlag) (down : c.shared.shuttingDown = true)
    (guard : InTimeAt i c w.1) (next : (service conf).recording.next c (.act k r) = some d) :
    Shut i d := by
  obtain ⟨w', s', q, at_k', stepped, rfl⟩ := next_act next
  obtain rfl := Option.some.inj (at_k.symm.trans at_k')
  obtain ⟨inner, -⟩ := recording_step stepped
  obtain ⟨flag, left⟩ : s' = { c.shared with ozonStop := true } ∧ q.1 = .finished := by
    rw [place] at inner
    obtain ⟨moved, left⟩ := Prod.mk.inj (Option.some.inj inner)
    exact ⟨moved.symm, left.symm⟩
  have set : s'.ozonStop = true := by rw [flag]
  refine ⟨by rw [flag]; exact down, fun p at_i => ?_, fun _ _ _ => set⟩
  rcases getElem?_set_cases at_i with ⟨-, rfl⟩ | ⟨-, at_i⟩
  · rw [left]
    rfl
  · exact guard.checked place p at_i

structure Known (i : Nat) (c : Config Shared Proc) : Prop where
  count : TokenCount Shared.ozonRunning claims c.plain
  flagging : ∀ p ∈ c.procs, p.1 = .requestFlag → c.shared.shuttingDown = true
  shut : c.shared.shuttingDown = true → (∃ p ∈ c.procs, p.1 = .requestFlag) ∨ Shut i c

theorem Known.next (known : Known i c) (guard : InTime conf i c l)
    (next : (service conf).recording.next c l = some d) : Known i d := by
  have count := Exclusion.claims_next known.count (inTime_reset guard) (recording_next next)
  rcases next_cases next with ⟨q, rfl, entry, rfl⟩ | ⟨k, r, w, s', q, rfl, at_k, stepped, rfl⟩
  · refine ⟨count, ?_, fun down => ?_⟩
    · exact forall_mem_snoc known.flagging fun flag => absurd flag (entry_place entry).2.2
    · rcases known.shut down with ⟨p, mem, flag⟩ | shut
      · exact Or.inl ⟨p, List.mem_append_left _ mem, flag⟩
      · exact Or.inr (shut.next known.count guard next)
  · obtain ⟨inner, -⟩ := recording_step stepped
    have enters := step_enters inner
    have at_guard := (guard w at_k).1
    refine ⟨count, ?_, fun down => ?_⟩
    · refine forall_mem_set (fun p mem flag => enters.down (known.flagging p mem flag)) fun flag => ?_
      exact enters.flag flag
    · by_cases was : c.shared.shuttingDown = true
      · rcases known.shut was with ⟨p, mem, flag⟩ | shut
        · by_cases place : w.1 = .requestFlag
          · exact Or.inr (shut_of_requestFlag at_k place was at_guard next)
          · obtain ⟨j, at_j⟩ := List.mem_iff_getElem?.mp mem
            have apart : k ≠ j := by
              rintro rfl
              obtain rfl := Option.some.inj (at_k.symm.trans at_j)
              exact place flag
            refine Or.inl ⟨p, List.mem_iff_getElem?.mpr ⟨j, ?_⟩, flag⟩
            rw [List.getElem?_set_ne apart, at_j]
        · exact Or.inr (shut.next known.count guard next)
      · -- the step has won the exchange, and stores into the flag next
        have bound := (List.getElem?_eq_some_iff.mp at_k).1
        exact Or.inl ⟨q, List.mem_set bound q, (enters.begins down).resolve_left was⟩

/-- Call `i` has been under a returned stop since it stood at `p`. -/
def Halted (i : Nat) (p : Proc) (c : Config Shared Proc) : Prop :=
  ∃ q, c.procs[i]? = some q ∧ Halting c.shared q.1 ∧ Stoppable q ∧ fetched q ≤ fetched p

theorem Halted.next (halted : Halted i p c) (known : Known i c) (guard : InTime conf i c l)
    (next : (service conf).recording.next c l = some d) : Halted i p d := by
  obtain ⟨q, at_i, halting, stoppable, few⟩ := halted
  rcases next_cases next with ⟨_, rfl, -, rfl⟩ | ⟨j, r, w, s', q', rfl, at_j, stepped, rfl⟩
  · exact ⟨q, getElem?_snoc_kept at_i, halting, stoppable, few⟩
  · obtain ⟨inner, past⟩ := recording_step stepped
    obtain ⟨at_guard, tenth⟩ := guard w at_j
    by_cases same : i = j
    · subst same
      obtain rfl := Option.some.inj (at_i.symm.trans at_j)
      obtain ⟨halting', stoppable', fewer⟩ := halting_step halting stoppable (tenth rfl) inner past
      exact ⟨q', getElem?_set_here at_i, halting', stoppable', fewer.trans few⟩
    · refine ⟨q, by rw [List.getElem?_set_ne (Ne.symm same), at_i], ?_, stoppable, few⟩
      exact halting.beside known.count same at_i at_j at_guard inner

theorem halted_of_return {k : Nat} {r : Reply} (known : Known i c) (at_k : c.procs[k]? = some w)
    (returns : stopReturns c.shared w.1 = true) (guard : InTime conf i c (.act k r))
    (next : (service conf).recording.next c (.act k r) = some d)
    (shut : w.1 ≠ .stopFlag → Shut i d) (at_i : c.procs[i]? = some p)
    (under : underway p.1 = true) : Halted i p d := by
  have at_guard := (guard w at_k).1
  obtain ⟨w', s', q, at_k', stepped, rfl⟩ := next_act next
  obtain rfl := Option.some.inj (at_k.symm.trans at_k')
  obtain ⟨inner, -⟩ := recording_step stepped
  have apart : k ≠ i := by
    rintro rfl
    obtain rfl := Option.some.inj (at_k.symm.trans at_i)
    cases place : w.1 <;> rw [place] at returns under <;> first | (cases returns; done) | cases under
  have at_i' : (c.procs.set k q)[i]? = some p := by rw [List.getElem?_set_ne apart, at_i]
  refine ⟨p, at_i', ?_, at_guard.open_ returns p at_i under, le_refl _⟩
  by_cases stops : w.1 = .stopFlag
  · have moved : s' = { c.shared with ozonStop := true } := by
      rw [stops] at inner
      exact (Prod.mk.inj (Option.some.inj inner)).1.symm
    refine .runs (by rw [moved]) ?_
    simpa [underway, at_guard.cleared stops p at_i] using under
  · have shut := shut stops
    rcases Bool.or_eq_true_iff.mp under with waits | runs
    · exact .waits shut.down waits (shut.unchecked p at_i')
    · exact .runs (shut.set p at_i' runs) runs

end Runs

/-- In every run whose steps are in time for call `i`: once `stop_ozon` or `request_stop` has returned
while the call or its run was under way, the flag is set as long as the run lasts, the run fetches no
page but the one in progress, and records its end as a stopped one; and once `request_stop` has
returned, the run of the call never finds the flag cleared. -/
theorem stop_obeyed (conf : Conf) (s₀ : Shared) (idle : s₀.ozonRunning = false)
    (up : s₀.shuttingDown = false) (i k : Nat) (r : Reply) (c d e : Config Shared Proc) (w q : Proc)
    (history : Reach (service conf).recording (InTime conf i) ⟨s₀, []⟩ c)
    (at_k : c.procs[k]? = some w) (returns : stopReturns c.shared w.1 = true)
    (guard : InTime conf i c (.act k r))
    (next : (service conf).recording.next c (.act k r) = some d)
    (after : Reach (service conf).recording (InTime conf i) d e) (at_i : e.procs[i]? = some q) :
    (∀ p, c.procs[i]? = some p → underway p.1 = true →
      (inRun q.1 = true → e.shared.ozonStop = true) ∧ fetched q ≤ fetched p ∧
        (q.1 = .finished → RecordedStopped q.2)) ∧
    (w.1 ≠ .stopFlag → inRun q.1 = true → e.shared.ozonStop = true) := by
  have known : Known i c := history.invariant ⟨by simp [TokenCount, Config.plain, idle], by simp,
    fun down => by rw [up] at down; cases down⟩ fun _ _ _ known guard next => known.next guard next
  have at_guard := (guard w at_k).1
  -- `request_stop` returns with the flag set for good
  have shut : w.1 ≠ .stopFlag → Shut i d := by
    intro requests
    cases place : w.1 <;> rw [place] at returns requests <;> try (cases returns; done)
    case stopFlag => exact absurd rfl requests
    case requestFlag =>
      exact shut_of_requestFlag at_k place
        (known.flagging w (List.mem_of_getElem? at_k) place) at_guard next
    case requestShutdown =>
      rcases known.shut returns with ⟨p, mem, flag⟩ | shut
      · exact absurd flag (at_guard.flagged (by rw [place]; exact returns) place p mem)
      · exact shut.next known.count guard next
  have halted : ∀ p, c.procs[i]? = some p → underway p.1 = true → Halted i p d :=
    fun p at_p under => halted_of_return known at_k returns guard next shut at_p under
  have kept : Known i e ∧ (w.1 ≠ .stopFlag → Shut i e) ∧
      ∀ p, c.procs[i]? = some p → underway p.1 = true → Halted i p e := by
    refine after.invariant (I := fun e => Known i e ∧ (w.1 ≠ .stopFlag → Shut i e) ∧
        ∀ p, c.procs[i]? = some p → underway p.1 = true → Halted i p e)
      ⟨known.next guard next, shut, halted⟩ ?_
    rintro _ _ _ ⟨known, shut, halted⟩ guard next
    refine ⟨known.next guard next, fun requests => (shut requests).next known.count guard next, ?_⟩
    exact fun p at_p under => (halted p at_p under).next known guard next
  refine ⟨fun p at_p under => ?_, fun requests runs => (kept.2.1 requests).set q at_i runs⟩
  obtain ⟨q', at_i', halting, stoppable, few⟩ := kept.2.2 p at_p under
  obtain rfl := Option.some.inj (at_i.symm.trans at_i')
  refine ⟨halting.flag, few, fun ended => ⟨stoppable.marked ?_, stoppable.all⟩⟩
  rw [ended]
  rfl

section Sample

instance (p : Proc) : Decidable (Stoppable p) :=
  decidable_of_iff (otherEnd p.1 = false ∧ (∀ x ∈ verdicts p.2, x = .stopped) ∧
      (behindMark p.1 = true → verdicts p.2 ≠ []))
    ⟨fun h => ⟨h.1, h.2.1, h.2.2⟩, fun h => ⟨h.place, h.all, h.marked⟩⟩

instance (i : Nat) (c : Config Shared Proc) (pc : Pc) : Decidable (InTimeAt i c pc) :=
  decidable_of_iff ((pc = .resetRunning ∨ pc = .resetStop → c.shared.ozonRunning = false) ∧
      (pc = .stopFlag → ∀ p ∈ c.procs[i]?, yetToClear p.1 = false) ∧
      (pc = .requestFlag → ∀ p ∈ c.procs[i]?, passedCheck p.1 = false) ∧
      (stopReturns c.shared pc = true → pc = .requestShutdown →
        ∀ p ∈ c.procs, p.1 ≠ .requestFlag) ∧
      (stopReturns c.shared pc = true → ∀ p ∈ c.procs[i]?, underway p.1 = true → Stoppable p))
    ⟨fun h => ⟨h.1, h.2.1, h.2.2.1, h.2.2.2.1, h.2.2.2.2⟩,
      fun h => ⟨h.reset, h.cleared, h.checked, h.flagged, h.open_⟩⟩

instance (conf : Conf) (i : Nat) : ∀ c l, Decidable (InTime conf i c l)
  | _, .spawn _ => .isTrue trivial
  | c, .act k r => inferInstanceAs (Decidable (∀ p ∈ c.procs[k]?, InTimeAt i c p.1 ∧
      (k = i → c.shared.ozonStop = true → tenthAnswered conf r p.1 = true)))

def sampleConf : Conf := { pageSize := 100 }

def emptyListing : Reply where
  http := { statusCode := 200, body := .ok (.object [("result", .object [("items", .array [])])]) }

def call (pc : Pc) : Label Proc Reply := .spawn (pc, [])

def steps (i n : Nat) : List (Label Proc Reply) := List.replicate n (.act i emptyListing)

/-- A stop that returns between the claim of a trigger and its clear is lost: the run finds the flag
cleared, fetches a page and ends as done; and so is a shutdown that is requested between the check of a
trigger and its claim. -/
theorem stop_lost :
    (∃ c d e w p q, Reach (service sampleConf).recording anyLabel ⟨{}, []⟩ c ∧
      c.procs[1]? = some w ∧ w.1 = .stopFlag ∧ c.procs[0]? = some p ∧ p.1 = .clearStop ∧
      (service sampleConf).recording.next c (.act 1 {}) = some d ∧
      Reach (service sampleConf).recording anyLabel d e ∧ e.procs[0]? = some q ∧
      e.shared.ozonStop = false ∧ fetched p < fetched q ∧ verdicts q.2 = [.done, .done, .done]) ∧
    ∃ c d e w q, Reach (service sampleConf).recording anyLabel ⟨{}, []⟩ c ∧
      c.procs[1]? = some w ∧ w.1 = .requestFlag ∧
      (service sampleConf).recording.next c (.act 1 {}) = some d ∧
      Reach (service sampleConf).recording anyLabel d e ∧ e.procs[0]? = some q ∧
      e.shared.shuttingDown = true ∧ inRun q.1 = true ∧ e.shared.ozonStop = false := by
  constructor
  · obtain ⟨c, d, e, history, -, next, after, test⟩ := reach_next_reach_of_run_test
      (M := (service sampleConf).recording) (G := anyLabel) (g := fun _ _ => true) (a := ⟨{}, []⟩)
      (call .checkShutdown :: steps 0 2 ++ call .stopStatus :: steps 1 3) (.act 1 {}) (steps 0 17)
      (fun (c _ e : Config Shared Proc) => (c.procs[1]?.any fun w : Proc => decide (w.1 = .stopFlag)) &&
        (c.procs[0]?.any fun p : Proc => decide (p.1 = .clearStop) && e.procs[0]?.any fun q : Proc =>
          decide (fetched p < fetched q ∧ verdicts q.2 = [.done, .done, .done])) &&
        decide (e.shared.ozonStop = false))
      (fun _ _ _ => trivial) (by decide)
    simp only [Bool.and_eq_true, Option.any_eq_true, decide_eq_true_eq] at test
    obtain ⟨⟨⟨w, at_w, stops⟩, p, at_p, clears, q, at_q, few, ends⟩, cleared⟩ := test
    exact ⟨c, d, e, w, p, q, history, at_w, stops, at_p, clears, next, after, at_q, cleared, few,
      ends⟩
  · obtain ⟨c, d, e, history, -, next, after, test⟩ := reach_next_reach_of_run_test
      (M := (service sampleConf).recording) (G := anyLabel) (g := fun _ _ => true) (a := ⟨{}, []⟩)
      (call .checkShutdown :: steps 0 1 ++ call .requestShutdown :: steps 1 1) (.act 1 {}) (steps 0 9)
      (fun (c _ e : Config Shared Proc) =>
        (c.procs[1]?.any fun w : Proc => decide (w.1 = .requestFlag)) &&
        (e.procs[0]?.any fun q : Proc => inRun q.1) &&
        decide (e.shared.shuttingDown = true ∧ e.shared.ozonStop = false))
      (fun _ _ _ => trivial) (by decide)
    simp only [Bool.and_eq_true, Option.any_eq_true, decide_eq_true_eq] at test
    obtain ⟨⟨⟨w, at_w, requests⟩, q, at_q, runs⟩, down, cleared⟩ := test
    exact ⟨c, d, e, w, q, history, at_w, requests, next, after, at_q, down, runs, cleared⟩

theorem stop_obeyed_fetching :
    ∃ q : Proc, q.1 = .finished ∧ fetched q ≤ 1 ∧ RecordedStopped q.2 := by
  obtain ⟨c, d, e, history, guard, next, after, test⟩ := reach_next_reach_of_run_test
    (M := (service sampleConf).recording) (G := InTime sampleConf 0)
    (g := fun c l => decide (InTime sampleConf 0 c l)) (a := ⟨{}, []⟩)
    (call .checkShutdown :: steps 0 12 ++ call .stopStatus :: steps 1 3) (.act 1 {}) (steps 0 7)
    (fun (c _ e : Config Shared Proc) => (c.procs[1]?.any fun w : Proc => stopReturns c.shared w.1) &&
      (c.procs[0]?.any fun p : Proc => underway p.1 && decide (fetched p = 1)) &&
      e.procs[0]?.any fun q : Proc => decide (q.1 = .finished))
    (fun _ _ => of_decide_eq_true) (by decide)
  simp only [Bool.and_eq_true, Option.any_eq_true, decide_eq_true_eq] at test
  obtain ⟨⟨⟨w, at_w, returns⟩, p, at_p, under, one⟩, q, at_q, ended⟩ := test
  obtain ⟨-, few, recorded⟩ := (stop_obeyed sampleConf {} rfl rfl 0 1 {} c d e w q history at_w
    returns guard next after at_q).1 p at_p under
  exact ⟨q, ended, one ▸ few, recorded ended⟩

end Sample

end Scand.Ozon.StopFlag
