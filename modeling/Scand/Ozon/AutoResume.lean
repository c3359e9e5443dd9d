/- path: Scand/Ozon/AutoResume
   layer: results
   digest: resume_on_start starts no sync after a run that ended with done or was stopped by the user, as
   long as stop_ozon meets no stored progress. -/

import Scand.Ozon.Mirror
import Scand.Ozon.Startup

set_option autoImplicit false
set_option relaxedAutoImplicit false

namespace Scand.Ozon.AutoResume

open Scand.Foundation.Interleaving
open Scand.Foundation.Restarts
open Scand.Ozon.Exclusion (claims executing step_balanced)
open Scand.Ozon.Service
open Scand.Ozon.Startup

/-- How the last Ozon run ended so far: it has been claimed, it has saved `done`, or `stop_ozon` has set
the flag before that. -/
inductive Outcome
  | never | unfinished | done | stopped
  deriving DecidableEq

def Outcome.closed : Outcome → Bool
  | .done | .stopped => true
  | .never | .unfinished => false

/-- The outcome after the next step of a place. -/
def outcomeAfter (s : Shared) (o : Outcome) (p : Place) : Outcome :=
  match p.pc? with
  | some .claimRunning => if s.ozonRunning then o else .unfinished
  | some (.saveDone _) => .done
  | some .stopFlag => if s.ozonRunning = true ∧ o = .unfinished then .stopped else o
  | _ => o

abbrev State := Config (Shared × Outcome) Place

/-- A restart: it marks the interrupted runs, and comes to `resume_on_start`. -/
def restart (s : Shared × Outcome) : State := ⟨(rebooted s.1, s.2), [.markPulls]⟩

def Progress (row : SyncStateRow) : Prop := row.lastCursor ≠ "" ∨ row.totalSynced ≠ 0

instance (row : SyncStateRow) : Decidable (Progress row) := inferInstanceAs (Decidable (_ ∨ _))

def Resumable (row : SyncStateRow) : Prop :=
  Progress row ∧ row.lastStatus ≠ "done" ∧ row.lastStatus ≠ "stopped"

theorem hasUnfinished_iff {s : Shared} {dbOk : Bool} :
    hasUnfinishedOzonSync s dbOk = true ↔ dbOk = true ∧ ∃ row ∈ s.syncState, Resumable row := by
  cases dbOk with
  | false => simp [hasUnfinishedOzonSync, loadCheckpoint]
  | true =>
      cases stored : s.syncState with
      | none => simp [hasUnfinishedOzonSync, loadCheckpoint, stored]
      | some row =>
          simp [hasUnfinishedOzonSync, loadCheckpoint, stored, Resumable, Progress]

def beforeClaim : Pc → Bool
  | .fullCheckShutdown | .fullResetCheckpoint | .fullRemoveStored | .checkShutdown
  | .claimRunning => true
  | _ => false

/-- `resume_on_start` has found an unfinished run, and its trigger has not yet claimed a new one. -/
def pending : Place → Bool
  | .resumed pc => beforeClaim pc
  | _ => false

def savesLater : Pc → Bool
  | .sendDone _ | .readDoneJob _ | .finishJob _ _ | .releaseRunning => false
  | pc => claims pc

def rowOf (cp : SyncCheckpoint) : SyncStateRow where
  lastCursor := cp.lastCursor
  lastPage := cp.lastPage
  totalSynced := cp.totalSynced
  lastStatus := cp.lastStatus

def rowAfter (pc : Pc) (dbOk : Bool) (row : Option SyncStateRow) : Option SyncStateRow :=
  if dbOk then
    match pc with
    | .saveRunning v | .saveRetry v | .saveFailed v | .saveCheckpoint v _ | .saveDone v =>
        some (rowOf v.cp)
    | .fullResetCheckpoint =>
        row.map fun _ => { lastCursor := "", lastPage := 0, totalSynced := 0, lastStatus := "" }
    | .stopStatus => row.map fun row => { row with lastStatus := "stopping" }
    | _ => row
  else row

/-- What a step of a call must meet: a reset meets no claimed run; `stop_ozon` writes its status over
no progress of a closed run, and sets the flag of no run that could be resumed; a stopped run saves no
progress; `done` is stored; and no run is closed between a check of `resume_on_start` and its claim. -/
def SparedAt (c : State) (r : Reply) : Pc → Prop
  | .resetRunning => c.shared.1.ozonRunning = false
  | .stopStatus => c.shared.2.closed = true → ∀ row ∈ c.shared.1.syncState, ¬ Progress row
  | .stopFlag => c.shared.1.ozonRunning = true → c.shared.2 = .unfinished →
      hasUnfinishedOzonSync c.shared.1 true = false ∧ ∀ p ∈ c.procs, pending p = false
  | .saveRunning v | .saveRetry v | .saveFailed v | .saveCheckpoint v _ =>
      c.shared.2 = .stopped → ¬ Progress (rowOf v.cp)
  | .saveDone _ => r.dbOk = true ∧ ∀ p ∈ c.procs, pending p = false
  | _ => True

def Spared (c : State) : Label Place Reply → Prop
  | .spawn _ => True
  | .act i r => ∀ p ∈ c.procs[i]?, ∀ pc ∈ p.pc?, SparedAt c r pc

section Steps

variable {conf : Conf} {i : Nat} {s s' : Shared} {pc pc' : Pc} {r : Reply}

/-- What a step does to the row, and how it comes to a claim or to the last save of a run. -/
structure Moves (s : Shared) (pc : Pc) (r : Reply) (s' : Shared) (pc' : Pc) : Prop where
  row : s'.syncState = rowAfter pc r.dbOk s.syncState
  triggers : beforeClaim pc' = true → beforeClaim pc = true
  saves : savesLater pc' = true →
    (savesLater pc = true ∧ ∀ v, pc ≠ .saveDone v) ∨ (pc = .claimRunning ∧ s.ozonRunning = false)
  done : ∀ v, pc' = .saveDone v → v.cp.lastStatus = "done"

private theorem trigger_moves (stepped : triggerStep i s pc r = some (s', pc')) :
    Moves s pc r s' pc' := by
  cases pc <;> simp only [triggerStep, Option.some.injEq, Prod.mk.injEq, reduceCtorEq] at stepped
  case claimRunning | submit =>
    split at stepped <;> cases stepped <;> constructor <;>
      simp_all [rowAfter, beforeClaim, savesLater, claims, executing]
  all_goals
    obtain ⟨rfl, rfl⟩ := stepped
    try split
    all_goals
      constructor <;>
        simp_all [rowAfter, beforeClaim, savesLater, claims, executing, resetCheckpoint, updateRuns]

private theorem afterListing_moves (v : RunVars) (page : Client.OzonPage) :
    beforeClaim (afterListing v page) = false ∧ ∀ v', afterListing v page ≠ .saveDone v' := by
  unfold afterListing
  split <;> exact ⟨rfl, by simp⟩

private theorem run_moves (stepped : runStep conf i s pc r = some (s', pc')) :
    Moves s pc r s' pc' := by
  cases pc <;> simp only [runStep, Option.some.injEq, Prod.mk.injEq, reduceCtorEq] at stepped
  case queued =>
    split at stepped
    · split at stepped <;> cases stepped
      constructor <;> simp [rowAfter, beforeClaim, savesLater, claims, executing]
    · cases stepped
  case fetchPage v =>
    split at stepped
    · cases stepped
      constructor <;> simp [rowAfter, beforeClaim, savesLater, claims, executing]
    · split at stepped <;> cases stepped
      · constructor <;> simp [rowAfter, beforeClaim, savesLater, claims, executing]
      · constructor <;>
          simp [rowAfter, afterListing_moves, savesLater, claims, executing]
  case sendTotal v page =>
    obtain ⟨rfl, rfl⟩ := stepped
    constructor <;>
      simp [rowAfter, afterListing_moves, savesLater, claims, executing, sendProgress]
  case saveRunning | saveRetry | saveFailed | saveCheckpoint | saveDone =>
    obtain ⟨rfl, rfl⟩ := stepped
    constructor <;>
      simp [rowAfter, rowOf, beforeClaim, savesLater, claims, executing, Service.saveCheckpoint]
  all_goals
    obtain ⟨rfl, rfl⟩ := stepped
    try split
    all_goals
      constructor <;>
        simp [rowAfter, beforeClaim, savesLater, claims, executing, sendProgress, upsertProducts,
          updateRuns]

private theorem control_moves (stepped : controlStep s pc r = some (s', pc')) :
    Moves s pc r s' pc' := by
  cases pc <;> simp only [controlStep, Option.some.injEq, Prod.mk.injEq, reduceCtorEq] at stepped
  case requestShutdown =>
    split at stepped <;> cases stepped <;> constructor <;>
      simp_all [rowAfter, beforeClaim, savesLater, claims, executing]
  all_goals
    obtain ⟨rfl, rfl⟩ := stepped
    try split
    all_goals
      constructor <;>
        simp_all [rowAfter, beforeClaim, savesLater, claims, executing, updateCheckpointStatus,
          updateRuns]

theorem step_moves (stepped : (service conf).step i s pc r = some (s', pc')) :
    Moves s pc r s' pc' := by
  rcases service_step stepped with trigger | run | control
  · exact trigger_moves trigger
  · exact run_moves run
  · exact control_moves control

end Steps

section Rows

variable {s : Shared} {o : Outcome} {p : Place} {pc : Pc} {dbOk : Bool}
  {row : Option SyncStateRow}

def saved : Pc → Option SyncCheckpoint
  | .saveRunning v | .saveRetry v | .saveFailed v | .saveCheckpoint v _ => some v.cp
  | _ => none

theorem rowAfter_progress {row' : SyncStateRow} (after : row' ∈ rowAfter pc dbOk row)
    (progress : Progress row') :
    row = some row' ∨ (∃ v, pc = .saveDone v ∧ dbOk = true ∧ row' = rowOf v.cp) ∨
      (∃ cp ∈ saved pc, row' = rowOf cp) ∨ (pc = .stopStatus ∧ ∃ old ∈ row, Progress old) := by
  unfold rowAfter at after
  cases dbOk with
  | false => exact Or.inl after
  | true =>
      rw [if_pos rfl] at after
      cases pc
      case saveDone v => exact Or.inr (Or.inl ⟨v, rfl, rfl, (Option.some.inj after).symm⟩)
      case saveRunning | saveRetry | saveFailed | saveCheckpoint =>
        exact Or.inr (Or.inr (Or.inl ⟨_, rfl, (Option.some.inj after).symm⟩))
      case fullResetCheckpoint =>
        obtain ⟨old, -, rfl⟩ := Option.map_eq_some_iff.mp after
        exact absurd progress (by simp [Progress])
      case stopStatus =>
        obtain ⟨old, stored, rfl⟩ := Option.map_eq_some_iff.mp after
        exact Or.inr (Or.inr (Or.inr ⟨rfl, old, stored, progress⟩))
      all_goals exact Or.inl after

theorem saved_savesLater {cp : SyncCheckpoint} (saves : saved pc = some cp) :
    savesLater pc = true := by
  cases pc <;> first | rfl | cases saves

theorem outcome_outside (outside : p.pc? = none) : outcomeAfter s o p = o := by
  simp [outcomeAfter, outside]

theorem closed_after (place : p.pc? = some pc) (closed : (outcomeAfter s o p).closed = true) :
    (∃ v, pc = .saveDone v) ∨ (pc = .stopFlag ∧ s.ozonRunning = true ∧ o = .unfinished) ∨
      (o.closed = true ∧ (pc = .claimRunning → s.ozonRunning = true)) := by
  unfold outcomeAfter at closed
  rw [place] at closed
  cases pc
  case saveDone v => exact Or.inl ⟨v, rfl⟩
  case claimRunning =>
    dsimp only at closed
    split at closed
    · rename_i running
      exact Or.inr (Or.inr ⟨closed, fun _ => running⟩)
    · cases closed
  case stopFlag =>
    dsimp only at closed
    split at closed
    · rename_i stops
      exact Or.inr (Or.inl ⟨rfl, stops⟩)
    · exact Or.inr (Or.inr ⟨closed, fun claim => by cases claim⟩)
  all_goals exact Or.inr (Or.inr ⟨closed, fun claim => by cases claim⟩)

theorem done_after (place : p.pc? = some pc) (done : outcomeAfter s o p = .done) :
    (∃ v, pc = .saveDone v) ∨ (o = .done ∧ (pc = .claimRunning → s.ozonRunning = true)) := by
  rcases closed_after place (by rw [done]; rfl) with saves | ⟨rfl, running, unfinished⟩ | ⟨-, claim⟩
  · exact Or.inl saves
  · simp [outcomeAfter, place, running, unfinished] at done
  · refine or_iff_not_imp_left.mpr fun other => ⟨?_, claim⟩
    unfold outcomeAfter at done
    rw [place] at done
    cases pc
    case saveDone v => exact absurd ⟨v, rfl⟩ other
    case claimRunning => simpa [claim rfl] using done
    case stopFlag =>
      dsimp only at done
      split at done
      · cases done
      · exact done
    all_goals exact done

end Rows

section Runs

variable {conf : Conf} {c d : State} {l : Label Place Reply}

def holds (p : Place) : Bool := p.pc?.any claims

/-- What holds over all lives: a resumable row belongs to a run that is not closed, and so does a found
one; and no run that will still save has saved `done`. -/
structure Consistent (c : State) : Prop where
  count : TokenCount (fun x : Shared × Outcome => x.1.ozonRunning) holds c
  row : ∀ row ∈ c.shared.1.syncState, Resumable row → c.shared.2.closed = false
  saves : ∀ p ∈ c.procs, ∀ pc ∈ p.pc?, savesLater pc = true → c.shared.2 ≠ .done
  done : ∀ p ∈ c.procs, ∀ v, p.pc? = some (.saveDone v) → v.cp.lastStatus = "done"
  found : ∀ p ∈ c.procs, pending p = true → c.shared.2.closed = false

theorem savesLater_claims {pc : Pc} (saves : savesLater pc = true) : claims pc = true := by
  cases pc <;> first | rfl | cases saves

theorem place_balanced {i : Nat} {s s' : Shared} {p q : Place} {r : Reply}
    (held : holds p = true → s.ozonRunning = true)
    (idle : p.pc? = some .resetRunning → s.ozonRunning = false)
    (stepped : (starting conf).step i s p r = some (s', q)) :
    TokenBalanced Shared.ozonRunning holds s p s' q := by
  rcases starting_places stepped with ⟨pc, pc', moved, here, there⟩ | ⟨⟨runs, rfl⟩, outside, calm⟩
  · have balanced := step_balanced (fun claimed => held (by simp [holds, here, claimed]))
      (fun reset => idle (here.trans (congrArg some reset))) moved
    simpa [TokenBalanced, holds, here, there] using balanced
  · have free : holds q = false := by
      unfold holds
      cases there : q.pc? with
      | none => rfl
      | some pc => rcases calm pc there with rfl | rfl <;> rfl
    have free_before : holds p = false := by simp [holds, outside]
    simp [TokenBalanced, free, free_before]

theorem entry_free {p : Place} (entry : (starting conf).entry p = true) : holds p = false := by
  cases p with
  | call pc => cases pc <;> first | rfl | cases entry
  | markPulls | markOzon | resumeOnStart | checkUnfinished | resumed => cases entry

private theorem consistent_count (known : Consistent c) (guard : Spared c l)
    (next : ((starting conf).tracking outcomeAfter).next c l = some d) :
    TokenCount (fun x : Shared × Outcome => x.1.ozonRunning) holds d := by
  refine known.count.next next (fun p entry => ?_) fun i r p s q label at_i stepped => ?_
  · have fresh : (starting conf).entry p = true := entry
    exact entry_free fresh
  · refine place_balanced (known.count.held at_i) (fun reset => ?_) (tracking_step stepped).1
    subst label
    exact guard p at_i .resetRunning reset

private theorem consistent_call {i : Nat} {r : Reply} {p : Place} {pc pc' : Pc} {s' : Shared}
    (known : Consistent c) (at_i : c.procs[i]? = some p) (here : p.pc? = some pc)
    (spared : SparedAt c r pc) (moves : Moves c.shared.1 pc r s' pc') :
    (∀ row ∈ s'.syncState, Resumable row →
        (outcomeAfter c.shared.1 c.shared.2 p).closed = false) ∧
      (savesLater pc' = true → outcomeAfter c.shared.1 c.shared.2 p ≠ .done) ∧
      (∀ j w, i ≠ j → c.procs[j]? = some w → ∀ place ∈ w.pc?, savesLater place = true →
        outcomeAfter c.shared.1 c.shared.2 p ≠ .done) ∧
      (∀ w ∈ c.procs, pending w = true → (outcomeAfter c.shared.1 c.shared.2 p).closed = false) := by
  refine ⟨fun row stored resumable => ?_, fun saves done => ?_,
    fun j w apart at_j place at_w saves done => ?_, fun w mem found => ?_⟩
  · rw [moves.row] at stored
    by_contra closed
    rw [Bool.not_eq_false] at closed
    rcases closed_after here closed with ⟨v, rfl⟩ | ⟨rfl, running, unfinished⟩ | ⟨before, -⟩
    · have ok : r.dbOk = true := spared.1
      rw [ok] at stored
      have named : row = rowOf v.cp := (Option.some.inj stored).symm
      refine resumable.2.1 ?_
      rw [named]
      exact known.done p (List.mem_of_getElem? at_i) v here
    · have kept : c.shared.1.syncState = some row := by
        cases dbOk : r.dbOk <;> rw [dbOk] at stored <;> exact stored
      have finds := hasUnfinished_iff.mpr ⟨rfl, row, kept, resumable⟩
      rw [(spared running unfinished).1] at finds
      cases finds
    · rcases rowAfter_progress stored resumable.1 with
        old | ⟨v, rfl, ok, rfl⟩ | ⟨cp, saves, rfl⟩ | ⟨rfl, old, stored', progress⟩
      · rw [known.row row old resumable] at before
        cases before
      · exact resumable.2.1 (known.done p (List.mem_of_getElem? at_i) v here)
      · have later := known.saves p (List.mem_of_getElem? at_i) pc here (saved_savesLater saves)
        have stopped : c.shared.2 = .stopped := by
          cases o : c.shared.2 <;> rw [o] at before later <;>
            first | rfl | (cases before; done) | exact absurd rfl later
        cases pc <;> cases saves <;> exact spared stopped resumable.1
      · exact spared before old stored' progress
  · rcases done_after here done with ⟨v, rfl⟩ | ⟨before, claim⟩
    · rcases moves.saves saves with ⟨-, other⟩ | ⟨claims_, -⟩
      · exact other v rfl
      · cases claims_
    · rcases moves.saves saves with ⟨later, -⟩ | ⟨rfl, idle⟩
      · exact known.saves p (List.mem_of_getElem? at_i) pc here later before
      · rw [claim rfl] at idle
        cases idle
  · rcases done_after here done with ⟨v, rfl⟩ | ⟨before, -⟩
    · have single : c.procs.countP holds ≤ 1 := known.count.le.trans (Bool.toNat_le _)
      refine apart (eq_of_countP_le_one single at_i at_j ?_ ?_)
      · simp [holds, here, claims, executing]
      · have claimed := savesLater_claims saves
        rw [Option.mem_def] at at_w
        simp [holds, at_w, claimed]
    · exact known.saves w (List.mem_of_getElem? at_j) place at_w saves before
  · by_contra closed
    rw [Bool.not_eq_false] at closed
    rcases closed_after here closed with ⟨v, rfl⟩ | ⟨rfl, running, unfinished⟩ | ⟨before, -⟩
    · rw [spared.2 w mem] at found
      cases found
    · rw [(spared running unfinished).2 w mem] at found
      cases found
    · rw [known.found w mem found] at before
      cases before

theorem entry_place {p : Place} (entry : ((starting conf).tracking outcomeAfter).entry p = true) :
    ∃ pc, p = .call pc ∧ savesLater pc = false ∧ ∀ v, pc ≠ .saveDone v := by
  cases p with
  | call pc => cases pc <;> first | (cases entry; done) | exact ⟨_, rfl, rfl, by simp⟩
  | markPulls | markOzon | resumeOnStart | checkUnfinished | resumed => cases entry

theorem Consistent.next (known : Consistent c) (guard : Spared c l)
    (next : ((starting conf).tracking outcomeAfter).next c l = some d) : Consistent d := by
  have count := consistent_count known guard next
  rcases next_cases next with ⟨p, rfl, entry, rfl⟩ | ⟨i, r, p, s', q, rfl, at_i, stepped, rfl⟩
  · obtain ⟨pc, rfl, silent, other⟩ := entry_place entry
    refine ⟨count, known.row, ?_, ?_, ?_⟩
    · refine forall_mem_snoc known.saves fun pc' here saves => ?_
      cases here
      rw [silent] at saves
      cases saves
    · exact forall_mem_snoc known.done fun v here => absurd (Option.some.inj here) (other v)
    · exact forall_mem_snoc known.found fun found => by cases found
  · obtain ⟨inner, noted⟩ := tracking_step stepped
    obtain ⟨s', o'⟩ := s'
    rcases starting_step inner with ⟨pc, pc', moved, places⟩ | ⟨⟨runs, same⟩, outside, places⟩
    · have here : p.pc? = some pc ∧ q.pc? = some pc' := by
        rcases places with ⟨rfl, rfl⟩ | ⟨rfl, rfl⟩ <;> exact ⟨rfl, rfl⟩
      have moves := step_moves moved
      obtain rfl : o' = outcomeAfter c.shared.1 c.shared.2 p := noted
      obtain ⟨row, own, others, found⟩ :=
        consistent_call known at_i here.1 (guard p at_i pc here.1) moves
      refine ⟨count, row, fun w mem place at_w saves => ?_, fun w mem v at_w => ?_,
        fun w mem searching => ?_⟩
      · rcases mem_set_cases mem with rfl | ⟨j, apart, at_j⟩
        · obtain rfl := Option.some.inj (here.2.symm.trans at_w)
          exact own saves
        · exact others j w apart at_j place at_w saves
      · rcases mem_set_cases mem with rfl | ⟨j, apart, at_j⟩
        · exact moves.done v (Option.some.inj (here.2.symm.trans at_w))
        · exact known.done w (List.mem_of_getElem? at_j) v at_w
      · rcases mem_set_cases mem with rfl | ⟨j, apart, at_j⟩
        · refine found p (List.mem_of_getElem? at_i) ?_
          rcases places with ⟨-, rfl⟩ | ⟨rfl, rfl⟩
          · cases searching
          · exact moves.triggers searching
        · exact found w (List.mem_of_getElem? at_j) searching
    · obtain rfl : o' = c.shared.2 := noted.trans (outcome_outside outside)
      have calm : ∀ pc ∈ q.pc?, savesLater pc = false ∧ ∀ v, pc ≠ .saveDone v := by
        intro pc here
        rcases places with none_yet | rfl | ⟨rfl, -⟩
        · rw [none_yet] at here
          cases here
        all_goals
          cases here
          exact ⟨rfl, by simp⟩
      have row : s'.syncState = c.shared.1.syncState := by
        have kept := congrArg Shared.syncState same
        exact kept
      refine ⟨count, ?_, ?_, ?_, ?_⟩
      · intro stored mem resumable
        exact known.row stored (row ▸ mem) resumable
      · refine forall_mem_set known.saves ?_
        intro pc here saves
        rw [(calm pc here).1] at saves
        cases saves
      · exact forall_mem_set known.done fun v here => absurd rfl ((calm _ here).2 v)
      · refine forall_mem_set known.found fun found => ?_
        rcases places with none_yet | rfl | ⟨rfl, finds⟩
        · cases q <;> first | (cases none_yet; done) | cases found
        · cases found
        obtain ⟨-, stored, mem, resumable⟩ := hasUnfinished_iff.mp finds
        exact known.row stored mem resumable

theorem consistent_restart {x : Shared × Outcome}
    (row : ∀ row ∈ x.1.syncState, Resumable row → x.2.closed = false) :
    Consistent (restart x) := by
  refine ⟨rfl, row, ?_, ?_, ?_⟩
  · intro p mem pc here
    obtain rfl := List.mem_singleton.mp mem
    cases here
  · intro p mem v here
    obtain rfl := List.mem_singleton.mp mem
    cases here
  · intro p mem found
    obtain rfl := List.mem_singleton.mp mem
    cases found

end Runs

/-- Over all lives of the service from an empty table on, as long as every step is spared: a sync that
`resume_on_start` is about to start follows a run that neither saved `done` nor was stopped by the
user. -/
theorem resumed_after_unfinished (conf : Conf) (s₀ : Shared) (fresh : s₀.syncState = none)
    (c : State) (i : Nat)
    (lives : Lives ((starting conf).tracking outcomeAfter) Spared restart (restart (s₀, .never)) c)
    (starts : c.procs[i]? = some (.resumed .claimRunning)) :
    c.shared.2 ≠ .done ∧ c.shared.2 ≠ .stopped := by
  have known : Consistent c := lives.invariant (consistent_restart fun row stored => by
      rw [fresh] at stored
      cases stored)
    (fun _ _ _ known guard next => known.next guard next)
    fun _ known => consistent_restart known.row
  have open_ := known.found _ (List.mem_of_getElem? starts) rfl
  constructor
  · intro done
    rw [done] at open_
    cases open_
  · intro stopped
    rw [stopped] at open_
    cases open_

section Sample

open Scand.Ozon.Mirror (listing)

instance (c : State) (r : Reply) (pc : Pc) : Decidable (SparedAt c r pc) := by
  unfold SparedAt
  split <;> infer_instance

instance : ∀ c l, Decidable (Spared c l)
  | _, .spawn _ => .isTrue trivial
  | c, .act i r => inferInstanceAs (Decidable (∀ p ∈ c.procs[i]?, ∀ pc ∈ p.pc?, SparedAt c r pc))

def steps (i n : Nat) : List (Label Place Reply) := List.replicate n (.act i {})

def firstPage : List (Label Place Reply) :=
  steps 0 4 ++ .spawn (.call .checkShutdown) :: steps 1 12 ++ .act 1 listing :: steps 1 5

def stopOzon : List (Label Place Reply) := .spawn (.call .stopStatus) :: steps 2 4

def resumesAfter (o : Outcome) (c : State) : Bool :=
  decide (c.procs[0]? = some (.resumed .claimRunning) ∧ c.shared.1.ozonRunning = false ∧
    c.shared.2 = o)

/-- A sync that the user stops after its first page is resumed after a restart, and so is a completed
one if `stop_ozon` is called after its end. -/
theorem closed_run_resumed :
    (∃ c, Lives ((starting { pageSize := 100 }).tracking outcomeAfter) anyLabel restart
      (restart ({}, .never)) c ∧ resumesAfter .stopped c = true) ∧
    ∃ c, Lives ((starting { pageSize := 100 }).tracking outcomeAfter) anyLabel restart
      (restart ({}, .never)) c ∧ resumesAfter .done c = true := by
  constructor
  · exact lives_of_relive_test (g := fun _ _ => true)
      [firstPage ++ stopOzon ++ steps 1 7, steps 0 5] _ (fun _ _ _ => trivial) (by decide)
  · exact lives_of_relive_test (g := fun _ _ => true)
      [firstPage ++ steps 1 7 ++ stopOzon, steps 0 5] _ (fun _ _ _ => trivial) (by decide)

theorem resumed_after_unfinished_interrupted :
    ∃ c : State, c.procs[0]? = some (.resumed .claimRunning) ∧ c.shared.2 ≠ .done ∧
      c.shared.2 ≠ .stopped := by
  obtain ⟨c, lives, test⟩ : ∃ c, Lives ((starting { pageSize := 100 }).tracking outcomeAfter) Spared
      restart (restart ({}, .never)) c ∧ resumesAfter .unfinished c = true :=
    lives_of_relive_test (g := fun c l => decide (Spared c l)) [firstPage, steps 0 5] _
      (fun _ _ => of_decide_eq_true) (by decide)
  have starts := (of_decide_eq_true test).1
  exact ⟨c, starts, resumed_after_unfinished { pageSize := 100 } {} rfl c 0 lives starts⟩

end Sample

end Scand.Ozon.AutoResume
