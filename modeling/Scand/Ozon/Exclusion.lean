/- path: Scand/Ozon/Exclusion
   layer: results
   digest: At most one Ozon run is queued or executing, as long as no reset releases a claimed run. -/

import Scand.Ozon.Service

set_option autoImplicit false
set_option relaxedAutoImplicit false

namespace Scand.Ozon.Exclusion

open Scand.Foundation.Interleaving
open Scand.Ozon.Service

/-- The call has a run that is queued or executing. -/
def executing : Pc → Bool
  | .queued | .readStore | .loadCheckpoint | .saveRunning _ | .checkStop _ | .fetchPage _
  | .saveRetry _ | .sendRetry _ | .saveFailed _ | .sendFailed _ | .sendTotal _ _ | .fetchInfo _ _
  | .fetchPrices _ _ _ | .upsertPage _ _ _ | .setStore _ _ | .saveCheckpoint _ _
  | .sendRunning _ _ | .checkStopAtEnd _ | .saveDone _ | .sendDone _ | .readDoneJob _
  | .finishJob _ _ | .markStopped | .notifyStopped | .readJobToFail _ | .failJob _ _
  | .releaseRunning => true
  | _ => false

/-- The call has claimed `ozon_running_` and not yet released it. -/
def claims : Pc → Bool
  | .clearStop | .startJob | .abandonOld _ | .insertJob _ | .submit | .releaseRefused => true
  | pc => executing pc

/-- No reset stores `false` into `ozon_running_` while the flag is set. -/
def ResetWhenIdle (c : Config Shared Pc) (l : Label Pc Reply) : Prop :=
  ∀ i r, l = .act i r → c.procs[i]? = some .resetRunning → c.shared.ozonRunning = false

theorem claims_of_executing {pc : Pc} (h : executing pc = true) : claims pc = true := by
  cases pc <;> first | rfl | exact h

section Steps

variable {conf : Conf} {i : Nat} {s s' : Shared} {pc pc' : Pc} {r : Reply}

private theorem afterListing_claims (v : RunVars) (page) : claims (afterListing v page) = true := by
  unfold afterListing
  split <;> rfl

private theorem trigger_balanced (held : claims pc = true → s.ozonRunning = true)
    (stepped : triggerStep i s pc r = some (s', pc')) :
    TokenBalanced Shared.ozonRunning claims s pc s' pc' := by
  unfold TokenBalanced
  cases pc <;> simp only [triggerStep, Option.some.injEq, Prod.mk.injEq, reduceCtorEq] at stepped
  case claimRunning =>
    split at stepped
    · rename_i taken
      cases stepped
      simp [claims, executing, taken]
    · rename_i idle
      cases stepped
      simp [claims, executing, idle]
  case submit =>
    split at stepped
    · cases stepped
      simp [claims, executing]
    · cases stepped
      simp [claims]
  case releaseRefused =>
    obtain ⟨rfl, rfl⟩ := stepped
    simp [claims, executing, held rfl]
  all_goals
    obtain ⟨rfl, rfl⟩ := stepped
    try split
    all_goals simp [claims, executing, resetCheckpoint, updateRuns]

private theorem run_balanced (held : claims pc = true → s.ozonRunning = true)
    (stepped : runStep conf i s pc r = some (s', pc')) :
    TokenBalanced Shared.ozonRunning claims s pc s' pc' := by
  unfold TokenBalanced
  cases pc <;> simp only [runStep, Option.some.injEq, Prod.mk.injEq, reduceCtorEq] at stepped
  case queued =>
    split at stepped
    · split at stepped
      · cases stepped
        simp [claims, executing]
      · cases stepped
    · cases stepped
  case releaseRunning =>
    obtain ⟨rfl, rfl⟩ := stepped
    simp [claims, executing, held rfl]
  case fetchPage v =>
    split at stepped
    · cases stepped
      simp [claims, executing]
    · split at stepped
      · cases stepped
        simp [claims, executing]
      · cases stepped
        rw [afterListing_claims]
        simp [claims, executing]
  case sendTotal v page =>
    obtain ⟨rfl, rfl⟩ := stepped
    rw [afterListing_claims]
    simp [claims, executing, sendProgress]
  all_goals
    obtain ⟨rfl, rfl⟩ := stepped
    try split
    all_goals simp [claims, executing, Service.saveCheckpoint, sendProgress, upsertProducts,
      updateRuns]

private theorem control_balanced (idle : pc = .resetRunning → s.ozonRunning = false)
    (stepped : controlStep s pc r = some (s', pc')) :
    TokenBalanced Shared.ozonRunning claims s pc s' pc' := by
  unfold TokenBalanced
  cases pc <;> simp only [controlStep, Option.some.injEq, Prod.mk.injEq, reduceCtorEq] at stepped
  case requestShutdown =>
    split at stepped
    · cases stepped
      simp [claims, executing]
    · cases stepped
      simp [claims, executing]
  case resetRunning =>
    obtain ⟨rfl, rfl⟩ := stepped
    simp [claims, executing, idle rfl]
  all_goals
    obtain ⟨rfl, rfl⟩ := stepped
    try split
    all_goals simp [claims, executing, updateCheckpointStatus, updateRuns]

theorem step_balanced (held : claims pc = true → s.ozonRunning = true)
    (idle : pc = .resetRunning → s.ozonRunning = false)
    (stepped : (service conf).step i s pc r = some (s', pc')) :
    TokenBalanced Shared.ozonRunning claims s pc s' pc' := by
  rcases service_step stepped with trigger | run | control
  · exact trigger_balanced held trigger
  · exact run_balanced held run
  · exact control_balanced idle control

end Steps

theorem claims_next {conf : Conf} {c d : Config Shared Pc} {l : Label Pc Reply}
    (count : TokenCount Shared.ozonRunning claims c) (guard : ResetWhenIdle c l)
    (next : (service conf).next c l = some d) : TokenCount Shared.ozonRunning claims d := by
  refine count.next next (fun pc entry => ?_) fun i r pc s pc' label at_i stepped => ?_
  · cases pc <;> first | rfl | cases entry
  · exact step_balanced (count.held at_i) (fun reset => guard i r label (reset ▸ at_i)) stepped

theorem claims_reach {conf : Conf} {s₀ : Shared} (idle : s₀.ozonRunning = false)
    {c : Config Shared Pc} (reach : Reach (service conf) ResetWhenIdle ⟨s₀, []⟩ c) :
    TokenCount Shared.ozonRunning claims c :=
  reach.invariant (by simp [TokenCount, idle]) fun _ _ _ count guard next =>
    claims_next count guard next

/-- In every run in which resets meet an idle service, at most one Ozon run is queued or executing
in every state reached. -/
theorem ozon_run_exclusive (conf : Conf) (s₀ : Shared) (idle : s₀.ozonRunning = false)
    (c : Config Shared Pc) (reach : Reach (service conf) ResetWhenIdle ⟨s₀, []⟩ c) :
    c.procs.countP executing ≤ 1 := by
  calc c.procs.countP executing
      ≤ c.procs.countP claims := List.countP_mono_left fun _ _ => claims_of_executing
    _ = c.shared.ozonRunning.toNat := claims_reach idle reach
    _ ≤ 1 := Bool.toNat_le _

section Sample

def steps (i n : Nat) (r : Reply) : List (Label Pc Reply) := List.replicate n (.act i r)

/-- A trigger up to the start of its run, a reset up to its store into the flag, and a second
trigger up to its submission. -/
def resetDuringRun : List (Label Pc Reply) :=
  .spawn .checkShutdown :: steps 0 8 { micros := 1 } ++
    .spawn .resetPullRuns :: steps 1 5 {} ++
    .spawn .checkShutdown :: steps 2 7 { micros := 2 }

/-- A reset during a run lets a second one be queued next to it. -/
theorem two_runs_after_reset :
    ∃ c, Reach (service { pageSize := 100 }) anyLabel ⟨{}, []⟩ c ∧
      decide (c.procs.countP executing = 2) = true :=
  reach_of_run_test (g := fun _ _ => true) resetDuringRun _ (fun _ _ _ => trivial) (by decide)

theorem ozon_run_exclusive_after_reset :
    ∃ c, Reach (service { pageSize := 100 }) ResetWhenIdle ⟨{}, []⟩ c ∧
      decide (c.procs.countP executing = 1) = true ∧ c.procs.countP executing ≤ 1 := by
  obtain ⟨c, reach, one⟩ := reach_of_run_test (M := service { pageSize := 100 })
    (G := ResetWhenIdle) (c := ⟨{}, []⟩)
    (g := fun c l => match l with
      | .act i _ => decide (c.procs[i]? = some .resetRunning → c.shared.ozonRunning = false)
      | .spawn _ => true)
    (.spawn .resetPullRuns :: steps 0 5 {} ++ .spawn .checkShutdown :: steps 1 8 {})
    (fun c => decide (c.procs.countP executing = 1))
    (fun c l passed i r label at_i => by
      subst label
      exact of_decide_eq_true passed at_i)
    (by decide)
  exact ⟨c, reach, one, ozon_run_exclusive { pageSize := 100 } {} rfl c reach⟩

end Sample

end Scand.Ozon.Exclusion
