/- path: Scand/InventoryPull/Commits
   layer: results
   digest: An older inventory pull commits nothing over a newer one, as long as every commit is made
   under the current generation. -/

import Scand.InventoryPull.Silence

set_option autoImplicit false
set_option relaxedAutoImplicit false

namespace Scand.InventoryPull.Commits

open Scand.Foundation.Interleaving
open Scand.Inventory.Database
open Scand.InventoryPull.Jobs
open Scand.InventoryPull.Silence (jobOf jobs_shows)

def committing : Pc → Option Job
  | .commitCatalog job _ | .importRequest job _ => some job
  | _ => none

/-- A job commits while its generation is still the current one. -/
def CommitsCurrent (c : Config Shared Pc) : Label Pc Reply → Prop
  | .spawn _ => True
  | .act i _ => ∀ pc ∈ c.procs[i]?, ∀ job ∈ committing pc, job.generation = c.shared.generation

section Steps

variable {env : Env} {i : Nat} {s s' : Shared} {pc pc' : Pc} {r : Reply}

theorem jobOf_committing {job : Job} (commits : committing pc = some job) :
    jobOf pc = some job := by
  cases pc <;> cases commits <;> rfl

private theorem request_db (stepped : requestStep s pc r = some (s', pc')) : s'.db = s.db := by
  cases pc <;> simp only [requestStep, Option.some.injEq, Prod.mk.injEq, reduceCtorEq] at stepped
  all_goals
    obtain ⟨rfl, -⟩ := stepped
    rfl

private theorem emit_db (stepped : emitStep env s pc = some (s', pc')) : s'.db = s.db := by
  cases pc <;> simp only [emitStep, Option.some.injEq, Prod.mk.injEq, reduceCtorEq] at stepped
  all_goals
    obtain ⟨rfl, -⟩ := stepped
    rfl

private theorem worker_db (stepped : workerStep env s pc r = some (s', pc'))
    (apart : committing pc = none) : s'.db = s.db := by
  cases pc <;> simp only [workerStep, Option.some.injEq, Prod.mk.injEq, reduceCtorEq] at stepped
  case commitCatalog job change => cases apart
  case importRequest job req => cases apart
  all_goals
    obtain ⟨rfl, -⟩ := stepped
    rfl

private theorem reset_db (stepped : resetStep s pc r = some (s', pc')) : s'.db = s.db := by
  cases pc <;> simp only [resetStep, Option.some.injEq, Prod.mk.injEq, reduceCtorEq] at stepped
  all_goals
    obtain ⟨rfl, -⟩ := stepped
    rfl

theorem jobs_db (stepped : (jobs env).step i s pc r = some (s', pc'))
    (apart : committing pc = none) : s'.db = s.db := by
  rcases jobs_step stepped with request | emitted | worked | reset
  · exact request_db request
  · exact emit_db emitted
  · exact worker_db worked apart
  · exact reset_db reset

end Steps

theorem generation_le {env : Env} {G : Config Shared Pc → Label Pc Reply → Prop}
    {c d : Config Shared Pc} (reach : Reach (jobs env) G c d) :
    c.shared.generation ≤ d.shared.generation := by
  induction reach with
  | refl => exact le_refl _
  | step _ _ next grown =>
      rcases next_cases next with ⟨_, _, _, rfl⟩ | ⟨_, _, _, _, _, _, _, stepped, rfl⟩
      · exact grown
      · exact grown.trans (jobs_shows stepped).generation

/-- In every run whose commits are current: after a job of generation `g` has made a commit, no step of
a job of a smaller generation changes a row of the database. -/
theorem older_jobs_commit_nothing (env : Env) (c d e : Config Shared Pc) (i : Nat) (r : Reply)
    (pc : Pc) (job : Job) (at_i : c.procs[i]? = some pc) (commits : committing pc = some job)
    (guard : CommitsCurrent c (.act i r)) (next : (jobs env).next c (.act i r) = some d)
    (after : Reach (jobs env) CommitsCurrent d e) :
    ∀ j r' q older e', e.procs[j]? = some q → jobOf q = some older →
      older.generation < job.generation → CommitsCurrent e (.act j r') →
      (jobs env).next e (.act j r') = some e' → e'.shared.db = e.shared.db := by
  intro j r' q older e' at_j owner smaller guard' next'
  have committed : job.generation = c.shared.generation := guard pc at_i job commits
  have grown : c.shared.generation ≤ e.shared.generation :=
    (generation_le (G := anyLabel) (.step .refl trivial next)).trans (generation_le after)
  obtain ⟨q', s, _, at_j', stepped, rfl⟩ := next_act next'
  obtain rfl : q = q' := Option.some.inj (at_j.symm.trans at_j')
  have apart : committing q = none := by
    rw [Option.eq_none_iff_forall_ne_some]
    intro writer writes
    have current := guard' q at_j writer writes
    obtain rfl : writer = older :=
      Option.some.inj ((jobOf_committing writes).symm.trans owner)
    omega
  exact jobs_db stepped apart

section Sample

open Scand.InventoryPull.SingleJob (sampleEnv CallsSucceed steps)

def catalogRow (name : String) (measuredAt : Int) : CatalogRow where
  tenantId := 1
  code := "0001"
  article := none
  name := some name
  refKey := "sku-1"
  measuredAt := measuredAt

def replaceCatalog (row : CatalogRow) (db : InventoryDb) : InventoryDb :=
  { db with
    products := { rows := [row], unique := by simp }
    products_ref_unique := by simp }

def catalogReply (name : String) (measuredAt : Int) : Reply where
  catalog := { outcome := .ok ({ accepted := 1 }, replaceCatalog (catalogRow name measuredAt)) }

/-- Both jobs have read their catalogue, the first one before the second; the second has come to its
commit. -/
def twoPulls : List (Label Pc Reply) :=
  .spawn (.takeGeneration {}) :: steps 0 10 1 ++ .act 0 (catalogReply "Old" 1) ::
    .spawn (.takeGeneration {}) :: steps 1 10 2 ++ [.act 1 (catalogReply "New" 2)]

def names (s : Shared) : List (Option String) := s.db.products.rows.map CatalogRow.name

/-- The newer job commits its catalogue, and the older one replaces it by what it read before. -/
theorem older_catalog_committed :
    ∃ c d e pc q job older, Reach (jobs sampleEnv) CallsSucceed ⟨{}, []⟩ c ∧
      c.procs[1]? = some pc ∧ committing pc = some job ∧
      (jobs sampleEnv).next c (.act 1 {}) = some d ∧ names d.shared = [some "New"] ∧
      d.procs[0]? = some q ∧ jobOf q = some older ∧ older.generation < job.generation ∧
      (jobs sampleEnv).next d (.act 0 {}) = some e ∧ names e.shared = [some "Old"] := by
  obtain ⟨c, d, reach, next, test⟩ := reach_next_of_run_test (M := jobs sampleEnv)
    (G := CallsSucceed) (g := fun c l => decide (CallsSucceed c l)) (c := ⟨{}, []⟩)
    twoPulls (.act 1 {})
    (fun c d => (c.procs[1]?.any fun pc => (committing pc).any fun job =>
        d.procs[0]?.any fun q => (jobOf q).any fun older => older.generation < job.generation) &&
      decide (names d.shared = [some "New"]) &&
      ((jobs sampleEnv).next d (.act 0 {})).any fun e => names e.shared = [some "Old"])
    (fun _ _ => of_decide_eq_true) (by decide)
  simp only [Bool.and_eq_true, Option.any_eq_true, decide_eq_true_eq] at test
  obtain ⟨⟨⟨pc, at_pc, job, commits, q, at_q, older, owner, smaller⟩, newer⟩, e, changed, old⟩ :=
    test
  exact ⟨c, d, e, pc, q, job, older, reach, at_pc, commits, next, newer, at_q, owner, smaller,
    changed, old⟩

theorem older_jobs_commit_nothing_reading :
    ∃ d e : Config Shared Pc, names d.shared = [some "New"] ∧ e.shared.db = d.shared.db := by
  obtain ⟨c, d, reach, next, test⟩ := reach_next_of_run_test (M := jobs sampleEnv)
    (G := CallsSucceed) (g := fun c l => decide (CallsSucceed c l)) (c := ⟨{}, []⟩)
    (.spawn (.takeGeneration {}) :: steps 0 10 1 ++ .spawn (.takeGeneration {}) :: steps 1 10 2 ++
      [.act 1 (catalogReply "New" 2)]) (.act 1 {})
    (fun c d => (c.procs[1]?.any fun pc => (committing pc).any fun job =>
        decide (job.generation = c.shared.generation) &&
        d.procs[0]?.any fun q => (jobOf q).any fun older =>
          older.generation < job.generation && (committing q).isNone) &&
      decide (names d.shared = [some "New"]) &&
      ((jobs sampleEnv).next d (.act 0 (catalogReply "Old" 1))).isSome)
    (fun _ _ => of_decide_eq_true) (by decide)
  simp only [Bool.and_eq_true, Option.any_eq_true, decide_eq_true_eq] at test
  obtain ⟨⟨⟨pc, at_pc, job, commits, current, q, at_q, older, owner, smaller, reading⟩, newer⟩,
    moved⟩ := test
  obtain ⟨e, next'⟩ := Option.isSome_iff_exists.mp moved
  refine ⟨d, e, newer, older_jobs_commit_nothing sampleEnv c d d 1 {} pc job at_pc commits ?_ next
    .refl 0 _ q older e at_q owner smaller ?_ next'⟩
  · intro pc' at_pc' job' commits'
    obtain rfl : pc = pc' := Option.some.inj (at_pc.symm.trans at_pc')
    obtain rfl : job = job' := Option.some.inj (commits.symm.trans commits')
    exact current
  · intro q' at_q' job' commits'
    obtain rfl : q = q' := Option.some.inj (at_q.symm.trans at_q')
    rw [Option.isNone_iff_eq_none.mp reading] at commits'
    cases commits'

end Sample

end Scand.InventoryPull.Commits
