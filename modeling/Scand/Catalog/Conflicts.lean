/- path: Scand/Catalog/Conflicts
   layer: results
   digest: The conflicts that pull_onec_product_catalog returns are rows with a repeated code: they are
   as many as the dropped codes exactly where the surplus rows make up for the codes that come once. -/

import Scand.Catalog.LastRows
import Scand.Catalog.LinkTables
import Mathlib.Algebra.BigOperators.Group.Finset.Piecewise

set_option autoImplicit false
set_option relaxedAutoImplicit false

namespace Scand.Catalog.Conflicts

open Scand.Catalog.Database
open Scand.Catalog.LastRows
open Scand.Catalog.LinkTables
open Scand.Catalog.Normalize
open Scand.Catalog.Paging
open Scand.Catalog.Pull
open Scand.Catalog.Replacement
open Scand.Foundation.JsonValue
open Scand.Foundation.Transaction

def rowCode : List String → Option String
  | code :: _ :: _ :: _ :: _ => some code
  | _ => none

def codes (rows : List (List String)) : List String := rows.filterMap rowCode

/-- The filled codes that 1C returned and that none of the accepted records has. -/
def droppedCodes (rows : List (List String)) (measuredAt : String) : Finset String :=
  (codes rows).toFinset.filter fun code => code ≠ "" ∧
    code ∉ (normalizeOnecProductCatalog rows measuredAt).map OneCProductRecord.code

/-- A filled code that no reference has in its last row, or several references have. -/
def Unkept (rows : List (List String)) (code : String) : Prop :=
  code ≠ "" ∧ ¬ ∃ article name refKey, LastRow rows code article name refKey ∧ Sole rows code refKey

open Classical in
/-- The rows too many: of an unkept code those after the second, of any other those after the first. -/
noncomputable def surplusRows (rows : List (List String)) : Nat :=
  ∑ code ∈ (codes rows).toFinset,
    if Unkept rows code then (codes rows).count code - 2 else (codes rows).count code - 1

open Classical in
/-- The unkept codes that a single row has. -/
noncomputable def singleCodes (rows : List (List String)) : Finset String :=
  (codes rows).toFinset.filter fun code => Unkept rows code ∧ (codes rows).count code = 1

section Counting

variable {rows : List (List String)}

/-- The loop over the rows counts what is not the first row of its code. -/
theorem countDropped_add (seen : List String) (rows : List (List String)) :
    countDropped seen rows + ((codes rows).toFinset \ seen.toFinset).card = (codes rows).length := by
  induction rows generalizing seen with
  | nil => simp [countDropped, codes]
  | cons row rest ih =>
      rcases row with _ | ⟨code, _ | ⟨article, _ | ⟨name, _ | ⟨refKey, more⟩⟩⟩⟩
      case cons.cons.cons.cons =>
        have here : codes ((code :: article :: name :: refKey :: more) :: rest) = code :: codes rest :=
          rfl
        rw [here, List.toFinset_cons, List.length_cons, countDropped]
        by_cases known : code ∈ seen
        · have tail := ih seen
          rw [if_pos known, Finset.insert_sdiff_of_mem _ (List.mem_toFinset.mpr known)]
          omega
        · have tail := ih (code :: seen)
          rw [if_neg known, Finset.insert_sdiff_of_notMem _ (by simpa using known)]
          rw [List.toFinset_cons] at tail
          have first : insert code ((codes rest).toFinset \ seen.toFinset) =
              insert code ((codes rest).toFinset \ insert code seen.toFinset) := by
            ext other
            simp only [Finset.mem_insert, Finset.mem_sdiff]
            tauto
          rw [first, Finset.card_insert_of_notMem (by simp)]
          omega
      all_goals exact ih seen

theorem countDropped_codes (rows : List (List String)) :
    countDropped [] rows + (codes rows).toFinset.card = (codes rows).length := by
  have counted := countDropped_add [] rows
  rw [List.toFinset_nil, Finset.sdiff_empty] at counted
  exact counted

theorem mem_droppedCodes_iff {measuredAt code : String} :
    code ∈ droppedCodes rows measuredAt ↔ code ∈ (codes rows).toFinset ∧ Unkept rows code := by
  rw [droppedCodes, Finset.mem_filter, Unkept]
  refine and_congr_right fun _ => and_congr_right fun _ => not_congr ?_
  constructor
  · intro accepted
    obtain ⟨rec, mem, rfl⟩ := List.mem_map.mp accepted
    obtain ⟨⟨last, -⟩, sole⟩ := mem_normalize_iff.mp mem
    exact ⟨rec.article, rec.name, rec.refKey, last, sole⟩
  · rintro ⟨article, name, refKey, last, sole⟩
    let rec' : OneCProductRecord := ⟨code, article, name, refKey, measuredAt⟩
    have accepted : rec' ∈ normalizeOnecProductCatalog rows measuredAt :=
      mem_normalize_iff.mpr ⟨⟨last, rfl⟩, sole⟩
    exact List.mem_map.mpr ⟨rec', accepted, rfl⟩

theorem count_balance (rows : List (List String)) (measuredAt : String) :
    countDropped [] rows + (singleCodes rows).card =
      surplusRows rows + (droppedCodes rows measuredAt).card := by
  classical
  have dropped : (droppedCodes rows measuredAt).card =
      ∑ code ∈ (codes rows).toFinset, if Unkept rows code then 1 else 0 := by
    rw [← Finset.card_filter]
    congr 1
    ext code
    rw [mem_droppedCodes_iff, Finset.mem_filter]
  have single : (singleCodes rows).card = ∑ code ∈ (codes rows).toFinset,
      if Unkept rows code ∧ (codes rows).count code = 1 then 1 else 0 := by
    rw [← Finset.card_filter, singleCodes]
  have sizes : (codes rows).length + (singleCodes rows).card =
      surplusRows rows + (droppedCodes rows measuredAt).card + (codes rows).toFinset.card := by
    rw [← List.sum_toFinset_count_eq_length, single, surplusRows, dropped, Finset.card_eq_sum_ones,
      ← Finset.sum_add_distrib, ← Finset.sum_add_distrib, ← Finset.sum_add_distrib]
    refine Finset.sum_congr rfl fun code mem => ?_
    have positive := List.count_pos_iff.mpr (List.mem_toFinset.mp mem)
    by_cases unkept : Unkept rows code
    · by_cases once : (codes rows).count code = 1
      · simp [unkept, once]
      · simp only [unkept, once, if_true, and_false, if_false]
        omega
    · simp only [unkept, false_and, if_false]
      omega
  have counted := countDropped_codes rows
  omega

end Counting

section Pulls

variable {env : Env} {cfg : Config} {server : Server} {tenantId : Int} {tx : Tx CatalogDb}
  {rows : List (List String)} {result : PullResult}

theorem conflicts_of_pull (read : readAllRows env cfg server = .ok rows)
    (done : (pullOnecProductCatalog env cfg server tenantId tx).outcome = .ok result) :
    result.conflicts = countDropped [] rows := by
  by_cases configured : cfg.complete = false
  · simp only [pullOnecProductCatalog, configured, if_true, reduceCtorEq] at done
  · rw [pullOnecProductCatalog, if_neg configured, read] at done
    simp only at done
    split at done
    · cases done
    · cases done
      rfl

theorem outcome_of_committed {ε : Type} {pull : Tx CatalogDb → Pulled ε} {db db' : CatalogDb}
    (done : committed pull db = some (result, db')) :
    (pull (Tx.opened db)).outcome = .ok result := by
  rw [committed] at done
  cases ended : (pull (Tx.opened db)).outcome with
  | error e => simp only [ended, reduceCtorEq] at done
  | ok returned =>
      simp only [ended] at done
      obtain ⟨stored, -, same⟩ := Option.map_eq_some_iff.mp done
      cases same
      rfl

end Pulls

/-- A pull returns as many conflicts as there are dropped codes exactly where the rows too many, each
of which is counted, are as many as the unkept codes in a single row, none of which is. -/
theorem conflicts_dropped_iff (env : Env) (cfg : Config) (server : Server) (tenantId : Int)
    (tx : Tx CatalogDb) (rows : List (List String)) (result : PullResult)
    (read : readAllRows env cfg server = .ok rows)
    (done : (pullOnecProductCatalog env cfg server tenantId tx).outcome = .ok result) :
    result.conflicts = (droppedCodes rows env.measuredAt).card ↔
      surplusRows rows = (singleCodes rows).card := by
  have balance := count_balance rows env.measuredAt
  rw [conflicts_of_pull read done]
  omega

section Sample

def doubledEntries : List Json := sampleEntries ++ sampleEntries

theorem doubled_readable :
    readAllRows sampleEnv sampleConfig (serving doubledEntries) = .ok (rawRows doubledEntries) := by
  rw [readAllRows_serving _ _ _ sample_address]
  rfl

theorem pull_returns {entries : List Json}
    (read : readAllRows sampleEnv sampleConfig (serving entries) = .ok (rawRows entries))
    (fits : ∀ rec ∈ normalizeOnecProductCatalog (rawRows entries) sampleEnv.measuredAt,
      Fits 64 rec.code ∧ Fits 128 rec.article ∧ Fits 512 rec.name) :
    ∃ result, (pullOnecProductCatalog sampleEnv sampleConfig (serving entries) 1
      (Tx.opened { oldDb with stocks := some .empty })).outcome = .ok result := by
  have linked : Linked { oldDb with stocks := some .empty } := fun table => by cases table <;> rfl
  obtain ⟨n, after, ran⟩ := replace_runs_iff.mpr ⟨linked, _, storable_of_fits _ _ fits⟩
  exact ⟨_, outcome_of_committed (committed_pull_iff.mpr ⟨by decide, _, read, n, ran, rfl⟩)⟩

/-- The only product is accepted, and its second row is counted as a conflict. -/
theorem repeated_product_counted : ∃ result,
    (pullOnecProductCatalog sampleEnv sampleConfig (serving doubledEntries) 1
      (Tx.opened { oldDb with stocks := some .empty })).outcome = .ok result ∧
    result.conflicts ≠ (droppedCodes (rawRows doubledEntries) sampleEnv.measuredAt).card := by
  obtain ⟨result, done⟩ := pull_returns doubled_readable (by unfold Fits; decide +kernel)
  have none_dropped : (droppedCodes (rawRows doubledEntries) sampleEnv.measuredAt).card = 0 := by
    decide +kernel
  refine ⟨result, done, ?_⟩
  rw [conflicts_of_pull doubled_readable done, none_dropped]
  decide

def clashingEntries : List Json := sampleEntries ++
  [.object [("Ref_Key", .string "7c9e6679-7425-40de-944b-e07fc1f90ae7"), ("Code", .string "00-1"),
    ("Артикул", .string "A-2"), ("Description", .string "Гайка"), ("DeletionMark", .bool false),
    ("IsFolder", .bool false)]]

theorem clashing_readable :
    readAllRows sampleEnv sampleConfig (serving clashingEntries) = .ok (rawRows clashingEntries) := by
  rw [readAllRows_serving _ _ _ sample_address]
  rfl

theorem conflicts_dropped_iff_clashing : ∃ result,
    (pullOnecProductCatalog sampleEnv sampleConfig (serving clashingEntries) 1
      (Tx.opened { oldDb with stocks := some .empty })).outcome = .ok result ∧
    result.conflicts = 1 ∧
    droppedCodes (rawRows clashingEntries) sampleEnv.measuredAt = {"00-1"} ∧
    surplusRows (rawRows clashingEntries) = (singleCodes (rawRows clashingEntries)).card := by
  obtain ⟨result, done⟩ := pull_returns clashing_readable (by unfold Fits; decide +kernel)
  have counted : result.conflicts = 1 := by
    rw [conflicts_of_pull clashing_readable done]
    decide
  have dropped : droppedCodes (rawRows clashingEntries) sampleEnv.measuredAt = {"00-1"} := by
    decide +kernel
  refine ⟨result, done, counted, dropped, ?_⟩
  refine (conflicts_dropped_iff sampleEnv sampleConfig (serving clashingEntries) 1
    (Tx.opened { oldDb with stocks := some .empty }) _ result clashing_readable done).mp ?_
  rw [counted, dropped, Finset.card_singleton]

end Sample

end Scand.Catalog.Conflicts
