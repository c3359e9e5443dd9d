/- path: Scand/Inventory/Reimport
   layer: results
   digest: What a second import under the batch id of an imported snapshot answers, after any further
   imports. -/

import Scand.Inventory.CanonicalForm
import Scand.Inventory.NextImport

set_option autoImplicit false
set_option relaxedAutoImplicit false

namespace Scand.Inventory.Reimport

open Scand.Foundation.JsonValue (Json)
open Scand.Foundation.KeyedTable
open Scand.Inventory.Database
open Scand.Inventory.Snapshot
open Scand.Inventory.ImportSnapshot
open Scand.Inventory.CanonicalForm

/-- The checks that a request has to pass before the database is asked. -/
structure EntryChecked (req : SnapshotRequest) : Prop where
  content : (req.stocks.isEmpty && req.costs.isEmpty) = false
  batch : (req.batchId.isEmpty || req.batchId.utf8ByteSize > 128) = false
  measured : req.measuredAt.isEmpty = false

def CollisionFree (pf : Platform) (values : List Json) : Prop :=
  ∀ a ∈ values, ∀ b ∈ values, pf.sha256Hex a = pf.sha256Hex b → a = b

def importCalls (pf : Platform) (calls : List (Int × SnapshotRequest)) (db : InventoryDb) :
    InventoryDb :=
  calls.foldl (fun db call => (importSnapshot pf call.1 call.2 db).db) db

def duplicateOf (req : SnapshotRequest) : Result ImportResult :=
  .success { status := .duplicate, batchId := req.batchId }

section OneCall

variable {pf : Platform} {tenantId : Int} {req : SnapshotRequest} {db u : InventoryDb}

theorem importSnapshot_failed (failed : (importSnapshot pf tenantId req db).result.ok = false) :
    (importSnapshot pf tenantId req db).db = db := by
  rcases importSnapshot_cases pf tenantId req db with ⟨same, -⟩ | ⟨u, -, -, value⟩
  · exact same
  · rw [Result.ok, value] at failed
    cases failed

theorem entryChecked_of_ok (passed : (importSnapshot pf tenantId req db).result.ok = true) :
    EntryChecked req := by
  unfold importSnapshot at passed
  split at passed
  · cases passed
  · rename_i content
    split at passed
    · cases passed
    · rename_i batch
      split at passed
      · cases passed
      · rename_i measured
        exact ⟨by simpa using content, by simpa using batch, by simpa using measured⟩

theorem importSnapshot_known (pf : Platform) {hash : String}
    (known : existingHash tenantId db req.batchId = some hash) :
    (importSnapshot pf tenantId req db).db = db ∧
      (EntryChecked req ∧ hash = pf.sha256Hex (canonicalJson req) →
        (importSnapshot pf tenantId req db).result = duplicateOf req) ∧
      (¬ (EntryChecked req ∧ hash = pf.sha256Hex (canonicalJson req)) →
        (importSnapshot pf tenantId req db).result.ok = false) := by
  by_cases checked : EntryChecked req
  · obtain ⟨content, batch, measured⟩ := id checked
    rw [importSnapshot, content, batch, measured, known]
    simp only [Bool.false_eq_true, if_false, checked, true_and]
    by_cases same : hash = pf.sha256Hex (canonicalJson req)
    · simp [same, duplicateOf]
    · simp [same, Result.failure, Result.ok]
  · have failed : (importSnapshot pf tenantId req db).result.ok = false := by
      rw [← Bool.not_eq_true]
      exact fun passed => checked (entryChecked_of_ok passed)
    exact ⟨importSnapshot_failed failed, fun given => absurd given.1 checked, fun _ => failed⟩

theorem existingHash_eq_some {batchId hash : String} :
    existingHash tenantId db batchId = some hash ↔
      ∃ row ∈ db.snapshots.rows, row.key = (tenantId, batchId) ∧ row.payloadHash = hash := by
  simp only [existingHash, Option.map_eq_some_iff, Table.find?_key_eq_some, and_assoc]

theorem importStatements_snapshots {payloadHash : String}
    (done : importStatements pf tenantId req payloadHash db = .ok u) :
    ∃ row, row.key = (tenantId, req.batchId) ∧ row.payloadHash = payloadHash ∧
      u.snapshots.rows = db.snapshots.rows ++ [row] := by
  obtain ⟨u₁, warehouses, done⟩ := bind_ok done
  obtain ⟨u₂, stocks, done⟩ := bind_ok done
  obtain ⟨u₃, costs, done⟩ := bind_ok done
  have kept : u₃.snapshots = db.snapshots := by
    rw [(writeCosts_pricesOnly costs).snapshots, (writeStocks_rows stocks).2.1,
      (writeWarehouses_frame warehouses).2.1]
    rfl
  obtain ⟨measuredAt, -, done⟩ := bind_ok done
  obtain ⟨_, -, done⟩ := bind_ok done
  obtain ⟨_, -, done⟩ := bind_ok done
  unfold InventoryDb.insertSnapshot at done
  split at done
  · cases done
  · rename_i t inserted
    cases done
    obtain ⟨-, rows⟩ := Table.insert_rows inserted
    rw [kept] at rows
    exact ⟨_, rfl, rfl, rows⟩

theorem snapshots_kept {row : SnapshotRow} (mem : row ∈ db.snapshots.rows) :
    row ∈ (importSnapshot pf tenantId req db).db.snapshots.rows := by
  rcases importSnapshot_cases pf tenantId req db with ⟨same, -⟩ | ⟨u, done, after, -⟩
  · rw [same]
    exact mem
  · obtain ⟨_, -, -, rows⟩ := importStatements_snapshots done
    rw [after, rows]
    exact List.mem_append_left _ mem

theorem snapshot_of_imported
    (imported : (importSnapshot pf tenantId req db).result.value.map ImportResult.status =
      some .imported) :
    ∃ row ∈ (importSnapshot pf tenantId req db).db.snapshots.rows,
      row.key = (tenantId, req.batchId) ∧ row.payloadHash = pf.sha256Hex (canonicalJson req) := by
  rcases importSnapshot_cases pf tenantId req db with ⟨-, other⟩ | ⟨u, done, after, -⟩
  · exact absurd imported other
  · obtain ⟨row, key, hash, rows⟩ := importStatements_snapshots done
    rw [after, rows]
    exact ⟨row, List.mem_append_right _ List.mem_cons_self, key, hash⟩

theorem snapshots_kept_importCalls (calls : List (Int × SnapshotRequest)) {row : SnapshotRow}
    (mem : row ∈ db.snapshots.rows) : row ∈ (importCalls pf calls db).snapshots.rows := by
  induction calls generalizing db with
  | nil => exact mem
  | cons call calls ih => exact ih (snapshots_kept mem)

theorem EntryChecked.of_sameContent {r r' : SnapshotRequest} (checked : EntryChecked r)
    (same : SameContent r r') : EntryChecked r' where
  content := by
    have stocks := same.stocks.length_eq
    have costs := same.costs.length_eq
    have given := checked.content
    rw [List.length_map, List.length_map] at stocks costs
    simp only [Bool.and_eq_false_iff, List.isEmpty_eq_false_iff, ← List.length_pos_iff] at given ⊢
    omega
  batch := same.batchId ▸ checked.batch
  measured := same.measuredAt ▸ checked.measured

end OneCall

section LaterCalls

variable {pf : Platform} {tenantId : Int} {db : InventoryDb} {r r' : SnapshotRequest}

theorem known_after (imported : (importSnapshot pf tenantId r db).result.value.map
      ImportResult.status = some .imported) (calls : List (Int × SnapshotRequest)) :
    existingHash tenantId (importCalls pf calls (importSnapshot pf tenantId r db).db) r.batchId =
      some (pf.sha256Hex (canonicalJson r)) := by
  obtain ⟨row, mem, key, hash⟩ := snapshot_of_imported imported
  exact existingHash_eq_some.mpr ⟨row, snapshots_kept_importCalls calls mem, key, hash⟩

theorem duplicate_of_canonicalJson (imported : (importSnapshot pf tenantId r db).result.value.map
      ImportResult.status = some .imported) (calls : List (Int × SnapshotRequest))
    (same : canonicalJson r = canonicalJson r') :
    (importSnapshot pf tenantId r' (importCalls pf calls
        (importSnapshot pf tenantId r db).db)).result = duplicateOf r ∧
      (importSnapshot pf tenantId r' (importCalls pf calls
        (importSnapshot pf tenantId r db).db)).db =
        importCalls pf calls (importSnapshot pf tenantId r db).db := by
  have content := sameContent_of_canonicalJson same
  have known := known_after imported calls
  rw [content.batchId] at known
  obtain ⟨unchanged, duplicate, -⟩ := importSnapshot_known pf known
  have passed : (importSnapshot pf tenantId r db).result.ok = true := by
    obtain ⟨value, given, -⟩ := Option.map_eq_some_iff.mp imported
    rw [Result.ok, given]
    rfl
  have answer := duplicate ⟨(entryChecked_of_ok passed).of_sameContent content, by rw [same]⟩
  refine ⟨?_, unchanged⟩
  rw [answer, duplicateOf, duplicateOf, content.batchId]

end LaterCalls

/-- An import is idempotent: once a request with distinct keys was imported, a request of the same
content is answered as a duplicate after any further calls, one of the same batch and any other content
fails, and neither these nor any other failure changes a table. -/
theorem reimport_idempotent (pf : Platform) (tenantId : Int) (db : InventoryDb)
    (r r' : SnapshotRequest) (calls : List (Int × SnapshotRequest)) (distinct : DistinctKeys r)
    (imported : (importSnapshot pf tenantId r db).result.value.map ImportResult.status =
      some .imported)
    (collisionFree : CollisionFree pf [canonicalJson r, canonicalJson r'])
    (later : InventoryDb)
    (after : later = importCalls pf calls (importSnapshot pf tenantId r db).db) :
    (SameContent r r' → (importSnapshot pf tenantId r' later).result = duplicateOf r ∧
        (importSnapshot pf tenantId r' later).db = later) ∧
      (r'.batchId = r.batchId → ¬ SameContent r r' →
        (importSnapshot pf tenantId r' later).result.ok = false ∧
          (importSnapshot pf tenantId r' later).db = later) ∧
      ∀ tenant req any, (importSnapshot pf tenant req any).result.ok = false →
        (importSnapshot pf tenant req any).db = any := by
  subst after
  refine ⟨?_, ?_, fun _ _ _ => importSnapshot_failed⟩
  · intro content
    exact duplicate_of_canonicalJson imported calls ((canonicalJson_eq_iff distinct).mpr content)
  · intro same_batch other
    have known := known_after imported calls
    rw [← same_batch] at known
    obtain ⟨unchanged, -, failed⟩ := importSnapshot_known pf known
    refine ⟨failed ?_, unchanged⟩
    intro given
    have same := collisionFree _ (by simp) _ (by simp) given.2
    exact other ((canonicalJson_eq_iff distinct).mp same)

section Sample

open Scand.Inventory.NextImport (samplePlatform firstRequest otherRequest)

def firstAgain : SnapshotRequest :=
  { firstRequest with
    stocks := [{ sku1c := "sku-1", offerId := some "", warehouseId := "wh-1",
                 warehouseName := some "Main", available := 5 }] }

private theorem firstAgain_same : SameContent firstRequest firstAgain where
  batchId := rfl
  measuredAt := rfl
  mode := rfl
  stocks := .of_eq (by decide)
  warehouses := .refl _
  costs := .refl _

private theorem first_distinct : DistinctKeys firstRequest where
  stocks := by decide
  warehouses := by decide
  costs := by decide

theorem reimport_idempotent_again :
    (importSnapshot samplePlatform 1 firstAgain (importCalls samplePlatform [(1, otherRequest)]
      (importSnapshot samplePlatform 1 firstRequest .empty).db)).result =
        duplicateOf firstRequest := by
  have equal : canonicalJson firstRequest = canonicalJson firstAgain :=
    (canonicalJson_eq_iff first_distinct).mpr firstAgain_same
  refine ((reimport_idempotent samplePlatform 1 .empty firstRequest firstAgain [(1, otherRequest)]
    first_distinct (by decide) ?_ _ rfl).1 firstAgain_same).1
  intro a in_a b in_b _
  rw [← equal] at in_a in_b
  simp only [List.mem_cons, List.not_mem_nil, or_false, or_self] at in_a in_b
  rw [in_a, in_b]

end Sample

end Scand.Inventory.Reimport
