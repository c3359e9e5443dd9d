/- path: Scand/Catalog/LinkTables
   layer: results
   digest: A catalogue pull is committed exactly when all link tables are there and the columns take
   its records: the handler of a missing table does not save the transaction. -/

import Scand.Catalog.Paging
import Scand.Catalog.Replacement

set_option autoImplicit false
set_option relaxedAutoImplicit false

namespace Scand.Catalog.LinkTables

open Scand.Catalog.Database
open Scand.Catalog.Normalize
open Scand.Catalog.Paging
open Scand.Catalog.Pull
open Scand.Catalog.Replacement
open Scand.Foundation.InternetAddress (Text)
open Scand.Foundation.JsonValue
open Scand.Foundation.KeyedTable
open Scand.Foundation.Transaction
open Scand.Inventory.Database

/-- The pull is committed with the rows of the records, and every link table that is there got its
codes from them. -/
def Stored (env : Env) (tenantId : Int) (rawRows : List (List String)) (db : CatalogDb)
    (done : Option (PullResult × CatalogDb)) : Prop :=
  ∃ result db' rows, done = some (result, db') ∧
    (normalizeOnecProductCatalog rawRows env.measuredAt).mapM (storedRow tenantId env.instant) =
      .ok rows ∧ Replaced tenantId rows db db'

def Fits (n : Nat) (s : String) : Prop := s.length ≤ n ∧ Char.ofNat 0 ∉ s.toList

section Columns

variable {tenantId instant : Int}

theorem varcharInput_fits {n : Nat} {s : String} (fits : Fits n s) : varcharInput n s = .ok s := by
  rw [varcharInput, if_neg fits.2, if_pos fits.1]

def exactRow (tenantId instant : Int) (rec : OneCProductRecord) : CatalogRow where
  tenantId := tenantId
  code := rec.code
  article := some rec.article
  name := some rec.name
  refKey := rec.refKey
  measuredAt := instant

theorem uuid_fits {s : String} (valid : isValidUuid s = true) : Fits 36 s := by
  simp only [isValidUuid, Bool.and_eq_true, decide_eq_true_eq, List.all_eq_true] at valid
  refine ⟨valid.1.le, fun nul => ?_⟩
  obtain ⟨i, bound, at_i⟩ := List.mem_iff_getElem.mp nul
  have listed : (Char.ofNat 0, i) ∈ s.toList.zipIdx :=
    List.mem_zipIdx_iff_getElem?.mpr (List.getElem?_eq_some_iff.mpr ⟨bound, at_i⟩)
  have no_dash : Char.ofNat 0 ≠ '-' := by decide
  have no_digit : isHexDigit (Char.ofNat 0) = false := by decide
  have checked := valid.2 _ listed
  dsimp only at checked
  split at checked
  · exact no_dash (of_decide_eq_true checked)
  · rw [no_digit] at checked
    cases checked

theorem storedRow_fits {rec : OneCProductRecord} (code : Fits 64 rec.code)
    (article : Fits 128 rec.article) (name : Fits 512 rec.name) (refKey : Fits 36 rec.refKey) :
    storedRow tenantId instant rec = .ok (exactRow tenantId instant rec) := by
  simp only [storedRow, varcharInput_fits code, varcharInput_fits article, varcharInput_fits name,
    varcharInput_fits refKey]
  rfl

theorem storable_of_fits (rawRows : List (List String)) (measuredAt : String)
    (fits : ∀ rec ∈ normalizeOnecProductCatalog rawRows measuredAt,
      Fits 64 rec.code ∧ Fits 128 rec.article ∧ Fits 512 rec.name) :
    Storable tenantId instant (normalizeOnecProductCatalog rawRows measuredAt)
      ((normalizeOnecProductCatalog rawRows measuredAt).map (exactRow tenantId instant)) := by
  refine ⟨mapM_ok_iff.mpr (List.forall₂_map_right_iff.mpr (List.forall₂_same.mpr ?_)), ?_, ?_⟩
  · intro rec mem
    obtain ⟨code, article, name⟩ := fits rec mem
    exact storedRow_fits code article name (uuid_fits (normalize_valid mem).2.1)
  · rw [List.map_map]
    exact normalize_codes_nodup rawRows measuredAt
  · rw [List.map_map]
    exact normalize_refs_nodup rawRows measuredAt

end Columns

/-- A pull of a readable catalogue, followed by the commit, stores the new products and fills the link
tables exactly if all three link tables are there and the columns take the records. -/
theorem stored_iff_linked (env : Env) (cfg : Config) (server : Server) (tenantId : Int)
    (db : CatalogDb) (rawRows : List (List String)) (configured : cfg.complete = true)
    (readable : readAllRows env cfg server = .ok rawRows) :
    Stored env tenantId rawRows db (committed (pullOnecProductCatalog env cfg server tenantId) db) ↔
      Linked db ∧ ∃ rows, Storable tenantId env.instant
        (normalizeOnecProductCatalog rawRows env.measuredAt) rows := by
  constructor
  · rintro ⟨result, db', rows, done, -, -⟩
    obtain ⟨-, read, same, n, ran, -⟩ := committed_pull_iff.mp done
    obtain rfl : rawRows = read := Except.ok.inj (readable.symm.trans same)
    exact replace_runs_iff.mp ⟨n, db', ran⟩
  · intro possible
    obtain ⟨n, db', ran⟩ := replace_runs_iff.mpr possible
    obtain ⟨-, rows, storable, replaced⟩ := replaced_of_runs ran
    exact ⟨_, db', rows, committed_pull_iff.mpr ⟨configured, rawRows, readable, n, ran, rfl⟩,
      storable.1, replaced⟩

section Sample

def firstJoined : Joining where
  pick _ products := products.head?
  pick_mem _ _ _ picked := List.mem_of_head? picked
  pick_isSome _ products some_joined := by
    cases products with
    | nil => exact absurd rfl some_joined
    | cons p rest => rfl

def sampleEnv : Env where
  resolve _ _ := none
  joining := firstJoined
  measuredAt := "2026-09-23T15:08:23Z"
  instant := 1790176103

def sampleConfig : Config where
  onecBaseUrl := "https://93.184.216.34/base"
  onecUser := "reader"
  onecPassword := "secret"

def sampleEntries : List Json :=
  [.object [("Ref_Key", .string "0f8fad5b-d9cb-469f-a165-70867728950e"), ("Code", .string "00-1"),
    ("Артикул", .string "A-1"), ("Description", .string "Болт"), ("DeletionMark", .bool false),
    ("IsFolder", .bool false)]]

theorem sample_address :
    publicationUrl sampleEnv sampleConfig = .ok (bytes "https://93.184.216.34/base/") := by
  rfl

theorem sample_readable :
    readAllRows sampleEnv sampleConfig (serving sampleEntries) = .ok (rawRows sampleEntries) := by
  rw [readAllRows_serving _ _ _ sample_address]
  rfl

theorem no_products_unique :
    ((.empty : Table CatalogRow CatalogRow.key).rows.map CatalogRow.refKeyOf).Nodup := List.nodup_nil

def oldDb : CatalogDb where
  products := .empty
  products_ref_unique := no_products_unique
  stocks := none
  costBatch := some .empty
  costSupplier := some .empty

/-- The table `inventory1c_stocks` is missing: nothing of a readable catalogue is stored. -/
theorem missing_stocks_rollback :
    readAllRows sampleEnv sampleConfig (serving sampleEntries) = .ok (rawRows sampleEntries) ∧
      committed (pullOnecProductCatalog sampleEnv sampleConfig (serving sampleEntries) 1) oldDb =
        none := by
  refine ⟨sample_readable, ?_⟩
  cases done : committed (pullOnecProductCatalog sampleEnv sampleConfig (serving sampleEntries) 1)
      oldDb with
  | none => rfl
  | some stored =>
      obtain ⟨result, db'⟩ := stored
      obtain ⟨-, rows, -, n, ran, -⟩ := committed_pull_iff.mp done
      have linked := (replaced_of_runs ran).1 .inventory1cStocks
      cases linked

theorem stored_iff_linked_sample :
    Stored sampleEnv 1 (rawRows sampleEntries) { oldDb with stocks := some .empty }
      (committed (pullOnecProductCatalog sampleEnv sampleConfig (serving sampleEntries) 1)
        { oldDb with stocks := some .empty }) := by
  refine (stored_iff_linked sampleEnv sampleConfig (serving sampleEntries) 1
    { oldDb with stocks := some .empty } (rawRows sampleEntries) (by decide) sample_readable).mpr
    ⟨fun table => by cases table <;> rfl, _, storable_of_fits _ _ ?_⟩
  unfold Fits
  decide +kernel

end Sample

end Scand.Catalog.LinkTables
