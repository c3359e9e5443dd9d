/- path: Scand/Inventory/NextImport
   layer: results
   digest: Which further snapshot is accepted after a history of imports, and what it stores. -/

import Scand.Inventory.ImportSnapshot

set_option autoImplicit false
set_option relaxedAutoImplicit false

namespace Scand.Inventory.NextImport

open Scand.Foundation.KeyedTable
open Scand.Inventory.Database
open Scand.Inventory.Snapshot
open Scand.Inventory.ImportSnapshot

def FitsNumeric (v : ℚ) : Prop := ∃ x, numeric 14 4 v = .ok x

/-- The values of the request fit the types of the columns that receive them. -/
structure FitsColumns (pf : Platform) (req : SnapshotRequest) : Prop where
  stock_sku : ∀ s ∈ req.stocks, s.sku1c.length ≤ 128
  stock_offer : ∀ s ∈ req.stocks, ∀ o, s.offerId = some o → o.length ≤ 128
  stock_warehouse : ∀ s ∈ req.stocks, s.warehouseId.length ≤ 64
  stock_available : ∀ s ∈ req.stocks, -2147483648 ≤ s.available ∧ s.available ≤ 2147483647
  stock_reserved : ∀ s ∈ req.stocks, -2147483648 ≤ s.reserved ∧ s.reserved ≤ 2147483647
  warehouse_id : ∀ w ∈ req.warehouses, w.warehouseId.length ≤ 64
  warehouse_name : ∀ w ∈ req.warehouses, w.warehouseName.length ≤ 255
  cost_sku : ∀ c ∈ req.costs, c.sku1c.length ≤ 128
  cost_batch : ∀ c ∈ req.costs, ∀ v, c.batchAvgCost = some v → FitsNumeric v
  cost_purchase : ∀ c ∈ req.costs, ∀ v, c.purchaseCost = some v → FitsNumeric v
  cost_source : ∀ c ∈ req.costs, ∀ v, c.purchaseSource = some v → v.length ≤ 32
  cost_source_at : ∀ c ∈ req.costs, ∀ v, c.purchaseSourceAt = some v → v ≠ "" →
    (pf.timestamptz v).isSome
  cost_dealer : ∀ c ∈ req.costs, ∀ v, c.dealerCost = some v → FitsNumeric v

/-- A further request that any reader of the schema would expect to be importable: it passes the
entry checks, its batch is new, its keys are distinct and it lists its own warehouses. -/
structure Admissible (pf : Platform) (tenantId : Int) (db : InventoryDb) (req : SnapshotRequest) :
    Prop where
  content : req.stocks ≠ [] ∨ req.costs ≠ []
  batch_nonempty : req.batchId ≠ ""
  batch_size : req.batchId.utf8ByteSize ≤ 128
  measured : (pf.timestamptz req.measuredAt).isSome
  batch_new : (tenantId, req.batchId) ∉ db.snapshots.keys
  stocks_distinct : (req.stocks.map StockInput.key).Nodup
  warehouses_distinct : (req.warehouses.map WarehouseInput.warehouseId).Nodup
  listed : ∀ s ∈ req.stocks, s.warehouseId ∈ req.warehouses.map WarehouseInput.warehouseId
  fits : FitsColumns pf req

/-- The request was imported and every stock of it is the one row stored under its key. -/
def Stored (pf : Platform) (tenantId : Int) (req : SnapshotRequest) (db : InventoryDb) : Prop :=
  (importSnapshot pf tenantId req db).result.value.map ImportResult.status = some .imported ∧
    ∃ measuredAt, pf.timestamptz req.measuredAt = some measuredAt ∧
      ∀ s ∈ req.stocks,
        (importSnapshot pf tenantId req db).db.stocks.select
            (tenantId, s.sku1c, s.warehouseId) =
          [stockRow tenantId req measuredAt s]

def KeysFree (tenantId : Int) (req : SnapshotRequest) (db : InventoryDb) : Prop :=
  ∀ s ∈ req.stocks, (tenantId, s.sku1c, s.warehouseId) ∉ db.stocks.keys

def PurchasesDated (req : SnapshotRequest) : Prop :=
  ∀ c ∈ req.costs, c.purchaseCost.isSome → ∃ at_, c.purchaseSourceAt = some at_ ∧ at_ ≠ ""

private theorem length_le_size (s : String) : s.length ≤ s.utf8ByteSize := by
  induction s using String.push_induction with
  | empty => simp
  | push s c ih =>
      have pos := c.utf8Size_pos
      rw [String.length_push, String.utf8ByteSize_push]
      omega

private theorem zero_fits : numeric 14 4 0 = .ok 0 := by
  norm_num [numeric, roundTo]

section Steps

variable {pf : Platform} {tenantId : Int} {req : SnapshotRequest}

private theorem copyWarehouse_ok (fits : FitsColumns pf req) (w : WarehouseInput)
    (hw : w ∈ req.warehouses) : copyWarehouse tenantId w = .ok (warehouseRow tenantId w) := by
  simp only [copyWarehouse, varcharUncut_ok (fits.warehouse_id w hw),
    varcharUncut_ok (fits.warehouse_name w hw)]
  rfl

theorem writeWarehouses_ok (tenantId : Int) (db : InventoryDb) (fits : FitsColumns pf req)
    (distinct : (req.warehouses.map WarehouseInput.warehouseId).Nodup) :
    ∃ u, writeWarehouses tenantId req db = .ok u ∧ u.stocks = db.stocks ∧
      u.snapshots = db.snapshots ∧
      ∀ w ∈ req.warehouses.map WarehouseInput.warehouseId, (tenantId, w) ∈ u.warehouses.keys := by
  unfold writeWarehouses
  split
  · rename_i none_listed
    rw [List.isEmpty_iff] at none_listed
    exact ⟨db, rfl, rfl, rfl, by simp [none_listed]⟩
  · have keys_eq : (req.warehouses.map (warehouseRow tenantId)).map WarehouseRow.key =
        (req.warehouses.map WarehouseInput.warehouseId).map (Prod.mk tenantId) := by
      simp only [List.map_map]
      rfl
    have keys_distinct : ((req.warehouses.map (warehouseRow tenantId)).map
        WarehouseRow.key).Nodup := by
      rw [keys_eq]
      exact distinct.map (Prod.mk_right_injective tenantId)
    obtain ⟨u, stored, stocks, snapshots, keys⟩ :=
      InventoryDb.upsertWarehouses_ok db keys_distinct
    refine ⟨u, ?_, stocks, snapshots, ?_⟩
    · rw [mapM_ok (copyWarehouse_ok fits), ok_bind]
      exact stored
    · intro w hw
      refine (keys _).mpr (Or.inr ?_)
      rw [keys_eq]
      exact List.mem_map.mpr ⟨w, hw, rfl⟩

private theorem copyStock_ok (fits : FitsColumns pf req) (s : StockInput) (hs : s ∈ req.stocks) :
    copyStock s = .ok (id s) := by
  have offer : ((nonEmpty s.offerId).getD "").length ≤ 128 := by
    cases given : s.offerId with
    | none => simp [nonEmpty]
    | some o =>
        have bound := fits.stock_offer s hs o given
        by_cases blank : o = "" <;> simp [nonEmpty, Option.filter, blank, bound]
  simp only [copyStock, varcharUncut_ok (fits.stock_sku s hs), varcharUncut_ok offer,
    varcharUncut_ok (fits.stock_warehouse s hs)]
  rfl

private theorem insertedStock_ok (tenantId : Int) (fits : FitsColumns pf req) (measuredAt : Int)
    (s : StockInput) (hs : s ∈ req.stocks) :
    insertedStock tenantId req measuredAt s = .ok (stockRow tenantId req measuredAt s) := by
  simp only [insertedStock, int4_ok (fits.stock_available s hs),
    int4_ok (fits.stock_reserved s hs)]
  rfl

private theorem stockRow_keys (measuredAt : Int) :
    (req.stocks.map (stockRow tenantId req measuredAt)).map StockRow.key =
      (req.stocks.map StockInput.key).map (Prod.mk tenantId) := by
  simp only [List.map_map]
  rfl

theorem writeStocks_ok_iff {db : InventoryDb} {measuredAt : Int} (fits : FitsColumns pf req)
    (size : req.batchId.utf8ByteSize ≤ 128)
    (measured : pf.timestamptz req.measuredAt = some measuredAt)
    (distinct : (req.stocks.map StockInput.key).Nodup)
    (listed : ∀ s ∈ req.stocks, (tenantId, s.warehouseId) ∈ db.warehouses.keys) :
    (∃ u, writeStocks pf tenantId req db = .ok u) ↔ KeysFree tenantId req db := by
  have copied := mapM_ok (copyStock_ok fits)
  have inserted := mapM_ok (insertedStock_ok tenantId fits measuredAt)
  have batch := varcharUncut_ok ((length_le_size _).trans size)
  unfold writeStocks
  split
  · rename_i none_given
    rw [List.isEmpty_iff] at none_given
    exact iff_of_true ⟨db, rfl⟩ (by simp [KeysFree, none_given])
  · simp only [copied, List.map_id, Platform.readTimestamptz_ok measured, batch, ok_bind, inserted]
    constructor
    · rintro ⟨u, stored⟩ s hs
      exact (InventoryDb.insertStocks_stored stored).1 _ (List.mem_map.mpr ⟨s, hs, rfl⟩)
    · intro free
      have fresh : ∀ r ∈ req.stocks.map (stockRow tenantId req measuredAt),
          r.key ∉ db.stocks.keys := by
        intro r hr
        obtain ⟨s, hs, rfl⟩ := List.mem_map.mp hr
        exact free s hs
      have rows_distinct : ((req.stocks.map (stockRow tenantId req measuredAt)).map
          StockRow.key).Nodup := by
        rw [stockRow_keys]
        exact distinct.map (Prod.mk_right_injective tenantId)
      obtain ⟨u, stored, -⟩ := InventoryDb.insertStocks_ok fresh rows_distinct (by
        intro r hr
        obtain ⟨s, hs, rfl⟩ := List.mem_map.mp hr
        exact listed s hs)
      exact ⟨u, stored⟩

theorem writeBatchCost_ok (tenantId : Int) (db : InventoryDb) {c : CostInput}
    (fits : FitsColumns pf req) (hc : c ∈ req.costs) :
    ∃ u, writeBatchCost tenantId c db = .ok u := by
  unfold writeBatchCost
  split
  · rename_i avg given
    split
    · obtain ⟨x, rounded⟩ := fits.cost_batch c hc avg given
      rw [varcharUncut_ok (fits.cost_sku c hc), rounded]
      exact ⟨_, rfl⟩
    · exact ⟨db, rfl⟩
  · exact ⟨db, rfl⟩

theorem sourceDate_ok_iff {c : CostInput} (fits : FitsColumns pf req) (hc : c ∈ req.costs) :
    (∃ t, pf.readTimestamptz (c.purchaseSourceAt.getD "") = .ok t) ↔
      ∃ at_, c.purchaseSourceAt = some at_ ∧ at_ ≠ "" := by
  have refused : pf.readTimestamptz "" = .error .invalidDatetimeFormat := by
    rw [Platform.readTimestamptz, pf.timestamptz_empty]
  cases given : c.purchaseSourceAt with
  | none => simp [refused]
  | some v =>
      by_cases blank : v = ""
      · simp [blank, refused]
      · obtain ⟨t, parsed⟩ := Option.isSome_iff_exists.mp
          (fits.cost_source_at c hc v given blank)
        have read := Platform.readTimestamptz_ok parsed
        exact iff_of_true ⟨t, read⟩ ⟨v, rfl, blank⟩

theorem writeSupplierCost_ok_iff (tenantId : Int) (db : InventoryDb) {c : CostInput}
    (fits : FitsColumns pf req) (hc : c ∈ req.costs) :
    (∃ u, writeSupplierCost pf tenantId c db = .ok u) ↔
      (c.purchaseCost.isSome → ∃ at_, c.purchaseSourceAt = some at_ ∧ at_ ≠ "") := by
  unfold writeSupplierCost
  cases price : c.purchaseCost with
  | none =>
      refine iff_of_true ⟨db, ?_⟩ (by simp)
      split <;> rfl
  | some p =>
      obtain ⟨purchase, rounded⟩ := fits.cost_purchase c hc p price
      have source : (c.purchaseSource.getD "").length ≤ 32 := by
        cases given : c.purchaseSource with
        | none => simp
        | some v => exact fits.cost_source c hc v given
      obtain ⟨dealer, dealer_rounded⟩ : FitsNumeric (c.dealerCost.getD 0) := by
        cases given : c.dealerCost with
        | none => exact ⟨0, zero_fits⟩
        | some v => exact fits.cost_dealer c hc v given
      simp only [Option.isSome_some, Bool.true_or, if_true, forall_const,
        varcharUncut_ok (fits.cost_sku c hc), rounded, varcharUncut_ok source, dealer_rounded]
      rw [← sourceDate_ok_iff fits hc]
      cases read : pf.readTimestamptz (c.purchaseSourceAt.getD "") with
      | error e =>
          constructor
          · intro given
            obtain ⟨u, stored⟩ := given
            cases stored
          · intro given
            obtain ⟨t, absent⟩ := given
            cases absent
      | ok t => exact iff_of_true ⟨_, rfl⟩ ⟨t, rfl⟩

theorem writeCosts_ok_iff (tenantId : Int) (db : InventoryDb) {costs : List CostInput}
    (fits : FitsColumns pf req) (sub : ∀ c ∈ costs, c ∈ req.costs) :
    (∃ u, writeCosts pf tenantId costs db = .ok u) ↔
      ∀ c ∈ costs, c.purchaseCost.isSome → ∃ at_, c.purchaseSourceAt = some at_ ∧ at_ ≠ "" := by
  induction costs generalizing db with
  | nil => simp [writeCosts]
  | cons c costs ih =>
      have hc := sub c List.mem_cons_self
      obtain ⟨mid, batch⟩ := writeBatchCost_ok tenantId db fits hc
      have rest := fun d => ih d fun b hb => sub b (List.mem_cons_of_mem _ hb)
      rw [List.forall_mem_cons]
      constructor
      · intro given
        obtain ⟨u, written⟩ := given
        simp only [writeCosts, batch, ok_bind] at written
        obtain ⟨d, supplier, tail⟩ := bind_ok written
        exact ⟨(writeSupplierCost_ok_iff tenantId mid fits hc).mp ⟨d, supplier⟩, (rest d).mp ⟨u, tail⟩⟩
      · intro given
        obtain ⟨dated, all⟩ := given
        obtain ⟨d, supplier⟩ := (writeSupplierCost_ok_iff tenantId mid fits hc).mpr dated
        obtain ⟨u, tail⟩ := (rest d).mpr all
        refine ⟨u, ?_⟩
        simp only [writeCosts, batch, ok_bind, supplier]
        exact tail

end Steps

section NextImport

variable {pf : Platform} {tenantId : Int} {req : SnapshotRequest} {db : InventoryDb}

private theorem existingHash_none (batch_new : (tenantId, req.batchId) ∉ db.snapshots.keys) :
    existingHash tenantId db req.batchId = none := by
  rw [existingHash, Option.map_eq_none_iff, List.find?_eq_none]
  intro row mem same
  exact batch_new (of_decide_eq_true same ▸ Table.mem_keys mem)

theorem importSnapshot_admissible (adm : Admissible pf tenantId db req) :
    (importSnapshot pf tenantId req db).result.value.map ImportResult.status = some .imported ↔
      ∃ u, importStatements pf tenantId req (pf.sha256Hex (canonicalJson req)) db = .ok u := by
  have content : (req.stocks.isEmpty && req.costs.isEmpty) = false := by
    rcases adm.content with given | given <;> simp [given]
  have batch : (req.batchId.isEmpty || decide (req.batchId.utf8ByteSize > 128)) = false := by
    have small := adm.batch_size
    simp [adm.batch_nonempty]
    omega
  have measured : req.measuredAt.isEmpty = false := by
    have valid := adm.measured
    by_contra blank
    have empty : req.measuredAt = "" := by simpa using blank
    rw [empty, pf.timestamptz_empty] at valid
    cases valid
  rw [importSnapshot, content, batch, measured, existingHash_none adm.batch_new]
  simp only [Bool.false_eq_true, if_false]
  cases importStatements pf tenantId req (pf.sha256Hex (canonicalJson req)) db with
  | ok u => simp [Result.success]
  | error e => simp [Result.failure]

theorem importStatements_ok_iff {payloadHash : String} (adm : Admissible pf tenantId db req)
    (hash : payloadHash.length ≤ 64) :
    (∃ u, importStatements pf tenantId req payloadHash db = .ok u) ↔
      KeysFree tenantId req db ∧ PurchasesDated req := by
  obtain ⟨measuredAt, measured⟩ := Option.isSome_iff_exists.mp adm.measured
  obtain ⟨u₁, warehouses, stocks₁, snapshots₁, known⟩ :=
    writeWarehouses_ok tenantId (db.deleteCosts tenantId) adm.fits
      adm.warehouses_distinct
  have listed : ∀ s ∈ req.stocks, (tenantId, s.warehouseId) ∈ u₁.warehouses.keys :=
    fun s hs => known _ (adm.listed s hs)
  have stocks_iff := writeStocks_ok_iff adm.fits adm.batch_size measured adm.stocks_distinct listed
  have free_iff : KeysFree tenantId req u₁ ↔ KeysFree tenantId req db := by
    rw [KeysFree, stocks₁]
    rfl
  simp only [importStatements, warehouses, ok_bind]
  constructor
  · intro given
    obtain ⟨u, done⟩ := given
    obtain ⟨u₂, stocks, done⟩ := bind_ok done
    obtain ⟨u₃, costs, -⟩ := bind_ok done
    exact ⟨free_iff.mp (stocks_iff.mp ⟨u₂, stocks⟩),
      (writeCosts_ok_iff tenantId u₂ adm.fits fun _ hc => hc).mp ⟨u₃, costs⟩⟩
  · intro given
    obtain ⟨free, dated⟩ := given
    obtain ⟨u₂, stocks⟩ := stocks_iff.mpr (free_iff.mpr free)
    have snapshots₂ := (writeStocks_rows stocks).2.1
    obtain ⟨u₃, costs⟩ := (writeCosts_ok_iff tenantId u₂ adm.fits
      fun _ hc => hc).mpr dated
    have snapshots₃ := (writeCosts_pricesOnly costs).snapshots
    have batch_new : (tenantId, req.batchId) ∉ u₃.snapshots.keys := by
      rw [snapshots₃, snapshots₂, snapshots₁]
      exact adm.batch_new
    simp only [stocks, costs, ok_bind, writeSnapshot,
      varcharUncut_ok ((length_le_size _).trans adm.batch_size), varcharUncut_ok hash,
      Platform.readTimestamptz_ok measured]
    obtain ⟨u, stored, -⟩ := InventoryDb.insertSnapshot_ok u₃ {
      tenantId := tenantId
      batchId := req.batchId
      payloadHash := payloadHash
      measuredAt := measuredAt
      stocksCount := req.stocks.length
      costsCount := req.costs.length } batch_new
    exact ⟨u, stored⟩

theorem stored_of_imported
    (imported : (importSnapshot pf tenantId req db).result.value.map ImportResult.status =
      some .imported) : Stored pf tenantId req db := by
  rcases importSnapshot_cases pf tenantId req db with ⟨-, other⟩ | ⟨u, done, after, -⟩
  · exact (other imported).elim
  · obtain ⟨measuredAt, measured, rows⟩ := importStatements_stocks done
    refine ⟨imported, measuredAt, measured, ?_⟩
    intro s hs
    have mem : stockRow tenantId req measuredAt s ∈ u.stocks.rows := by
      rw [rows]
      exact List.mem_append_right _ (List.mem_map.mpr ⟨s, hs, rfl⟩)
    rw [after]
    exact Table.select_of_mem mem

end NextImport

section History

variable (pf : Platform) (tenantId : Int)

/-- After any history of imports for the tenant, a further admissible request is imported and stored
row by row exactly when no row is stored yet under one of its stock keys and every purchase cost it
carries is dated. -/
theorem next_import_stored_iff (history : List SnapshotRequest) (req : SnapshotRequest)
    (adm : Admissible pf tenantId (importAll pf tenantId history .empty) req) :
    Stored pf tenantId req (importAll pf tenantId history .empty) ↔
      KeysFree tenantId req (importAll pf tenantId history .empty) ∧ PurchasesDated req := by
  have hash : (pf.sha256Hex (canonicalJson req)).length ≤ 64 := (pf.sha256Hex_length _).le
  rw [← importStatements_ok_iff adm hash, ← importSnapshot_admissible adm]
  exact ⟨fun stored => stored.1, stored_of_imported⟩

end History

section Sample

/-- Three moments as PostgreSQL reads them, in microseconds, and the digests of the requests that the
samples import. -/
def samplePlatform : Platform where
  timestamptz text :=
    if text = "2026-09-23T15:08:23Z" then some 1790176103000000
    else if text = "2026-09-24T15:08:23Z" then some 1790262503000000
    else if text = "2026-09-25T15:08:23Z" then some 1790348903000000
    else none
  timestamptz_empty := by decide
  what
    | .uniqueViolation => "duplicate key value violates unique constraint"
    | .foreignKeyViolation => "insert or update violates foreign key constraint"
    | .cardinalityViolation => "ON CONFLICT DO UPDATE command cannot affect row a second time"
    | .stringDataRightTruncation => "value too long for type character varying"
    | .numericValueOutOfRange => "numeric field overflow"
    | .invalidDatetimeFormat => "invalid input syntax for type timestamp with time zone: \"\""
  sha256Hex
    | .object (("batch_id", .string "odata-2026-09-23T15-08-23") :: _) =>
        "27cb9eb5f0ea1c5268cd150809ba094fe25716dd85321b37fdac5c0eec7011ac"
    | .object (("batch_id", .string "odata-2026-09-24T15-08-23") :: _) =>
        "06eec5432b8d3cc2f3723ad7d3f21bedb7860a481edfec2db354d8fa81b70d5a"
    | .object (("batch_id", .string "odata-2026-09-25T15-08-23") :: _) =>
        "32b40c0b3c18075b5d58dfd65e4a13c4e93bb175d20300da4de84628bfad844b"
    | .object [("batch_id", .string "batch-1"), _, _, _, _,
        ("costs", .array [.object (_ :: ("batch_avg_cost", .null) :: _)])] =>
        "c90bca6b0b9cd1665032e59b4767c63e886b8c85ef21d821a89429bc3160edad"
    | .object (("batch_id", .string "batch-1") :: _) =>
        "6c8f2d6aa7581957ce115f1aca2743242f15d5f01840afc64b9969a25813986e"
    -- the digest of the empty text
    | _ => "e3b0c44298fc1c149afbf4c8996fb92427ae41e4649b934ca495991b7852b855"
  sha256Hex_length j := by
    split <;> decide

def sampleRequest (batchId measuredAt sku1c : String) (available : Int) : SnapshotRequest where
  batchId := batchId
  measuredAt := measuredAt
  stocks := [{ sku1c := sku1c, warehouseId := "wh-1", available := available }]
  warehouses := [{ warehouseId := "wh-1", warehouseName := "Main" }]

def firstRequest : SnapshotRequest :=
  sampleRequest "odata-2026-09-23T15-08-23" "2026-09-23T15:08:23Z" "sku-1" 5

def secondRequest : SnapshotRequest :=
  sampleRequest "odata-2026-09-24T15-08-23" "2026-09-24T15:08:23Z" "sku-1" 7

def otherRequest : SnapshotRequest :=
  sampleRequest "odata-2026-09-25T15-08-23" "2026-09-25T15:08:23Z" "sku-2" 7

private theorem sample_fits (batchId measuredAt sku1c : String) (available : Int)
    (sku : sku1c.length ≤ 128) (range : -2147483648 ≤ available ∧ available ≤ 2147483647) :
    FitsColumns samplePlatform (sampleRequest batchId measuredAt sku1c available) where
  stock_sku := by simpa [sampleRequest] using sku
  stock_offer := by simp [sampleRequest]
  stock_warehouse := by simp [sampleRequest]; decide
  stock_available := by simpa [sampleRequest] using range
  stock_reserved := by simp [sampleRequest]
  warehouse_id := by simp [sampleRequest]; decide
  warehouse_name := by simp [sampleRequest]; decide
  cost_sku := by simp [sampleRequest]
  cost_batch := by simp [sampleRequest]
  cost_purchase := by simp [sampleRequest]
  cost_source := by simp [sampleRequest]
  cost_source_at := by simp [sampleRequest]
  cost_dealer := by simp [sampleRequest]

private theorem second_admissible :
    Admissible samplePlatform 1 (importAll samplePlatform 1 [firstRequest] .empty)
      secondRequest where
  content := by decide
  batch_nonempty := by decide
  batch_size := by decide
  measured := by decide
  batch_new := by decide
  stocks_distinct := by decide
  warehouses_distinct := by decide
  listed := by decide
  fits := sample_fits _ _ _ _ (by decide) (by decide)

private theorem other_admissible :
    Admissible samplePlatform 1 (importAll samplePlatform 1 [firstRequest] .empty)
      otherRequest where
  content := by decide
  batch_nonempty := by decide
  batch_size := by decide
  measured := by decide
  batch_new := by decide
  stocks_distinct := by decide
  warehouses_distinct := by decide
  listed := by decide
  fits := sample_fits _ _ _ _ (by decide) (by decide)

/-- The next day's snapshot of the same product and warehouse is admissible and refused. -/
theorem second_snapshot_refused :
    Admissible samplePlatform 1 (importAll samplePlatform 1 [firstRequest] .empty) secondRequest ∧
      ¬ Stored samplePlatform 1 secondRequest
        (importAll samplePlatform 1 [firstRequest] .empty) := by
  refine ⟨second_admissible, fun stored => ?_⟩
  have refused : (importSnapshot samplePlatform 1 secondRequest
      (importAll samplePlatform 1 [firstRequest] .empty)).result.value = none := by decide
  have imported := stored.1
  rw [refused] at imported
  cases imported

theorem next_import_stored_other :
    Stored samplePlatform 1 otherRequest (importAll samplePlatform 1 [firstRequest] .empty) :=
  (next_import_stored_iff samplePlatform 1 [firstRequest] otherRequest other_admissible).mpr
    ⟨by unfold KeysFree; decide, by simp [PurchasesDated, otherRequest, sampleRequest]⟩

end Sample

end Scand.Inventory.NextImport
